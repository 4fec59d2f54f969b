import TeachLang.Grammar.First
import TeachLang.Grammar.Parser
import TeachLang.Tree.Expr

/-! # Grammar of expressions

    expr    := rel [(and | or | xor) rel]…
    rel     := sum [(= | <> | < | > | <= | >=) sum]…
    sum     := mul [(+ | -) mul]…
    mul     := unary [(* | div | rem) unary]…
    unary   := (not | -) unary | primary
    primary := atom [ [ expr ] ]
    atom    := ( expr ) | name | name ( [expr [, expr]…] ) | literal | list

Every level of binary operators groups to the left.
-/

namespace TeachLang

/-- How tightly a binary operator binds. -/
inductive Level where
  | logic
  | relational
  | sum
  | mul
deriving DecidableEq, Repr

def BinaryOp.level : BinaryOp → Level
  | and | or | xor => .logic
  | equal | unequal | lessThan | moreThan | lessThanEqual | moreThanEqual => .relational
  | plus | minus => .sum
  | times | div | rem => .mul

def Level.operators : Level → List TokenKind
  | logic => First.logicOperator
  | relational => First.relationalOperator
  | sum => First.sumOperator
  | mul => First.mulOperator

/-- The number that a run of decimal digits writes. -/
def decimalValue (cs : List Char) : Nat := cs.foldl (fun n c => 10 * n + (c.toNat - '0'.toNat)) 0

/-- Whether the text of a token can be converted to a value: an integer literal has to be a run of
decimal digits. -/
def Token.isLegible (t : Token) : Bool :=
  t.kind != .intLiteral || (!t.text.toList.isEmpty && t.text.toList.all Char.isDigit)

/-- Every pair of quotes is one quote. -/
def collapseQuotes : List Char → List Char
  | '"' :: '"' :: cs => '"' :: collapseQuotes cs
  | c :: cs => c :: collapseQuotes cs
  | [] => []

/-- The text that a string literal writes: what stands between its quotes, where two quotes in a
row stand for one. -/
def unquote (lexeme : String) : String :=
  String.ofList (collapseQuotes (lexeme.toList.drop 1).dropLast)

/-- The value that the token of a simple literal writes. -/
def LiteralValue.ofToken (t : Token) : LiteralValue :=
  match t.kind with
  | .intLiteral => .int (decimalValue t.text.toList)
  | .stringLiteral => .string (unquote t.text)
  | kind => .bool (kind == .kwTrue)

namespace Grammar

open TeachLang.Parser

variable {σ : Type} [TokenStream σ]

def literal : Parser σ Literal := do
  let token ← expectAny First.simpleLiteral
  if token.isLegible then return ⟨token, .ofToken token, none⟩
  else failAt (.one .intLiteral) token

def closing (opening : TokenKind) : TokenKind :=
  if opening = .bracketOpen then .bracketClose else .curlyClose

def listLiteral (fuel : Nat) : Parser σ ListLiteral := do
  let opening ← expectAny First.listLiteral
  let elements ← commaSeparated First.simpleLiteral literal fuel
  let _ ← expect (closing opening.kind)
  return ⟨opening, elements, none⟩

def arguments (expr : Parser σ Expr) (fuel : Nat) : Parser σ (List Expr) := do
  let _ ← expect .parenthesisOpen
  let args ← commaSeparated First.expr expr fuel
  let _ ← expect .parenthesisClose
  return args

def atom (expr : Parser σ Expr) (fuel : Nat) : Parser σ Expr := do
  match (← current).kind with
  | .parenthesisOpen =>
    let _ ← advance
    let inner ← expr
    let _ ← expect .parenthesisClose
    return inner
  | .identifier =>
    let name ← advance
    if ← has .parenthesisOpen then return .call name (← arguments expr fuel) none
    else return .name ⟨name, none⟩
  | .curlyOpen | .bracketOpen => return .list (← listLiteral fuel)
  | .intLiteral | .stringLiteral | .kwTrue | .kwFalse => return .literal (← literal)
  | _ => fail (.anyOf First.primary)

/-- An atom with at most one index. -/
def primary (expr : Parser σ Expr) (fuel : Nat) : Parser σ Expr := do
  let target ← atom expr fuel
  match ← take? .bracketOpen with
  | some opening =>
    let position ← expr
    let _ ← expect .bracketClose
    return .index target opening position none
  | none => return target

def unary (operand : Parser σ Expr) : Nat → Parser σ Expr
  | 0 => operand
  | fuel + 1 => do
    match ← takeAny? First.unaryOperator with
    | some symbol =>
      let op ← standsFor UnaryOp.ofKind? (.anyOf First.unaryOperator) symbol
      return .unary op symbol (← unary operand fuel) none
    | none => operand

/-- Goes on with an expression for as long as an operator of the level follows. -/
def moreOperands (level : Level) (operand : Parser σ Expr) : Nat → Expr → Parser σ Expr
  | 0, lhs => return lhs
  | fuel + 1, lhs => do
    match ← takeAny? level.operators with
    | some symbol =>
      let op ← standsFor BinaryOp.ofKind? (.anyOf level.operators) symbol
      let rhs ← operand
      moreOperands level operand fuel (.binary op symbol lhs rhs none)
    | none => return lhs

/-- Operands with operators of one level between. -/
def operation (level : Level) (operand : Parser σ Expr) (fuel : Nat) : Parser σ Expr := do
  let lhs ← operand
  moreOperands level operand fuel lhs

def expr : Nat → Parser σ Expr
  | 0 => fail (.anyOf First.primary)
  | fuel + 1 =>
    let factor := unary (primary (expr fuel) (fuel + 1)) (fuel + 1)
    let term := operation .mul factor (fuel + 1)
    let sum := operation .sum term (fuel + 1)
    let relation := operation .relational sum (fuel + 1)
    operation .logic relation (fuel + 1)

end Grammar
end TeachLang
