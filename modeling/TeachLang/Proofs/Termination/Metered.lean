import TeachLang.Grammar.Declaration

/-! # Grammar with metered fuel

The parsers of the grammar once more, with loops and nestings that yield nothing at all when they
run out of fuel.  What such a parser yields is what loops and nestings come to that go on for as
long as they have to.
-/

namespace TeachLang

/-- A parser that may run out of fuel. -/
abbrev Metered (σ : Type) : Type → Type := ExceptT SyntaxError (StateT σ Option)

namespace Metered

open TeachLang.Parser

section

variable {σ α : Type}

def lift (p : Parser σ α) : Metered σ α := fun s => some (p s)

def exhausted : Metered σ α := fun _ => none

variable [TokenStream σ]

def opt (first : List TokenKind) (p : Metered σ α) : Metered σ (Option α) := do
  if ← lift (hasAny first) then return some (← p) else return none

def many (first : List TokenKind) (p : Metered σ α) : Nat → Metered σ (List α)
  | 0 => exhausted
  | fuel + 1 => do
    if ← lift (hasAny first) then
      let a ← p
      return a :: (← many first p fuel)
    else return []

def afterCommas (p : Metered σ α) : Nat → Metered σ (List α)
  | 0 => exhausted
  | fuel + 1 => do
    match ← lift (take? .comma) with
    | some _ =>
      let a ← p
      return a :: (← afterCommas p fuel)
    | none => return []

def commaSeparated (first : List TokenKind) (p : Metered σ α) (fuel : Nat) :
    Metered σ (List α) := do
  if ← lift (hasAny first) then
    let a ← p
    return a :: (← afterCommas p fuel)
  else return []

end

variable {σ : Type} [TokenStream σ]

/-! ## Expressions -/

def listLiteral (fuel : Nat) : Metered σ ListLiteral := do
  let opening ← lift (expectAny First.listLiteral)
  let elements ← commaSeparated First.simpleLiteral (lift Grammar.literal) fuel
  let _ ← lift (expect (Grammar.closing opening.kind))
  return ⟨opening, elements, none⟩

def arguments (expr : Metered σ Expr) (fuel : Nat) : Metered σ (List Expr) := do
  let _ ← lift (expect .parenthesisOpen)
  let args ← commaSeparated First.expr expr fuel
  let _ ← lift (expect .parenthesisClose)
  return args

def atom (expr : Metered σ Expr) (fuel : Nat) : Metered σ Expr := do
  match (← lift current).kind with
  | .parenthesisOpen =>
    let _ ← lift advance
    let inner ← expr
    let _ ← lift (expect .parenthesisClose)
    return inner
  | .identifier =>
    let name ← lift advance
    if ← lift (has .parenthesisOpen) then return .call name (← arguments expr fuel) none
    else return .name ⟨name, none⟩
  | .curlyOpen | .bracketOpen => return .list (← listLiteral fuel)
  | .intLiteral | .stringLiteral | .kwTrue | .kwFalse => return .literal (← lift Grammar.literal)
  | _ => lift (fail (.anyOf First.primary))

def primary (expr : Metered σ Expr) (fuel : Nat) : Metered σ Expr := do
  let target ← atom expr fuel
  match ← lift (take? .bracketOpen) with
  | some opening =>
    let position ← expr
    let _ ← lift (expect .bracketClose)
    return .index target opening position none
  | none => return target

def unary (operand : Metered σ Expr) : Nat → Metered σ Expr
  | 0 => exhausted
  | fuel + 1 => do
    match ← lift (takeAny? First.unaryOperator) with
    | some symbol =>
      let op ← lift (standsFor UnaryOp.ofKind? (.anyOf First.unaryOperator) symbol)
      return .unary op symbol (← unary operand fuel) none
    | none => operand

def moreOperands (level : Level) (operand : Metered σ Expr) : Nat → Expr → Metered σ Expr
  | 0, _ => exhausted
  | fuel + 1, lhs => do
    match ← lift (takeAny? level.operators) with
    | some symbol =>
      let op ← lift (standsFor BinaryOp.ofKind? (.anyOf level.operators) symbol)
      let rhs ← operand
      moreOperands level operand fuel (.binary op symbol lhs rhs none)
    | none => return lhs

def operation (level : Level) (operand : Metered σ Expr) (fuel : Nat) : Metered σ Expr := do
  let lhs ← operand
  moreOperands level operand fuel lhs

def expr : Nat → Metered σ Expr
  | 0 => exhausted
  | fuel + 1 =>
    let factor := unary (primary (expr fuel) (fuel + 1)) (fuel + 1)
    let term := operation .mul factor (fuel + 1)
    let sum := operation .sum term (fuel + 1)
    let relation := operation .relational sum (fuel + 1)
    operation .logic relation (fuel + 1)

/-! ## Statements -/

def nameStatement (fuel : Nat) : Metered σ Statement := do
  let name ← lift (expect .identifier)
  match (← lift current).kind with
  | .colonEqual =>
    let symbol ← lift advance
    let value ← expr fuel
    return .assignment (.name ⟨name, none⟩) symbol value none
  | .bracketOpen =>
    let opening ← lift advance
    let position ← expr fuel
    let _ ← lift (expect .bracketClose)
    let symbol ← lift (expect .colonEqual)
    let value ← expr fuel
    return .assignment (.element (.name ⟨name, none⟩) opening position none) symbol value none
  | .parenthesisOpen => return .call name (← arguments (expr fuel) fuel) none
  | _ => lift (fail (.anyOf First.afterName))

def elseIfs (expr : Metered σ Expr) (block : Metered σ Block) : Nat → Metered σ ElseIfs
  | 0 => exhausted
  | fuel + 1 => do
    match ← lift (take? .kwElseif) with
    | some keyword =>
      let condition ← expr
      let _ ← lift (expect .kwThen)
      let body ← block
      return .cons keyword condition body none (← elseIfs expr block fuel)
    | none => return .nil

def otherwise (block : Metered σ Block) : Metered σ Else := do
  match ← lift (take? .kwElse) with
  | some keyword => return .present keyword (← block) none
  | none => return .absent

def conditional (block : Metered σ Block) (fuel : Nat) : Metered σ Statement := do
  let keyword ← lift (expect .kwIf)
  let condition ← expr fuel
  let _ ← lift (expect .kwThen)
  let body ← block
  let branches ← elseIfs (expr fuel) block fuel
  let last ← otherwise block
  let _ ← lift (expect .kwEnd)
  return .conditional keyword condition body branches none last none

def loop (block : Metered σ Block) : Metered σ Statement := do
  let keyword ← lift advance
  let body ← block
  let _ ← lift (expect .kwEnd)
  return .loop keyword body none

def forEach (block : Metered σ Block) (fuel : Nat) : Metered σ Statement := do
  let keyword ← lift advance
  let item ← lift (expect .identifier)
  let _ ← lift (expect .kwIn)
  let iterable ← expr fuel
  let _ ← lift (expect .kwDo)
  let body ← block
  let _ ← lift (expect .kwEnd)
  return .forEach keyword ⟨item, none⟩ iterable body none

def statementBody (block : Metered σ Block) (fuel : Nat) : Metered σ Statement := do
  match (← lift current).kind with
  | .identifier => nameStatement fuel
  | .kwIf => conditional block fuel
  | .kwLoop => loop block
  | .kwFor => forEach block fuel
  | .kwReturn =>
    let keyword ← lift advance
    return .returning keyword (← opt First.expr (expr fuel)) none
  | .kwExit => return .exit (← lift advance) none
  | _ => lift (fail (.anyOf First.statement))

def blockOf (statement : Metered σ Statement) (fuel : Nat) : Metered σ Block := do
  return .mk (← many First.statement statement fuel) none

def statement : Nat → Metered σ Statement
  | 0 => exhausted
  | fuel + 1 => do
    let s ← statementBody (blockOf (statement fuel) fuel) (fuel + 1)
    let _ ← lift (expect .semicolon)
    return s

def block (fuel : Nat) : Metered σ Block := blockOf (statement fuel) fuel

/-! ## Declarations -/

def constantValue (fuel : Nat) : Metered σ ConstantValue := do
  if ← lift (has .curlyOpen) then return .list (← listLiteral fuel)
  else if ← lift (hasAny First.simpleLiteral) then return .simple (← lift Grammar.literal)
  else lift (fail (.anyOf First.constantValue))

def constantDecl (fuel : Nat) : Metered σ ConstantDecl := do
  let name ← lift (expect .identifier)
  let _ ← lift (expect .colonEqual)
  let value ← constantValue fuel
  let _ ← lift (expect .semicolon)
  return ⟨name, value, none⟩

def constantList (fuel : Nat) : Metered σ ConstantList := do
  let keyword ← lift (expect .kwConst)
  let declaration ← constantDecl fuel
  let declarations ← many First.name (constantDecl fuel) fuel
  return ⟨keyword, declaration :: declarations, none⟩

def bindingDecl (fuel : Nat) : Metered σ BindingDecl := do
  let name ← lift Grammar.identifier
  let names ← afterCommas (lift Grammar.identifier) fuel
  let _ ← lift (expect .colon)
  let type ← lift Grammar.typeExpr
  return ⟨name :: names, type, none⟩

def closedBinding (fuel : Nat) : Metered σ BindingDecl := do
  let binding ← bindingDecl fuel
  let _ ← lift (expect .semicolon)
  return binding

def variableList (fuel : Nat) : Metered σ VariableList := do
  let keyword ← lift (expect .kwVar)
  let declaration ← closedBinding fuel
  let declarations ← many First.name (closedBinding fuel) fuel
  return ⟨keyword, declaration :: declarations, none⟩

def procedureDecl (fuel : Nat) : Metered σ ProcedureDecl := do
  let keyword ← lift (expect .kwProcedure)
  let name ← lift (expect .identifier)
  let _ ← lift (expect .parenthesisOpen)
  let parameters ← many First.name (closedBinding fuel) fuel
  let _ ← lift (expect .parenthesisClose)
  let returnType ← lift Grammar.returnType
  let _ ← lift (expect .semicolon)
  let constants ← opt First.constantList (constantList fuel)
  let vars ← opt First.variableList (variableList fuel)
  let _ ← lift (expect .kwBegin)
  let body ← block fuel
  let _ ← lift (expect .kwEnd)
  let _ ← lift (expect .semicolon)
  return ⟨keyword, name, ⟨parameters, none⟩, returnType, constants, vars, body, none⟩

def procedureList (fuel : Nat) : Metered σ ProcedureList := do
  return ⟨← many First.procedure (procedureDecl fuel) fuel, none⟩

def program (fuel : Nat) : Metered σ Program := do
  let constants ← opt First.constantList (constantList fuel)
  let vars ← opt First.variableList (variableList fuel)
  let procedures ← procedureList fuel
  let keyword ← lift Grammar.programKeyword
  let statements ← block fuel
  let _ ← lift (expect .kwEnd)
  let _ ← lift (expect .semicolon)
  let _ ← lift (expect .eof)
  return ⟨keyword, constants, vars, procedures, statements, none⟩

end Metered
end TeachLang
