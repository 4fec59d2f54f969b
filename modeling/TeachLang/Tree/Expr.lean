import TeachLang.Ty
import TeachLang.Token.Basic
import TeachLang.Tree.Operator

/-! # Expressions

Every node of the tree has a slot for its type, empty until the node has been checked.
-/

namespace TeachLang

/-- The type of a checked node. -/
abbrev Slot := Option Ty

structure Identifier where
  token : Token
  slot : Slot
deriving DecidableEq, Repr

def Identifier.name (i : Identifier) : String := i.token.text

/-- The value of a simple literal; integers are kept as written, however large. -/
inductive LiteralValue where
  | int (value : Nat)
  | string (value : String)
  | bool (value : Bool)
deriving DecidableEq, Repr

structure Literal where
  token : Token
  value : LiteralValue
  slot : Slot
deriving DecidableEq, Repr

/-- Simple literals between curly or square brackets. -/
structure ListLiteral where
  opening : Token
  elements : List Literal
  slot : Slot
deriving DecidableEq, Repr

inductive Expr where
  | name (identifier : Identifier)
  | call (callee : Token) (args : List Expr) (slot : Slot)
  | index (target : Expr) (opening : Token) (position : Expr) (slot : Slot)
  | literal (literal : Literal)
  | list (literal : ListLiteral)
  | binary (op : BinaryOp) (symbol : Token) (lhs rhs : Expr) (slot : Slot)
  | unary (op : UnaryOp) (symbol : Token) (operand : Expr) (slot : Slot)
deriving Repr

namespace Expr

/-- The token that an expression stands for in messages: the name, the literal, the operator or
the opening bracket. -/
def anchor : Expr → Token
  | name i => i.token
  | call callee _ _ => callee
  | index _ opening _ _ => opening
  | literal l => l.token
  | list l => l.opening
  | binary _ symbol _ _ _ => symbol
  | unary _ symbol _ _ => symbol

def slot : Expr → Slot
  | name i => i.slot
  | call _ _ slot => slot
  | index _ _ _ slot => slot
  | literal l => l.slot
  | list l => l.slot
  | binary _ _ _ _ slot => slot
  | unary _ _ _ slot => slot

def withSlot (e : Expr) (slot : Slot) : Expr :=
  match e with
  | name i => name { i with slot }
  | call callee args _ => call callee args slot
  | index target opening position _ => index target opening position slot
  | literal l => literal { l with slot }
  | list l => list { l with slot }
  | binary op symbol lhs rhs _ => binary op symbol lhs rhs slot
  | unary op symbol operand _ => unary op symbol operand slot

/-- The part of the source that an expression covers, from its leftmost operand to its rightmost.
Parentheses and closing brackets are not counted. -/
def span? : Expr → Option Span
  | binary _ _ lhs rhs _ => do (← lhs.span?).join? (← rhs.span?)
  | unary _ symbol operand _ => do symbol.span.join? (← operand.span?)
  | index target _ position _ => do (← target.span?).join? (← position.span?)
  | name i => some i.token.span
  | call callee _ _ => some callee.span
  | literal l => some l.token.span
  | list l => some l.opening.span

mutual

/-- An expression and all its parts, each before its own parts. -/
def subexpressions : Expr → List Expr
  | e@(call _ args _) => e :: subexpressionsOf args
  | e@(index target _ position _) => e :: (target.subexpressions ++ position.subexpressions)
  | e@(binary _ _ lhs rhs _) => e :: (lhs.subexpressions ++ rhs.subexpressions)
  | e@(unary _ _ operand _) => e :: operand.subexpressions
  | e@(name _) => [e]
  | e@(literal _) => [e]
  | e@(list _) => [e]

def subexpressionsOf : List Expr → List Expr
  | [] => []
  | e :: es => e.subexpressions ++ subexpressionsOf es

end

end Expr
end TeachLang
