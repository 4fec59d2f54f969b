import TeachLang.Tree.Expr

/-! # Statements

A block is a run of statements.  A conditional holds its `elseif` branches in order and at most
one `else` branch.
-/

namespace TeachLang

/-- What an assignment writes to: a name or one element of a list.  In a source the list is one that
a name holds. -/
inductive Target where
  | name (identifier : Identifier)
  | element (base : Expr) (opening : Token) (position : Expr) (slot : Slot)
deriving Repr

def Expr.name? : Expr → Option Identifier
  | name i => some i
  | _ => none

/-- The identifier whose value an assignment changes, if a plain name stands for the list. -/
def Target.base? : Target → Option Identifier
  | name i => some i
  | element base _ _ _ => base.name?

mutual

inductive Statement where
  | assignment (target : Target) (symbol : Token) (value : Expr) (slot : Slot)
  | call (callee : Token) (args : List Expr) (slot : Slot)
  | conditional (keyword : Token) (condition : Expr) (body : Block) (elseIfs : ElseIfs)
      (elseIfsSlot : Slot) (otherwise : Else) (slot : Slot)
  | loop (keyword : Token) (body : Block) (slot : Slot)
  | forEach (keyword : Token) (item : Identifier) (iterable : Expr) (body : Block)
      (slot : Slot)
  | returning (keyword : Token) (value : Option Expr) (slot : Slot)
  | exit (keyword : Token) (slot : Slot)

inductive Block where
  | mk (statements : List Statement) (slot : Slot)

inductive ElseIfs where
  | nil
  | cons (keyword : Token) (condition : Expr) (body : Block) (slot : Slot) (rest : ElseIfs)

inductive Else where
  | absent
  | present (keyword : Token) (body : Block) (slot : Slot)

end

def Statement.anchor : Statement → Token
  | assignment _ symbol _ _ => symbol
  | call callee _ _ => callee
  | conditional keyword _ _ _ _ _ _ => keyword
  | loop keyword _ _ => keyword
  | forEach keyword _ _ _ _ => keyword
  | returning keyword _ _ => keyword
  | exit keyword _ => keyword

namespace Block

def statements : Block → List Statement
  | mk statements _ => statements

def slot : Block → Slot
  | mk _ slot => slot

end Block
end TeachLang
