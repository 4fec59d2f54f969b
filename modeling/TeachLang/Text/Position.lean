/-! # Positions

A place in a text: a byte offset from 0, and a line and a column from 1, where columns count
characters.  A newline ends its line.
-/

namespace TeachLang

/-- A line and a column, as shown to users. -/
structure LineCol where
  line : Nat
  column : Nat
deriving DecidableEq, Repr

namespace LineCol

instance : ToString LineCol := ⟨fun p => toString p.line ++ ":" ++ toString p.column⟩

end LineCol

structure Position where
  offset : Nat
  line : Nat
  column : Nat
deriving DecidableEq, Repr

namespace Position

def start : Position := ⟨0, 1, 1⟩

def advance (p : Position) (c : Char) : Position :=
  if c = '\n' then ⟨p.offset + c.utf8Size, p.line + 1, 1⟩
  else ⟨p.offset + c.utf8Size, p.line, p.column + 1⟩

def advanceAll (p : Position) (cs : List Char) : Position := cs.foldl advance p

@[simp] theorem advanceAll_nil (p : Position) : p.advanceAll [] = p := rfl

@[simp] theorem advanceAll_cons (p : Position) (c : Char) (cs : List Char) :
    p.advanceAll (c :: cs) = (p.advance c).advanceAll cs := rfl

theorem advanceAll_append (p : Position) (as bs : List Char) :
    p.advanceAll (as ++ bs) = (p.advanceAll as).advanceAll bs := by
  simp [advanceAll]

end Position
end TeachLang
