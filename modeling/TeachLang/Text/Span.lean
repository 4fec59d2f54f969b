import TeachLang.Text.Quoted

/-! # Spans

A span is a range of bytes of one source text.  A range is good when it runs forward and both
ends stand between two characters.
-/

namespace TeachLang

def byteCount : List Char → Nat
  | [] => 0
  | c :: cs => c.utf8Size + byteCount cs

/-- Whether an offset stands between two characters, or at an end of the text. -/
def isBoundary : List Char → Nat → Bool
  | _, 0 => true
  | [], _ + 1 => false
  | c :: cs, offset => c.utf8Size ≤ offset && isBoundary cs (offset - c.utf8Size)

/-- The characters that start within the first `bytes` bytes. -/
def takeBytes : Nat → List Char → List Char
  | 0, _ => []
  | _, [] => []
  | bytes, c :: cs => c :: takeBytes (bytes - c.utf8Size) cs

/-- What is left after the characters that start within the first `bytes` bytes. -/
def dropBytes : Nat → List Char → List Char
  | 0, cs => cs
  | _, [] => []
  | bytes, c :: cs => dropBytes (bytes - c.utf8Size) cs

structure Span where
  source : String
  start : Nat
  stop : Nat
deriving DecidableEq, Repr

namespace Span

/-- The span from `start` to `stop`, if that range of the source is good. -/
def new? (source : String) (start stop : Nat) : Option Span :=
  if start ≤ stop && isBoundary source.toList start && isBoundary source.toList stop then
    some ⟨source, start, stop⟩
  else none

/-- The empty span right after the last byte of the source. -/
def endOf (source : String) : Span := ⟨source, source.utf8ByteSize, source.utf8ByteSize⟩

def dummy : Span := ⟨"", 0, 0⟩

/-- From the start of one span to the end of another over the same source. -/
def join? (lhs rhs : Span) : Option Span :=
  if lhs.source = rhs.source then some ⟨lhs.source, lhs.start, rhs.stop⟩ else none

def chars (s : Span) : List Char := takeBytes (s.stop - s.start) (dropBytes s.start s.source.toList)

def text (s : Span) : String := String.ofList s.chars

def isEmpty (s : Span) : Bool := s.start == s.stop

def describe (s : Span) : String :=
  "Span \x7b start: " ++ toString s.start ++ ", end: " ++ toString s.stop ++ ", as_str: "
    ++ quoted s.text ++ " \x7d"

end Span
end TeachLang
