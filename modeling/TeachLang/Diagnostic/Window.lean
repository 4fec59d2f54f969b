import TeachLang.Text.Span

/-! # Windows

A run of whole lines of a source around a given line, and the place of a byte range of the source
in it, counted in characters.
-/

namespace TeachLang

/-- The offsets behind the newlines of a text that begins at an offset. -/
def newlineStops (offset : Nat) : List Char → List Nat
  | [] => []
  | c :: cs =>
    let next := offset + c.utf8Size
    if c = '\n' then next :: newlineStops next cs else newlineStops next cs

def lineStarts (source : String) : List Nat := 0 :: newlineStops 0 source.toList

structure Window where
  text : List Char
  /-- Where the text starts in the source. -/
  offset : Nat
  /-- The number of the first line, from 1. -/
  firstLine : Nat
deriving Repr

namespace Window

/-- How many lines stand on each side of the line in the middle. -/
def margin : Nat := 2

def firstAround (line : Nat) : Nat := max 1 (line - margin)

/-- The bytes of the lines around a given line, as far as the source has them: from where the first
one starts to the newline in front of the line behind the last one. -/
def rangeAround (source : String) (line : Nat) : Span :=
  let starts := lineStarts source
  let start := starts[firstAround line - 1]?.getD source.utf8ByteSize
  let stop := (starts[line + margin]?.map (· - 1)).getD source.utf8ByteSize
  ⟨source, start, max start stop⟩

/-- The lines around a given line. -/
def around (source : String) (line : Nat) : Window :=
  let range := rangeAround source line
  ⟨range.chars, range.start, firstAround line⟩

/-- How many characters of the text stand before an offset of the source. -/
def charsBefore (w : Window) (offset : Nat) : Nat :=
  let bytes := min (offset - w.offset) (byteCount w.text)
  if isBoundary w.text bytes then (takeBytes bytes w.text).length else w.text.length

/-- The characters of the text that a byte range of the source covers.  An empty range is widened
by a character, to the right if one is left there, so that it can be seen. -/
def highlight (w : Window) (start stop : Nat) : Nat × Nat :=
  let start := w.charsBefore start
  let stop := w.charsBefore stop
  if start < stop then (start, stop)
  else if stop < w.text.length then (start, stop + 1)
  else (start - 1, stop)

end Window
end TeachLang
