import TeachLang.Diagnostic.Styled
import TeachLang.Text.Lines
import TeachLang.Text.Span
import TeachLang.Text.Unicode.Blank
import TeachLang.Text.Unicode.Width

/-! # Snippets

An error shown on its source: a title, where the text comes from, and the numbered lines with a
mark and a label under the place of the error.  Lines that are too wide, or too far indented, are
cut, and three dots stand for what was cut.
-/

namespace TeachLang

structure Snippet where
  title : String
  label : String
  /-- The name of the source. -/
  origin : Option String
  text : List Char
  /-- The number of the first line. -/
  firstLine : Nat
  /-- The bytes of the text to be marked. -/
  start : Nat
  stop : Nat
deriving Repr

namespace Snippet

structure Line where
  number : Nat
  text : List Char
  /-- The byte of the text at which the line starts. -/
  offset : Nat
  ending : LineEnding
deriving Repr

namespace Line

/-- The byte at which the line ends, before its ending. -/
def stop (l : Line) : Nat := l.offset + byteCount l.text

/-- How much of the line a mark may cover behind the text: the ending, or one column. -/
def slack (l : Line) : Nat := max l.ending.size 1

/-- The characters before a byte of the text. -/
def before (l : Line) (offset : Nat) : List Char := takeBytes (offset - l.offset) l.text

/-- The column of a byte of the text; control characters take none. -/
def column (l : Line) (offset : Nat) : Nat :=
  Unicode.columnCount 0 (l.before offset)

/-- How far the line is indented; a tab counts as four spaces. -/
def indentation (l : Line) : Nat :=
  let blanks := l.text.takeWhile Unicode.isBlank
  blanks.length + 3 * blanks.count '\t'

def isBlank (l : Line) : Bool := l.text.all Unicode.isBlank

/-- What is shown for a character: four spaces for a tab, and nothing for the characters that
change the direction of the text or join others. -/
def shown (c : Char) : List Char :=
  if c = '\t' then [' ', ' ', ' ', ' ']
  else if c = '\u200d' ∨ ('\u202a' ≤ c ∧ c ≤ '\u202e') ∨ ('\u2066' ≤ c ∧ c ≤ '\u2069') then []
  else [c]

/-- The text of the line as it is shown. -/
def display (l : Line) : List Char := l.text.flatMap shown

end Line

/-- Numbers lines and finds their places. -/
def place (number offset : Nat) : List (List Char × LineEnding) → List Line
  | [] => []
  | (text, ending) :: rest =>
    ⟨number, text, offset, ending⟩
      :: place (number + 1) (offset + byteCount text + ending.size) rest

def lines (s : Snippet) : List Line := place s.firstLine 0 (splitLines s.text)

def marks (s : Snippet) (l : Line) : Bool := l.offset ≤ s.start && s.stop ≤ l.stop + l.slack

/-- The columns of the mark on its line, one at least. -/
def markColumns (s : Snippet) (l : Line) : Nat × Nat :=
  let start := l.column s.start
  let stop := l.column s.stop
  (start, if start = stop then stop + 1 else stop)

/-- The columns of the lines that are shown. -/
structure Frame where
  /-- The first column shown, and the one behind the last. -/
  left : Nat
  right : Nat
  /-- How many columns there are. -/
  width : Nat
  /-- Whether the right side is where the mark or the label ends, with room for the dots. -/
  tight : Bool
deriving Repr

namespace Frame

def terminal : Nat := 140

/-- The room that is kept for the dots. -/
def room : Nat := 6

/-- An indentation up to this many columns is never cut. -/
def indentLimit : Nat := 20

/-- How many columns of a cut indentation stay. -/
def indentKept : Nat := 16

def unbounded : Nat := 18446744073709551615

/-- The frame for lines that are `longest` bytes long at most, with a mark on columns `start` to
`stop` and a label behind it.  If all of it does not fit, the frame is laid first around
everything but the indentation, then around the mark and its label, and then around the mark. -/
def fit (indentation start stop label longest width : Nat) : Frame :=
  let indentation := indentation - room
  let markLeft := start - room
  let markRight := stop + room
  let labelRight := label + room
  let left := if indentation > indentLimit then indentation - indentKept else 0
  let right := max longest left
  let (left, right) :=
    if right - left ≤ width then (left, right)
    else if labelRight - indentation ≤ width then (indentation, indentation + width)
    else if labelRight - markLeft ≤ width then
      let left := markLeft - (width - (labelRight - markLeft)) / 2
      (left, left + width)
    else if markRight - markLeft ≤ width then
      let left := markLeft - (width - (markRight - markLeft)) / 5 * 2
      (left, left + width)
    else (markLeft, markRight)
  ⟨left, right, width, right == markRight || right == labelRight⟩

/-- Whether something is cut on the right of a line of a given length. -/
def cutsRight (f : Frame) (length : Nat) : Bool :=
  (if f.tight then f.right - room else f.right) < length && f.left + f.width < length

/-- The column behind the last one shown of a line of a given length. -/
def rightOf (f : Frame) (length : Nat) : Nat :=
  if length - f.left ≤ f.width then length else min length f.right

end Frame

def digitCount (n : Nat) : Nat := (toString n).length

def numberWidth (s : Snippet) : Nat :=
  match s.lines.getLast? with
  | some l => digitCount l.number
  | none => 0

def frame (s : Snippet) : Frame :=
  let lines := s.lines
  let indentation := ((lines.filter (!·.isBlank)).map (·.indentation)).foldl min Frame.unbounded
  let longest := (lines.map fun l => byteCount l.text).foldl max 0
  let width := Frame.terminal - (3 + digitCount (s.firstLine + lines.length))
  match lines.find? s.marks with
  | some l =>
    let (start, stop) := s.markColumns l
    Frame.fit indentation start stop (stop + s.label.utf8ByteSize + 1) longest width
  | none => Frame.fit indentation 0 0 0 longest width

/-- The characters of a run that fit into a number of columns. -/
def takeColumns : Nat → List Char → List Char
  | _, [] => []
  | width, c :: cs =>
    let next := Unicode.columns 1 c
    if next ≤ width then c :: takeColumns (width - next) cs else []

def dots : List Char := ['.', '.', '.']

def padLeft (width n : Nat) : List Char :=
  let digits := (toString n).toList
  List.replicate (width - digits.length) ' ' ++ digits

def gutterRow (s : Snippet) : StyledRow := StyledRow.put [] (s.numberWidth + 1) .gutter ['|']

def lineRow (s : Snippet) (f : Frame) (l : Line) : StyledRow :=
  let text := l.display
  let length := byteCount text
  let left := min f.left length
  let code := takeColumns (f.rightOf length - left) (text.drop left)
  let taken := Unicode.columnCount 1 code
  let column := s.numberWidth + 3
  let row := StyledRow.put [] 0 .gutter (padLeft s.numberWidth l.number ++ [' ', '|'])
  let row := row.put column .plain code
  let row := if f.left > 0 then row.put column .gutter dots else row
  if f.cutsRight length then row.put (column + taken - 3) .gutter dots else row

/-- The row under a marked line.  The part of the mark that lies before the row, because the columns
above it are not shown, shrinks into the first column of the row. -/
def markRow (s : Snippet) (f : Frame) (l : Line) : StyledRow :=
  let text := l.display
  let cut := Unicode.columnCount 1 (text.take (min f.left (byteCount text)))
  let column := s.numberWidth + 3
  let (start, stop) := s.markColumns l
  let first := column + start - cut
  let last := column + (stop - 1) - cut
  let row := s.gutterRow.put first .error (List.replicate (last + 1 - first) '^')
  row.put (column + (stop + 1 - cut)) .error s.label.toList

/-- The rows of the lines; the mark stands under the first line that it fits on. -/
def bodyRows (s : Snippet) (f : Frame) : List Line → List StyledRow
  | [] => []
  | l :: ls =>
    if s.marks l then s.lineRow f l :: s.markRow f l :: ls.map (s.lineRow f)
    else s.lineRow f l :: s.bodyRows f ls

/-- The line and the column at which the mark starts. -/
def position (s : Snippet) : Nat × Nat :=
  match s.lines.find? fun l => l.offset ≤ s.start && s.start < l.stop + l.slack with
  | some l => (l.number, (l.before s.start).length + 1)
  | none => (1, 1)

def titleRow (s : Snippet) : StyledRow :=
  .ofString .error "error" ++ .ofString .plain ": " ++ .ofString .emphasis s.title

def originRow (s : Snippet) (origin : String) : StyledRow :=
  let (line, column) := s.position
  let row := StyledRow.put [] s.numberWidth .gutter ['-', '-', '>']
  row.put (s.numberWidth + 4) .plain
    (origin ++ ":" ++ toString line ++ ":" ++ toString column).toList

def rows (s : Snippet) : List StyledRow :=
  [s.titleRow] ++ (s.origin.map s.originRow).toList ++ [s.gutterRow]
    ++ s.bodyRows s.frame s.lines ++ [s.gutterRow]

def render (s : Snippet) (theme : Theme) : String :=
  "\n".intercalate (s.rows.map (StyledRow.render theme))

end Snippet
end TeachLang
