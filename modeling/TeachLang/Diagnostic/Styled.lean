/-! # Styled text

Rows of characters, each in a style, and the escape sequences that show the styles.
-/

namespace TeachLang

inductive Style where
  | plain
  | error
  | emphasis
  | gutter
deriving DecidableEq, Repr

/-- The sequences that switch a style on and off. -/
abbrev Theme := Style → String × String

namespace Theme

def plain : Theme := fun _ => ("", "")

def escape : String := "\x1b"

def reset : String := escape ++ "[0m"

def bold : String := escape ++ "[1m"

/-- Errors in bright red, line numbers in bright blue, all styles but the plain one in bold. -/
def colored : Theme
  | .plain => ("", "")
  | .error => (bold ++ escape ++ "[91m", reset)
  | .emphasis => (bold, reset)
  | .gutter => (bold ++ escape ++ "[94m", reset)

end Theme

abbrev StyledRow := List (Char × Style)

namespace StyledRow

def ofString (style : Style) (text : String) : StyledRow := text.toList.map (·, style)

/-- Writes characters at a column, over what stands there; a gap is filled with spaces. -/
def put (row : StyledRow) (column : Nat) (style : Style) (cs : List Char) : StyledRow :=
  if cs.isEmpty then row
  else
    row.take column ++ List.replicate (column - row.length) (' ', .plain)
      ++ cs.map (·, style) ++ row.drop (column + cs.length)

/-- The characters of a row that are in the style of `style`, and the rest after them. -/
def renderFrom (theme : Theme) : Style → StyledRow → String
  | style, [] => (theme style).2
  | style, (c, s) :: row =>
    if s = style then c.toString ++ renderFrom theme style row
    else (theme style).2 ++ (theme s).1 ++ c.toString ++ renderFrom theme s row

/-- A row as text; a run of one style is switched on and off once. -/
def render (theme : Theme) (row : StyledRow) : String := renderFrom theme .plain row

end StyledRow
end TeachLang
