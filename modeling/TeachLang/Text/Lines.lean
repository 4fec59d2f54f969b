/-! # Lines

A text as lines.  A line ends with a newline, with a return and a newline, or where the text
ends; a text that ends with a newline has no empty line after it.
-/

namespace TeachLang

inductive LineEnding where
  | none
  | newline
  | returnNewline
deriving DecidableEq, Repr

def LineEnding.size : LineEnding → Nat
  | none => 0
  | newline => 1
  | returnNewline => 2

/-- The lines of a text without the characters that end them, and how each ends. -/
def splitLines : List Char → List (List Char × LineEnding)
  | [] => []
  | '\r' :: '\n' :: cs => ([], .returnNewline) :: splitLines cs
  | '\n' :: cs => ([], .newline) :: splitLines cs
  | c :: cs =>
    match splitLines cs with
    | [] => [([c], .none)]
    | (line, ending) :: rest => (c :: line, ending) :: rest

end TeachLang
