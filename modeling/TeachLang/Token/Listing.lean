import TeachLang.Text.Quoted
import TeachLang.Token.Scanner

/-! # Token listing

One line for each token of a source: where it stands, its kind, and its lexeme in quotes.
-/

namespace TeachLang

def Token.listingLine (t : Token) : String :=
  "[" ++ toString t.line ++ ", " ++ toString t.column ++ "] " ++ t.kind.name ++
    (match t.lexeme? with
      | some lexeme => " " ++ quoted lexeme
      | none => "") ++ "\n"

def tokenListing (source : String) : String := String.join ((lex source).map Token.listingLine)

end TeachLang
