import TeachLang.Text.Position
import TeachLang.Text.Span
import TeachLang.Token.Kind

/-! # Tokens

A classified and positioned piece of source text.  The token at the end of input covers nothing
and has no lexeme.
-/

namespace TeachLang

structure Token where
  kind : TokenKind
  /-- The text that the token covers. -/
  text : String
  span : Span
  line : Nat
  column : Nat
deriving DecidableEq, Repr

namespace Token

/-- The covered text, unless the token stands for the end of input. -/
def lexeme? (t : Token) : Option String := if t.kind = .eof then none else some t.text

def lineCol (t : Token) : LineCol := ⟨t.line, t.column⟩

/-- A token as error messages show it; the lexeme is put between quotes as it is. -/
def describe (t : Token) : String :=
  match t.lexeme? with
  | some lexeme => t.kind.name ++ " \"" ++ lexeme ++ "\""
  | none => "end of input"

/-- The token of a given kind that covers `cs` from position `p` on. -/
def covering (source : String) (kind : TokenKind) (p : Position) (cs : List Char) : Token where
  kind := kind
  text := String.ofList cs
  span := ⟨source, p.offset, (p.advanceAll cs).offset⟩
  line := p.line
  column := p.column

end Token
end TeachLang
