import TeachLang.Text.Unicode.Identifier
import TeachLang.Token.Kind

/-! # Lexemes

The token that a text starts with, where no trivia stands: its kind, the characters after its
first one, and what follows it.  The longest lexeme wins, and a character that starts no token
is one of its own.
-/

namespace TeachLang.Lexeme

/-- Splits what follows an opening quote after the closing one.  Two quotes in a row stand for
one, and the string ends on its line. -/
def closeString? : List Char → Option (List Char × List Char)
  | '"' :: '"' :: rest => (closeString? rest).map fun (body, rest) => ('"' :: '"' :: body, rest)
  | '"' :: rest => some (['"'], rest)
  | '\n' :: _ => none
  | c :: rest => (closeString? rest).map fun (body, rest) => (c :: body, rest)
  | [] => none

/-- The kind of a name: a reserved word or an identifier. -/
def wordKind (word : List Char) : TokenKind :=
  (TokenKind.ofKeyword? (String.ofList word)).getD .identifier

/-- The kind of a character that is a token by itself. -/
def punctuation? : Char → Option TokenKind
  | ';' => some .semicolon
  | ',' => some .comma
  | '(' => some .parenthesisOpen
  | ')' => some .parenthesisClose
  | '\x7b' => some .curlyOpen
  | '\x7d' => some .curlyClose
  | '[' => some .bracketOpen
  | ']' => some .bracketClose
  | '+' => some .plus
  | '-' => some .minus
  | '*' => some .times
  | '=' => some .equal
  | _ => none

/-- The kind of a symbol, and how many characters after the first belong to it. -/
def symbol : Char → List Char → TokenKind × Nat
  | ':', '=' :: _ => (.colonEqual, 1)
  | ':', _ => (.colon, 0)
  | '<', '=' :: _ => (.lessThanEqual, 1)
  | '<', '>' :: _ => (.unequal, 1)
  | '<', _ => (.lessThan, 0)
  | '>', '=' :: _ => (.moreThanEqual, 1)
  | '>', _ => (.moreThan, 0)
  | c, _ => ((punctuation? c).getD .illegalChar, 0)

/-- Reads the token that starts with `c` and goes on in `cs`: its kind, its characters after
the first, and the rest. -/
def read (c : Char) (cs : List Char) : TokenKind × List Char × List Char :=
  if c = '/' then (.illegalChar, [], cs)
  else if c = '"' then
    match closeString? cs with
    | some (body, rest) => (.stringLiteral, body, rest)
    | none => (.illegalChar, [], cs)
  else if Unicode.isXidStart c then
    let body := cs.takeWhile Unicode.isXidContinue
    (wordKind (c :: body), body, cs.dropWhile Unicode.isXidContinue)
  else if c.isDigit then (.intLiteral, cs.takeWhile Char.isDigit, cs.dropWhile Char.isDigit)
  else
    let (kind, count) := symbol c cs
    (kind, cs.take count, cs.drop count)

theorem closeString?_append {cs body rest : List Char} (h : closeString? cs = some (body, rest)) :
    body ++ rest = cs := by
  fun_induction closeString? cs generalizing body rest with
  | case1 cs ih =>
    obtain ⟨⟨b, r⟩, hb, heq⟩ := Option.map_eq_some_iff.1 h
    cases heq
    simp [ih hb]
  | case2 =>
    cases h
    rfl
  | case3 => simp at h
  | case4 c cs _ _ _ ih =>
    obtain ⟨⟨b, r⟩, hb, heq⟩ := Option.map_eq_some_iff.1 h
    cases heq
    simp [ih hb]
  | case5 => simp at h

theorem read_append (c : Char) (cs : List Char) : (read c cs).2.1 ++ (read c cs).2.2 = cs := by
  unfold read
  split
  · rfl
  · split
    · split
      next body rest h => exact closeString?_append h
      next => rfl
    · split
      · exact List.takeWhile_append_dropWhile
      · split
        · exact List.takeWhile_append_dropWhile
        · exact List.take_append_drop _ _

end TeachLang.Lexeme
