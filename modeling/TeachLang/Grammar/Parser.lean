import TeachLang.Grammar.SyntaxError
import TeachLang.Token.Scanner

/-! # Parsers

A parser looks at one token of a stream at a time and either moves behind it or leaves it.  An
error leaves the stream where it was found and reports the token in sight there, or the last one
that was read, if nothing can be made of that one.  Parsers work on any stream of tokens; a cursor
scans them from a source only as they are asked for.
-/

namespace TeachLang

/-- A stream of tokens with one token in sight. -/
class TokenStream (σ : Type) where
  /-- The token in sight. -/
  current : σ → Token
  /-- The stream behind the token in sight; the end of input stays in sight. -/
  advance : σ → σ
  /-- More than the number of tokens before the end of input. -/
  bound : σ → Nat

/-- A stream that scans a source on demand, never further than the token in sight. -/
structure Cursor where
  scanner : Scanner
  current : Token
deriving Repr

namespace Cursor

def ofSource (source : String) : Cursor :=
  let (token, scanner) := (Scanner.ofSource source).step
  ⟨scanner, token⟩

def advance (c : Cursor) : Cursor :=
  match c.scanner.next? with
  | some (token, scanner) => ⟨scanner, token⟩
  | none => c

instance : TokenStream Cursor where
  current := current
  advance := advance
  bound c := c.scanner.bound + 1

end Cursor

/-- A parser yields a value or an error, and the stream that it leaves behind. -/
def Parser (σ α : Type) : Type := σ → Except SyntaxError α × σ

namespace Parser

variable {σ α β : Type}

protected def pure (a : α) : Parser σ α := fun s => (.ok a, s)

protected def bind (p : Parser σ α) (f : α → Parser σ β) : Parser σ β := fun s =>
  match p s with
  | (.ok a, s) => f a s
  | (.error e, s) => (.error e, s)

instance : Monad (Parser σ) where
  pure := Parser.pure
  bind := Parser.bind

/-- Fails at a token, wherever the stream is. -/
def failAt (expected : Expected) (token : Token) : Parser σ α := fun s =>
  (.error ⟨expected, token⟩, s)

/-- What the kind of a token stands for; a token of any other kind is an error. -/
def standsFor (meaning? : TokenKind → Option α) (expected : Expected) (token : Token) :
    Parser σ α :=
  match meaning? token.kind with
  | some a => pure a
  | none => failAt expected token

variable [TokenStream σ]

def current : Parser σ Token := fun s => (.ok (TokenStream.current s), s)

def advance : Parser σ Token := fun s => (.ok (TokenStream.current s), TokenStream.advance s)

def fail (expected : Expected) : Parser σ α := fun s =>
  (.error ⟨expected, TokenStream.current s⟩, s)

def has (kind : TokenKind) : Parser σ Bool := do return (← current).kind == kind

def hasAny (kinds : List TokenKind) : Parser σ Bool := do return kinds.contains (← current).kind

/-- Moves behind a token of the given kind. -/
def take? (kind : TokenKind) : Parser σ (Option Token) := do
  if ← has kind then return some (← advance) else return none

def takeAny? (kinds : List TokenKind) : Parser σ (Option Token) := do
  if ← hasAny kinds then return some (← advance) else return none

/-- Moves behind a token of the given kind, which has to be there. -/
def expect (kind : TokenKind) : Parser σ Token := do
  match ← take? kind with
  | some token => return token
  | none => fail (.one kind)

/-- Moves behind a token of one of the given kinds, which has to be there. -/
def expectAny (kinds : List TokenKind) : Parser σ Token := do
  match ← takeAny? kinds with
  | some token => return token
  | none => fail (.anyOf kinds)

/-- Runs a parser if the token in sight can begin what it reads. -/
def opt (first : List TokenKind) (p : Parser σ α) : Parser σ (Option α) := do
  if ← hasAny first then return some (← p) else return none

/-- Runs a parser for as long as the token in sight can begin what it reads, at most `fuel`
times. -/
def many (first : List TokenKind) (p : Parser σ α) : Nat → Parser σ (List α)
  | 0 => return []
  | fuel + 1 => do
    if ← hasAny first then
      let a ← p
      return a :: (← many first p fuel)
    else return []

/-- Runs a parser after each comma, at most `fuel` times. -/
def afterCommas (p : Parser σ α) : Nat → Parser σ (List α)
  | 0 => return []
  | fuel + 1 => do
    match ← take? .comma with
    | some _ =>
      let a ← p
      return a :: (← afterCommas p fuel)
    | none => return []

/-- Runs a parser on each item of a possibly empty list with commas between. -/
def commaSeparated (first : List TokenKind) (p : Parser σ α) (fuel : Nat) :
    Parser σ (List α) := do
  if ← hasAny first then
    let a ← p
    return a :: (← afterCommas p fuel)
  else return []

end Parser

/-- A part of the grammar: what can begin it, and how it is read.  The rule gets as fuel more
than the number of tokens before the end of input, and no loop or nesting can outlast it. -/
structure Production (α : Type) where
  first : List TokenKind
  rule : {σ : Type} → [TokenStream σ] → Nat → Parser σ α

namespace Production

variable {σ α : Type} [TokenStream σ]

def parse (p : Production α) : Parser σ α := fun s => p.rule (TokenStream.bound s) s

def parseOpt (p : Production α) : Parser σ (Option α) := Parser.opt p.first p.parse

def parseWhile (p : Production α) : Parser σ (List α) := fun s =>
  Parser.many p.first p.parse (TokenStream.bound s) s

end Production
end TeachLang
