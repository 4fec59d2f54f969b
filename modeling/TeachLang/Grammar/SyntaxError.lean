import TeachLang.Token.Basic

/-! # Syntax errors

A syntax error tells which kinds of token would have been accepted and which token stood there
instead.
-/

namespace TeachLang

/-- What could have stood at the point of failure. -/
inductive Expected where
  | one (kind : TokenKind)
  | anyOf (kinds : List TokenKind)
deriving DecidableEq, Repr

namespace Expected

def accepts : Expected → TokenKind → Bool
  | one kind, k => kind == k
  | anyOf kinds, k => kinds.contains k

def describe : Expected → String
  | one kind => kind.name
  | anyOf kinds => "one of " ++ ", ".intercalate (kinds.map TokenKind.name)

end Expected

structure SyntaxError where
  expected : Expected
  found : Token
deriving DecidableEq, Repr

def SyntaxError.message (e : SyntaxError) : String :=
  "expected " ++ e.expected.describe ++ ", found " ++ e.found.describe

end TeachLang
