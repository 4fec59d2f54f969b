import TeachLang.Text.Unicode.Printable

/-! # Quoted text

Text between double quotes.  A quote and a backslash get a backslash in front; tab, return,
newline and the null character are written by name; every other character that cannot be shown
as it is becomes its code point in lower-case hexadecimal digits.
-/

namespace TeachLang
namespace Quoted

def encodeChar (c : Char) : List Char :=
  match c with
  | '"' => ['\\', '"']
  | '\\' => ['\\', '\\']
  | '\t' => ['\\', 't']
  | '\r' => ['\\', 'r']
  | '\n' => ['\\', 'n']
  | '\x00' => ['\\', '0']
  | _ =>
    if Unicode.isPrintable c then [c]
    else ['\\', 'u', '\x7b'] ++ Nat.toDigits 16 c.toNat ++ ['\x7d']

def encode (cs : List Char) : List Char := '"' :: (cs.flatMap encodeChar ++ ['"'])

end Quoted

/-- A text between quotes, with what cannot stand there escaped. -/
def quoted (text : String) : String := String.ofList (Quoted.encode text.toList)

end TeachLang
