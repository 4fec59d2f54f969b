import TeachLang.Text.Quoted
import TeachLang.Ty

/-! # Values

The values known before a program runs: those of constants, and those that variables and
parameters start with.
-/

namespace TeachLang

inductive Value where
  | int (value : Int)
  | string (value : String)
  | bool (value : Bool)
  | ints (values : List Int)
  | strings (values : List String)
  | bools (values : List Bool)
deriving DecidableEq, Repr

namespace Value

/-- The value that a fresh variable of a type starts with.  A list starts with one element. -/
def default? : Ty → Option Value
  | .int => some (int 0)
  | .string => some (string "")
  | .bool => some (bool false)
  | .intList => some (ints [0])
  | .stringList => some (strings [""])
  | .boolList => some (bools [false])
  | .void | .list => none

def describeList (items : List String) : String := "\x7b" ++ ", ".intercalate items ++ "\x7d"

def describeBool (b : Bool) : String := if b then "true" else "false"

def describe : Value → String
  | int n => toString n
  | string s => quoted s
  | bool b => describeBool b
  | ints ns => describeList (ns.map toString)
  | strings ss => describeList (ss.map quoted)
  | bools bs => describeList (bs.map describeBool)

end Value
end TeachLang
