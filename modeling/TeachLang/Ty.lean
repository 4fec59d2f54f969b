/-! # Types

The closed set of types of the language, and which values flow into which contexts.
`LIST` is the type of the empty list literal alone: no declaration has it, and it flows
into every concrete list type.
-/

namespace TeachLang

inductive Ty where
  | bool
  | int
  | string
  | void
  | list
  | intList
  | stringList
  | boolList
deriving DecidableEq, Repr

namespace Ty

def all : List Ty := [bool, int, string, void, list, intList, stringList, boolList]

def name : Ty → String
  | bool => "BOOL"
  | int => "INT"
  | string => "STRING"
  | void => "VOID"
  | list => "LIST"
  | intList => "INT_LIST"
  | stringList => "STRING_LIST"
  | boolList => "BOOL_LIST"

instance : ToString Ty := ⟨name⟩

def ofName? (text : String) : Option Ty := all.find? (·.name == text)

def toListType? : Ty → Option Ty
  | int => some intList
  | string => some stringList
  | bool => some boolList
  | _ => none

def elementType? : Ty → Option Ty
  | intList => some int
  | stringList => some string
  | boolList => some bool
  | _ => none

def isList : Ty → Bool
  | list | intList | stringList | boolList => true
  | _ => false

/-- Whether a value of type `value` may flow into a context of type `context`: the types are
equal, or the value is the empty list and the context is a list. -/
def accepts (context value : Ty) : Bool :=
  context == value || (value == list && context.isList)

theorem elementType?_eq_some_iff (t e : Ty) : t.elementType? = some e ↔ e.toListType? = some t := by
  cases t <;> cases e <;> decide

end Ty
end TeachLang
