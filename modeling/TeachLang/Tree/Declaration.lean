import TeachLang.Tree.Statement

/-! # Declarations and programs

Constants, variables, parameters and procedures, and the program that they belong to.
-/

namespace TeachLang

/-- The types that a name can be given, and that a list can be made of. -/
inductive SimpleType where
  | integer
  | string
  | boolean
deriving DecidableEq, Repr

namespace SimpleType

def ofKind? : TokenKind → Option SimpleType
  | .kwInteger => some integer
  | .kwString => some string
  | .kwBoolean => some boolean
  | _ => none

def toTy : SimpleType → Ty
  | integer => .int
  | string => .string
  | boolean => .bool

def toListTy : SimpleType → Ty
  | integer => .intList
  | string => .stringList
  | boolean => .boolList

end SimpleType

/-- A written type.  A list type is anchored on its element type; a procedure with no written
return type returns nothing. -/
inductive TypeExpr where
  | simple (token : Token) (simple : SimpleType) (slot : Slot)
  | list (keyword : Token) (token : Token) (element : SimpleType) (slot : Slot)
  | void (slot : Slot)
deriving DecidableEq, Repr

namespace TypeExpr

def denoted : TypeExpr → Ty
  | simple _ s _ => s.toTy
  | list _ _ element _ => element.toListTy
  | void _ => .void

def anchor? : TypeExpr → Option Token
  | simple token _ _ => some token
  | list _ token _ _ => some token
  | void _ => none

def slot : TypeExpr → Slot
  | simple _ _ slot => slot
  | list _ _ _ slot => slot
  | void slot => slot

def withSlot (e : TypeExpr) (slot : Slot) : TypeExpr :=
  match e with
  | simple token s _ => simple token s slot
  | list keyword token element _ => list keyword token element slot
  | void _ => void slot

end TypeExpr

inductive ConstantValue where
  | simple (literal : Literal)
  | list (literal : ListLiteral)
deriving DecidableEq, Repr

structure ConstantDecl where
  name : Token
  value : ConstantValue
  slot : Slot
deriving DecidableEq, Repr

structure ConstantList where
  keyword : Token
  declarations : List ConstantDecl
  slot : Slot
deriving DecidableEq, Repr

/-- One or more names of one type, as variables or as parameters. -/
structure BindingDecl where
  names : List Identifier
  type : TypeExpr
  slot : Slot
deriving DecidableEq, Repr

structure VariableList where
  keyword : Token
  declarations : List BindingDecl
  slot : Slot
deriving DecidableEq, Repr

structure ParameterList where
  declarations : List BindingDecl
  slot : Slot
deriving DecidableEq, Repr

structure ProcedureDecl where
  keyword : Token
  name : Token
  parameters : ParameterList
  returnType : TypeExpr
  constants : Option ConstantList
  vars : Option VariableList
  body : Block
  slot : Slot

structure ProcedureList where
  procedures : List ProcedureDecl
  slot : Slot

/-- One compilation unit; the declarations stand before its keyword and the statements after. -/
structure Program where
  keyword : Token
  constants : Option ConstantList
  vars : Option VariableList
  procedures : ProcedureList
  statements : Block
  slot : Slot

end TeachLang
