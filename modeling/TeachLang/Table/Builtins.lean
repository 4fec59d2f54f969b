import TeachLang.Table.Procedures

/-! # Builtins

The procedures of the runtime library, which every unit starts with.
-/

namespace TeachLang

structure Builtin where
  name : String
  parameters : List (String × Ty)
  returnType : Ty
deriving DecidableEq, Repr

namespace Builtin

def catalogue : List Builtin :=
  [⟨"WrInt", [("i", .int)], .void⟩,
   ⟨"WrStr", [("s", .string)], .void⟩,
   ⟨"WrBool", [("b", .bool)], .void⟩,
   ⟨"WrLn", [], .void⟩,
   ⟨"RdInt", [], .int⟩,
   ⟨"RdStr", [], .string⟩,
   ⟨"AtStr", [("s", .string), ("i", .int)], .string⟩,
   ⟨"LenStr", [("s", .string)], .int⟩,
   ⟨"CmpStr", [("s1", .string), ("s2", .string)], .int⟩,
   ⟨"CatStr", [("s1", .string), ("s2", .string)], .string⟩,
   ⟨"LenLstInt", [("loi", .intList)], .int⟩,
   ⟨"LenLstStr", [("los", .stringList)], .int⟩,
   ⟨"LenLstBool", [("lob", .boolList)], .int⟩,
   ⟨"NewLstInt", [("size", .int)], .intList⟩,
   ⟨"NewLstStr", [("size", .int)], .stringList⟩,
   ⟨"NewLstBool", [("size", .int)], .boolList⟩,
   ⟨"IntToStr", [("i", .int)], .string⟩,
   ⟨"StrToInt", [("s", .string)], .int⟩]

def toProcedure (b : Builtin) : Procedure where
  returnType := b.returnType
  builtin := true
  symbols := b.parameters.zipIdx.foldl
    (fun table ((name, ty), position) => table.insert name (.param ty position)) .empty

end Builtin

def ProcedureTable.withBuiltins (table : ProcedureTable) : ProcedureTable :=
  Builtin.catalogue.foldl (fun table b => table.insert b.name b.toProcedure) table

end TeachLang
