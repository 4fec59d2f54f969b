import TeachLang.Table.Symbols
import TeachLang.Text.Lines

/-! # Procedure tables

What is known of the procedures of a unit, those of the runtime library included.
-/

namespace TeachLang

structure Procedure where
  returnType : Ty
  builtin : Bool
  /-- The parameters and the local names. -/
  symbols : SymbolTable
deriving DecidableEq, Repr

namespace Procedure

def user (returnType : Ty) : Procedure := ⟨returnType, false, .empty⟩

def parameters (p : Procedure) : List (String × Ty) := p.symbols.parameters

def parameterTypes (p : Procedure) : List Ty := p.parameters.map (·.2)

def arity (p : Procedure) : Nat := p.parameters.length

end Procedure

abbrev ProcedureTable := NameMap Procedure

namespace ProcedureTable

def userEntries (table : ProcedureTable) : List (String × Procedure) :=
  table.entries.filter fun (_, p) => !p.builtin

/-- A text with every line moved to the right by four columns. -/
def indent (text : String) : String :=
  String.join ((splitLines text.toList).map fun (line, _) => "    " ++ String.ofList line ++ "\n")

/-- A table as it is printed, without the procedures of the runtime library. -/
def describe (table : ProcedureTable) : String :=
  "Procedure Table\n" ++ SymbolTable.rule
    ++ String.join (table.userEntries.map fun (name, p) =>
      name ++ ": " ++ p.returnType.name ++ "\n" ++ indent p.symbols.describe)
    ++ SymbolTable.rule

end ProcedureTable
end TeachLang
