import TeachLang.Table.NameMap
import TeachLang.Table.Value

/-! # Symbol tables

What is known of the names of one scope.  A parameter has its position among the parameters; the
rows of a table are in the order of the names.
-/

namespace TeachLang

inductive SymbolKind where
  | const
  | var
  | param
deriving DecidableEq, Repr

def SymbolKind.name : SymbolKind → String
  | const => "CONST"
  | var => "VAR"
  | param => "PARAM"

/-- One row of a symbol table.  Checks give positions to parameters only. -/
@[ext] structure Register where
  ty : Ty
  kind : SymbolKind
  position : Option Nat
  value : Option Value
deriving DecidableEq, Repr

namespace Register

def const (ty : Ty) (value : Option Value) : Register := ⟨ty, .const, none, value⟩

def var (ty : Ty) : Register := ⟨ty, .var, none, Value.default? ty⟩

/-- The row of a parameter with its position among the parameters. -/
def param (ty : Ty) (position : Nat) : Register := ⟨ty, .param, some position, Value.default? ty⟩

section

variable (ty : Ty) (value : Option Value) (position : Nat)

@[simp] theorem kind_const : (const ty value).kind = .const := rfl

@[simp] theorem kind_var : (var ty).kind = .var := rfl

@[simp] theorem kind_param : (param ty position).kind = .param := rfl

@[simp] theorem ty_const : (const ty value).ty = ty := rfl

@[simp] theorem ty_var : (var ty).ty = ty := rfl

@[simp] theorem ty_param : (param ty position).ty = ty := rfl

end

/-- A row as tables show it; only constants show their value. -/
def describe (r : Register) : String :=
  r.ty.name ++ ", " ++ r.kind.name ++ ", "
    ++ (match r.position with
      | some position => toString position
      | none => "-")
    ++ (match r.kind, r.value with
      | .const, some value => ", " ++ value.describe
      | _, _ => "")

end Register

abbrev SymbolTable := NameMap Register

namespace SymbolTable

/-- The rows of the parameters in order of their positions and then of their names.  Rows without a
position come first. -/
def parameterRows (table : SymbolTable) : List (String × Register) :=
  (table.entries.filter fun (_, r) => r.kind = .param).mergeSort fun a b =>
    (compare a.2.position b.2.position).isLE

def parameters (table : SymbolTable) : List (String × Ty) :=
  table.parameterRows.map fun (name, r) => (name, r.ty)

def rule : String := "====================\n"

def describe (table : SymbolTable) : String :=
  "Symbol Table\n" ++ rule
    ++ String.join (table.entries.map fun (name, register) =>
      name ++ ": " ++ register.describe ++ "\n")
    ++ rule

end SymbolTable
end TeachLang
