import TeachLang.Table.Builtins

/-! # Scopes

The tables that a check works on and where in the program it stands.  Inside a procedure, names
are declared in the procedure's own table and looked up there first.
-/

namespace TeachLang

/-- The global names and the procedures declared so far. -/
structure Tables where
  globals : SymbolTable
  procedures : ProcedureTable
deriving DecidableEq, Repr

structure Context where
  /-- The procedure whose declaration is being checked. -/
  procedure : Option String
  /-- Whether a loop of that procedure, or of the main statements, surrounds the place. -/
  insideLoop : Bool
deriving DecidableEq, Repr

namespace Context

def root : Context := ⟨none, false⟩

def withProcedure (ctx : Context) (name : String) : Context := { ctx with procedure := some name }

def withLoop (ctx : Context) : Context := { ctx with insideLoop := true }

end Context

namespace Tables

/-- No names, and the builtin procedures. -/
def initial : Tables := ⟨.empty, ProcedureTable.withBuiltins .empty⟩

variable (t : Tables) (ctx : Context)

def current? : Option Procedure := ctx.procedure.bind t.procedures.get?

def scope : SymbolTable :=
  match t.current? ctx with
  | some p => p.symbols
  | none => t.globals

/-- The tables with a name declared, over a row of the same name. -/
def declare (name : String) (register : Register) : Tables :=
  match ctx.procedure, t.current? ctx with
  | some procedure, some p =>
    { t with
      procedures :=
        t.procedures.insert procedure { p with symbols := p.symbols.insert name register } }
  | _, _ => { t with globals := t.globals.insert name register }

/-- What a name stands for: a local name, or else a global one. -/
def lookup? (name : String) : Option Register :=
  ((t.current? ctx).bind (·.symbols.get? name)).or (t.globals.get? name)

end Tables
end TeachLang
