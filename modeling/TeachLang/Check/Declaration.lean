import TeachLang.Check.Statement
import TeachLang.Tree.Declaration

/-! # Checking declarations and programs

A declaration is checked and then put into the tables.  A procedure is in the table before its
parameters and its body are checked, so that it may call itself.
-/

namespace TeachLang

/-- The value of a literal.  An integer has one as far as it can be represented. -/
def LiteralValue.toValue? : LiteralValue → Option Value
  | int n => if n ≤ maxInt then some (.int n) else none
  | string s => some (.string s)
  | bool b => some (.bool b)

def Value.int? : Value → Option Int
  | int n => some n
  | _ => none

def Value.string? : Value → Option String
  | string s => some s
  | _ => none

def Value.bool? : Value → Option Bool
  | bool b => some b
  | _ => none

/-- What the elements of a list literal hold, if every one of them has a value of the variant that
is asked for. -/
def ListLiteral.values? {α : Type} (l : ListLiteral) (variant? : Value → Option α) :
    Option (List α) :=
  l.elements.mapM fun e => e.value.toValue?.bind variant?

/-- The value of a list literal that has been checked, from the type in its slot. -/
def ListLiteral.value? (l : ListLiteral) : Option Value :=
  match l.slot with
  | some .intList => (l.values? Value.int?).map .ints
  | some .stringList => (l.values? Value.string?).map .strings
  | some .boolList => (l.values? Value.bool?).map .bools
  | _ => none

def ConstantValue.check : ConstantValue → Checked ConstantValue Ty
  | simple l =>
    match l.check with
    | (l, result) => (simple l, result)
  | list l =>
    match l.check with
    | (l, result) => (list l, result)

def ConstantValue.value? : ConstantValue → Option Value
  | simple l => l.value.toValue?
  | list l => l.value?

def checkEach {α : Type} (check : Tables → α → Visited α) (t : Tables) : List α → Visited (List α)
  | [] => ([], t, .ok ())
  | a :: as =>
    match check t a with
    | (a, t, .error e) => (a :: as, t, .error e)
    | (a, t, .ok ()) =>
      match checkEach check t as with
      | (as, t, result) => (a :: as, t, result)

def checkOption {α : Type} (check : Tables → α → Visited α) (t : Tables) :
    Option α → Visited (Option α)
  | none => (none, t, .ok ())
  | some a =>
    match check t a with
    | (a, t, result) => (some a, t, result)

section

variable (ctx : Context) (t : Tables)

/-- Declares a constant; its name is new in the scope, and a list has elements. -/
def ConstantDecl.check (d : ConstantDecl) : Visited ConstantDecl :=
  if (t.scope ctx).contains d.name.text then
    (d, t, .error ⟨.duplicatedConstant d.name.text, d.name⟩)
  else
    match d.value.check with
    | (value, .error e) => ({ d with value }, t, .error e)
    | (value, .ok ty) =>
      if ty = .list then ({ d with value }, t, .error ⟨.emptyListConstant, d.name⟩)
      else
        ({ d with value, slot := some ty },
          t.declare ctx d.name.text (.const ty value.value?), .ok ())

def ConstantList.check (l : ConstantList) : Visited ConstantList :=
  match checkEach (ConstantDecl.check ctx) t l.declarations with
  | (declarations, t, .error e) => ({ l with declarations }, t, .error e)
  | (declarations, t, .ok ()) => ({ l with declarations, slot := some .void }, t, .ok ())

inductive BindingKind where
  | var
  | param
deriving DecidableEq, Repr

def BindingKind.duplicate : BindingKind → String → Violation
  | var, name => .duplicatedVariable name
  | param, name => .duplicatedParameter name

/-- The row of a name; a parameter stands behind the parameters declared before. -/
def BindingKind.register (kind : BindingKind) (ty : Ty) : Register :=
  match kind with
  | var => .var ty
  | param => .param ty (((t.current? ctx).map Procedure.arity).getD 0)

/-- Declares a name of a binding; it is new in the scope. -/
def Identifier.declare (kind : BindingKind) (ty : Ty) (i : Identifier) : Visited Identifier :=
  if (t.scope ctx).contains i.name then (i, t, .error ⟨kind.duplicate i.name, i.token⟩)
  else
    ({ i with slot := some ty }, t.declare ctx i.name (kind.register ctx t ty), .ok ())

def BindingDecl.check (kind : BindingKind) (d : BindingDecl) : Visited BindingDecl :=
  let ty := d.type.denoted
  let type := d.type.withSlot (some ty)
  match checkEach (fun t => Identifier.declare ctx t kind ty) t d.names with
  | (names, t, .error e) => ({ d with names, type }, t, .error e)
  | (names, t, .ok ()) => (⟨names, type, some ty⟩, t, .ok ())

def VariableList.check (l : VariableList) : Visited VariableList :=
  match checkEach (fun t => BindingDecl.check ctx t .var) t l.declarations with
  | (declarations, t, .error e) => ({ l with declarations }, t, .error e)
  | (declarations, t, .ok ()) => ({ l with declarations, slot := some .void }, t, .ok ())

def ParameterList.check (l : ParameterList) : Visited ParameterList :=
  match checkEach (fun t => BindingDecl.check ctx t .param) t l.declarations with
  | (declarations, t, .error e) => ({ l with declarations }, t, .error e)
  | (declarations, t, .ok ()) => (⟨declarations, some .void⟩, t, .ok ())

def ProcedureDecl.checkInside (d : ProcedureDecl) : Visited ProcedureDecl :=
  match d.parameters.check ctx t with
  | (parameters, t, .error e) => ({ d with parameters }, t, .error e)
  | (parameters, t, .ok ()) =>
    match checkOption (ConstantList.check ctx) t d.constants with
    | (constants, t, .error e) => ({ d with parameters, constants }, t, .error e)
    | (constants, t, .ok ()) =>
      match checkOption (VariableList.check ctx) t d.vars with
      | (vars, t, .error e) => ({ d with parameters, constants, vars }, t, .error e)
      | (vars, t, .ok ()) =>
        match d.body.check ctx t with
        | (body, t, result) => ({ d with parameters, constants, vars, body }, t, result)

def ProcedureDecl.check (d : ProcedureDecl) : Visited ProcedureDecl :=
  match t.procedures.get? d.name.text with
  | some existing =>
    let violation :=
      if existing.builtin then Violation.builtinRedefinition d.name.text
      else .duplicateProcedure d.name.text
    (d, t, .error ⟨violation, d.name⟩)
  | none =>
    let ty := d.returnType.denoted
    let d := { d with returnType := d.returnType.withSlot (some ty) }
    let t := { t with procedures := t.procedures.insert d.name.text (.user ty) }
    match d.checkInside (ctx.withProcedure d.name.text) t with
    | (d, t, .error e) => (d, t, .error e)
    | (d, t, .ok ()) => ({ d with slot := some ty }, t, .ok ())

def ProcedureList.check (l : ProcedureList) : Visited ProcedureList :=
  match checkEach (ProcedureDecl.check ctx) t l.procedures with
  | (procedures, t, .error e) => ({ l with procedures }, t, .error e)
  | (procedures, t, .ok ()) => (⟨procedures, some .void⟩, t, .ok ())

end

def Program.check (t : Tables) (p : Program) : Visited Program :=
  match checkOption (ConstantList.check .root) t p.constants with
  | (constants, t, .error e) => ({ p with constants }, t, .error e)
  | (constants, t, .ok ()) =>
    match checkOption (VariableList.check .root) t p.vars with
    | (vars, t, .error e) => ({ p with constants, vars }, t, .error e)
    | (vars, t, .ok ()) =>
      match p.procedures.check .root t with
      | (procedures, t, .error e) => ({ p with constants, vars, procedures }, t, .error e)
      | (procedures, t, .ok ()) =>
        match p.statements.check .root t with
        | (statements, t, .error e) =>
          ({ p with constants, vars, procedures, statements }, t, .error e)
        | (statements, t, .ok ()) =>
          (⟨p.keyword, constants, vars, procedures, statements, some .void⟩, t, .ok ())

end TeachLang
