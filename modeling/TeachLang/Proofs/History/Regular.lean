import Mathlib.Data.String.Basic
import TeachLang.Proofs.Check.Values
import TeachLang.Proofs.History.Source

/-! # Regular tables

What all tables that a session reaches have in common: the builtins stand in them as in the
catalogue, rows have values of their types, and parameters are numbered in the order in
which they were declared.  Every action of a parsed program preserves it, also where the
check of the program fails later on.
-/

namespace TeachLang

namespace NameMap

variable {α : Type} {m : NameMap α}

/-- What holds of a new entry and of those before holds of all entries. -/
theorem forall_get?_insert {P : String → α → Prop} (h : ∀ x v, m.get? x = some v → P x v)
    {name : String} {value : α} (hnew : P name value) :
    ∀ x v, (m.insert name value).get? x = some v → P x v := by
  intro x v hv
  rw [get?_insert] at hv
  split at hv
  next heq =>
    cases hv
    exact heq ▸ hnew
  next => exact h x v hv

end NameMap

/-- A row as checks put it under a name. -/
structure Register.Lawful (name : String) (r : Register) : Prop where
  concrete : r.ty.Concrete
  valued : ∃ v, r.value = some v ∧ v.HasType r.ty
  started : r.kind ≠ .const → r.value = Value.default? r.ty
  placed : r.position.isSome ↔ r.kind = .param
  hidden : IsCounter name → r = .var .int

namespace Register

variable {name : String} {ty : Ty}

theorem lawful_var (hty : ty.Concrete) (hname : ¬ IsCounter name) : (var ty).Lawful name :=
  ⟨hty, Value.exists_default? hty, fun _ => rfl, by simp [var], fun h => absurd h hname⟩

theorem lawful_param (hty : ty.Concrete) (hname : ¬ IsCounter name) (position : Nat) :
    (param ty position).Lawful name :=
  ⟨hty, Value.exists_default? hty, fun _ => rfl, by simp [param], fun h => absurd h hname⟩

theorem lawful_counter (item : String) : (var .int).Lawful (counterName item) := by
  have hty : Ty.Concrete .int := by simp [Ty.Concrete]
  exact ⟨hty, Value.exists_default? hty, fun _ => rfl, by simp [var], fun _ => rfl⟩

theorem lawful_const {v v' : ConstantValue} (found : v.check = (v', .ok ty)) (nonempty : ty ≠ .list)
    (hname : ¬ IsCounter name) : (const ty v'.value?).Lawful name := by
  obtain ⟨hty, hvalue⟩ := ConstantValue.exists_value? found nonempty
  exact ⟨hty, hvalue, fun h => absurd rfl h, by simp [const], fun h => absurd h hname⟩

end Register

/-- Where a procedure comes from: the catalogue, or one of the declarations that were checked.  A
declared procedure has all of the declared parameters, in the order of all groups of names.  Only
where the check of the parameters is not through, or stopped, does it have the first of them, and
then no other row. -/
inductive Procedure.Origin (declared : List ProcedureDecl) (name : String) (p : Procedure) : Prop
  | builtin {b : Builtin} (known : b ∈ Builtin.catalogue) (named : b.name = name)
      (row : p = b.toProcedure) (parameters : p.parameters = b.parameters)
  | opened {d : ProcedureDecl} (known : d ∈ declared) (named : d.name.text = name)
      (row : p.builtin = false) (returns : p.returnType = d.returnType.denoted)
      (parameters : p.parameters <+: d.parameters.parameters)
      (only : ∀ x r, p.symbols.get? x = some r → r.kind = .param)
  | user {d : ProcedureDecl} (known : d ∈ declared) (named : d.name.text = name)
      (row : p.builtin = false) (returns : p.returnType = d.returnType.denoted)
      (parameters : p.parameters = d.parameters.parameters)

/-- A procedure as checks leave it. -/
structure Procedure.Regular (declared : List ProcedureDecl) (name : String) (p : Procedure) :
    Prop where
  rows : ∀ x r, p.symbols.get? x = some r → r.Lawful x
  positioned : p.symbols.Positioned
  origin : p.Origin declared name

/-- Tables as checks leave them. -/
structure Tables.Regular (declared : List ProcedureDecl) (t : Tables) : Prop where
  globals : ∀ x r, t.globals.get? x = some r → r.Lawful x ∧ r.kind ≠ .param
  procedures : ∀ q p, t.procedures.get? q = some p → p.Regular declared q
  builtins : ∀ b ∈ Builtin.catalogue, t.procedures.get? b.name = some b.toProcedure

section

variable {declared : List ProcedureDecl}

/-- A row that is no parameter leaves the parameters as they are. -/
theorem Procedure.parameters_insert_of_not_param (p : Procedure) {x : String} {r : Register}
    (hkind : r.kind ≠ .param) (hold : ∀ v, p.symbols.get? x = some v → v.kind ≠ .param) :
    parameters { p with symbols := p.symbols.insert x r } = p.parameters := by
  simp only [parameters, SymbolTable.parameters,
    SymbolTable.parameterRows_insert_of_not_param p.symbols hkind hold]

namespace Procedure.Regular

variable {q : String} {p : Procedure} {x : String}

/-- A procedure with all of its parameters may have other rows as well. -/
theorem insert_of_not_param (h : p.Regular declared q) {d : ProcedureDecl} (hd : d ∈ declared)
    (hname : d.name.text = q) (huser : p.builtin = false)
    (hreturns : p.returnType = d.returnType.denoted)
    (hparameters : p.parameters = d.parameters.parameters) {r : Register} (hr : r.Lawful x)
    (hkind : r.kind ≠ .param) (hold : ∀ v, p.symbols.get? x = some v → v.kind ≠ .param) :
    Procedure.Regular declared q { p with symbols := p.symbols.insert x r } := by
  constructor
  · exact NameMap.forall_get?_insert h.rows hr
  · have hrows := SymbolTable.parameterRows_insert_of_not_param p.symbols hkind hold
    simpa [SymbolTable.Positioned, hrows] using h.positioned
  · have hkept := p.parameters_insert_of_not_param hkind hold
    exact .user hd hname huser hreturns (hkept.trans hparameters)

/-- A new parameter is numbered on, and is the next of those declared. -/
theorem insert_param (h : p.Regular declared q) {ty : Ty} (hty : ty.Concrete)
    (hx : ¬ IsCounter x) (hnew : p.symbols.get? x = none) {d : ProcedureDecl} (hd : d ∈ declared)
    (hname : d.name.text = q) (huser : p.builtin = false)
    (hreturns : p.returnType = d.returnType.denoted)
    (honly : ∀ x r, p.symbols.get? x = some r → r.kind = .param)
    (hnext : p.parameters ++ [(x, ty)] <+: d.parameters.parameters) :
    Procedure.Regular declared q { p with symbols := p.symbols.insert x (.param ty p.arity) } := by
  have hfresh : p.symbols.Fresh (SymbolTable.parameterRegisters p.arity [(x, ty)]) := by
    simp [SymbolTable.fresh_iff, SymbolTable.map_fst_parameterRegisters, hnew]
  obtain ⟨hpositioned, hparameters⟩ := p.parameters_insertAll h.positioned hfresh
  change SymbolTable.Positioned (p.symbols.insert x (.param ty p.arity)) at hpositioned
  change Procedure.parameters { p with symbols := p.symbols.insert x (.param ty p.arity) } = _
    at hparameters
  constructor
  · exact NameMap.forall_get?_insert h.rows (Register.lawful_param hty hx p.arity)
  · exact hpositioned
  · exact .opened hd hname huser hreturns (hparameters ▸ hnext)
      (NameMap.forall_get?_insert honly (by simp))

theorem of_user {d : ProcedureDecl} (hd : d ∈ declared) :
    (user d.returnType.denoted).Regular declared d.name.text where
  rows _ _ h := by cases h
  positioned := SymbolTable.positioned_empty
  origin := .opened hd rfl rfl rfl (by simp [Procedure.parameters_user]) nofun

end Procedure.Regular

namespace Tables.Regular

variable {t : Tables}

/-- The row of a declared procedure is put into the tables; builtins are not touched. -/
theorem insertProcedure (h : t.Regular declared) {q : String} {p : Procedure}
    (hold : ∀ old, t.procedures.get? q = some old → old.builtin = false)
    (hp : p.Regular declared q) :
    Tables.Regular declared { t with procedures := t.procedures.insert q p } where
  globals := h.globals
  procedures := NameMap.forall_get?_insert h.procedures hp
  builtins b hb := by
    have hne : b.name ≠ q := by
      rintro rfl
      have hrow := hold _ (h.builtins b hb)
      simp [Builtin.toProcedure] at hrow
    rw [← h.builtins b hb]
    exact NameMap.get?_insert_of_ne _ hne p

theorem insertGlobal (h : t.Regular declared) {x : String} {r : Register} (hr : r.Lawful x)
    (hkind : r.kind ≠ .param) :
    Tables.Regular declared { t with globals := t.globals.insert x r } where
  globals := NameMap.forall_get?_insert h.globals ⟨hr, hkind⟩
  procedures := h.procedures
  builtins := h.builtins

end Tables.Regular

end

theorem Builtin.find?_catalogue {b : Builtin} (hb : b ∈ Builtin.catalogue) :
    Builtin.catalogue.find? (·.name = b.name) = some b := by
  revert b
  decide

/-- The names and types of the parameters of builtins are like those that programs declare. -/
theorem Builtin.lawful_parameters {b : Builtin} (hb : b ∈ Builtin.catalogue) :
    ∀ p ∈ b.parameters, p.2.Concrete ∧ p.1.toList.head? ≠ some '_' := by
  revert b
  unfold Ty.Concrete
  decide +kernel

theorem Builtin.regular_toProcedure (declared : List ProcedureDecl) {b : Builtin}
    (hb : b ∈ Builtin.catalogue) : b.toProcedure.Regular declared b.name where
  rows x r hr := by
    rw [b.symbols_toProcedure] at hr
    rcases SymbolTable.mem_or_get?_of_insertAll hr with hmem | hget
    · obtain ⟨⟨⟨y, ty⟩, k⟩, hp, hrow⟩ := List.mem_map.1 hmem
      obtain ⟨rfl, rfl⟩ := Prod.mk.inj hrow
      obtain ⟨hty, hy⟩ := lawful_parameters hb _ (List.fst_mem_of_mem_zipIdx hp)
      exact Register.lawful_param hty (fun hcounter => hy (head?_of_isCounter hcounter)) k
    · cases hget
  positioned := (parameters_toProcedure hb).1
  origin := .builtin hb rfl rfl (parameters_toProcedure hb).2

theorem Tables.regular_initial (declared : List ProcedureDecl) : initial.Regular declared where
  globals _ _ h := by cases h
  procedures q p hp := by
    rw [get?_procedures_initial, Option.map_eq_some_iff] at hp
    obtain ⟨b, hfind, rfl⟩ := hp
    obtain rfl : b.name = q := by simpa using List.find?_some hfind
    exact Builtin.regular_toProcedure declared (List.mem_of_find?_eq_some hfind)
  builtins b hb := by rw [get?_procedures_initial, Builtin.find?_catalogue hb, Option.map_some]

end TeachLang
