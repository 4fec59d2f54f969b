import TeachLang.Proofs.Check.Declaration

/-! # Rows of declarations

The rows that parameters get are numbered on from those declared before, and the rows of
declarations tell the same of their names as the bindings of the rules.
-/

namespace TeachLang

/-- The names and types of parameters in order. -/
def ParameterList.parameters (l : ParameterList) : List (String × Ty) :=
  l.declarations.flatMap fun d => d.names.map fun i => (i.name, d.type.denoted)

theorem SymbolTable.parameterRegisters_append (n : Nat) (ps qs : List (String × Ty)) :
    parameterRegisters n (ps ++ qs) =
      parameterRegisters n ps ++ parameterRegisters (n + ps.length) qs := by
  rw [parameterRegisters, List.zipIdx_append, List.map_append]
  rfl

theorem Procedure.parameters_user (ty : Ty) : (user ty).parameters = [] := by
  simp [parameters, user, SymbolTable.parameters, SymbolTable.parameterRows_empty]

theorem Procedure.arity_user (ty : Ty) : (user ty).arity = 0 := by
  rw [arity, parameters_user, List.length_nil]

/-- Parameters that are numbered on go on with those of the procedure. -/
theorem Procedure.parameters_insertAll (p : Procedure) {ps : List (String × Ty)}
    (hp : p.symbols.Positioned)
    (hps : p.symbols.Fresh (SymbolTable.parameterRegisters p.arity ps)) :
    (p.symbols.insertAll (SymbolTable.parameterRegisters p.arity ps)).Positioned ∧
      Procedure.parameters
        { p with symbols := p.symbols.insertAll (SymbolTable.parameterRegisters p.arity ps) } =
        p.parameters ++ ps := by
  have harity : p.arity = p.symbols.parameterRows.length := by
    simp [arity, parameters, SymbolTable.parameters]
  rw [harity] at hps ⊢
  exact SymbolTable.parameters_insertAll hp hps

/-- Parameters that items declare on top of numbered parameters are numbered on. -/
theorem rowsEach_numbered {α : Type} {ctx : Context} {rows : Tables → α → List (String × Register)}
    {ps : α → List (String × Ty)}
    (h : ∀ t p a, t.current? ctx = some p → p.symbols.Positioned → p.symbols.Fresh (rows t a) →
      rows t a = SymbolTable.parameterRegisters p.arity (ps a))
    {t : Tables} {p : Procedure} (as : List α) (hp : t.current? ctx = some p)
    (hpositioned : p.symbols.Positioned) (hfresh : p.symbols.Fresh (rowsEach ctx rows t as)) :
    rowsEach ctx rows t as = SymbolTable.parameterRegisters p.arity (as.flatMap ps) := by
  induction as generalizing t p with
  | nil => rfl
  | cons a as ih =>
    rw [rowsEach, SymbolTable.fresh_append] at hfresh
    have ha := h t p a hp hpositioned hfresh.1
    obtain ⟨hnext, hparameters⟩ := p.parameters_insertAll hpositioned (ha ▸ hfresh.1)
    rw [← ha] at hnext hparameters
    have hcurrent := t.current?_declareAll ctx (rows t a)
    rw [hp, Option.map_some] at hcurrent
    have hrest := ih hcurrent hnext hfresh.2
    have harity : Procedure.arity { p with symbols := p.symbols.insertAll (rows t a) } =
        p.arity + (ps a).length := by
      rw [Procedure.arity, hparameters, List.length_append, Procedure.arity]
    rw [rowsEach, hrest, harity, ha, List.flatMap_cons, SymbolTable.parameterRegisters_append]

theorem map_fst_rows_param (ctx : Context) (t : Tables) (l : ParameterList) :
    (rowsEach ctx (BindingDecl.rows ctx .param) t l.declarations).map (·.1) =
      l.parameters.map (·.1) := by
  have hnames : ∀ t (d : BindingDecl),
      (d.rows ctx .param t).map (·.1) = d.names.flatMap fun i => [i.name] :=
    fun t d => map_fst_rowsEach (fun i : Identifier => [i.name]) (fun _ _ => rfl) t d.names
  rw [map_fst_rowsEach _ hnames, ParameterList.parameters, List.map_flatMap]
  simp [Function.comp_def, ← List.map_eq_flatMap]

theorem rows_param (ctx : Context) {t : Tables} {p : Procedure} (l : ParameterList)
    (hp : t.current? ctx = some p) (hpositioned : p.symbols.Positioned)
    (hfresh : p.symbols.Fresh (rowsEach ctx (BindingDecl.rows ctx .param) t l.declarations)) :
    rowsEach ctx (BindingDecl.rows ctx .param) t l.declarations =
      SymbolTable.parameterRegisters p.arity l.parameters := by
  refine rowsEach_numbered (fun t p d hp hpositioned hfresh => ?_) _ hp hpositioned hfresh
  rw [List.map_eq_flatMap]
  refine rowsEach_numbered (fun t p i hp _ _ => ?_) _ hp hpositioned hfresh
  simp [BindingKind.register, hp, SymbolTable.parameterRegisters]

/-- What the row of a name tells of it. -/
def rowBinding (row : String × Register) : Binding := row.2.binding row.1

theorem find?_map_rowBinding (rows : List (String × Register)) (x : String) :
    (rows.map rowBinding).find? (·.name = x) = (rows.lookup x).map (Register.binding x) := by
  induction rows with
  | nil => rfl
  | cons row rows ih =>
    obtain ⟨y, r⟩ := row
    rw [List.map_cons, List.find?_cons, List.lookup_cons]
    by_cases hx : y = x
    · subst hx
      simp [rowBinding, Register.binding]
    · simp [rowBinding, Register.binding, hx, Ne.symm hx, ih, beq_false_of_ne]

theorem map_rowBinding_parameterRegisters (n : Nat) (ps : List (String × Ty)) :
    (SymbolTable.parameterRegisters n ps).map rowBinding = ps.map fun p => ⟨p.1, .param, p.2⟩ := by
  rw [SymbolTable.parameterRegisters, List.map_map]
  conv_rhs => rw [← List.zipIdx_map_fst n ps, List.map_map]
  rfl

theorem map_rowBinding_localRows (constants : Option ConstantList) (vars : Option VariableList) :
    (localRows constants vars).map rowBinding =
      constants.toList.flatMap (·.bindings) ++ vars.toList.flatMap (·.bindings) := by
  have hconstants : ∀ l : ConstantList, l.rows.map rowBinding = l.bindings := by
    intro l
    rw [ConstantList.rows, List.map_map]
    rfl
  have hvars : ∀ l : VariableList, l.rows.map rowBinding = l.bindings := by
    intro l
    rw [VariableList.rows, List.map_flatMap, VariableList.bindings]
    simp only [List.map_map]
    rfl
  cases constants <;> cases vars <;> simp [localRows, hconstants, hvars]

theorem map_fst_eq_of_map_rowBinding {rows : List (String × Register)} {bindings : List Binding}
    (h : rows.map rowBinding = bindings) : rows.map (·.1) = bindings.map (·.name) := by
  rw [← h, List.map_map]
  rfl

theorem kind_localRows {constants : Option ConstantList} {vars : Option VariableList}
    {row : String × Register} (h : row ∈ localRows constants vars) : row.2.kind ≠ .param := by
  rcases List.mem_append.1 h with h | h
  · cases constants with
    | none => cases h
    | some l =>
      obtain ⟨d, -, rfl⟩ := List.mem_map.1 h
      simp [ConstantDecl.row]
  · cases vars with
    | none => cases h
    | some l =>
      obtain ⟨d, -, hrow⟩ := List.mem_flatMap.1 h
      obtain ⟨i, -, rfl⟩ := List.mem_map.1 hrow
      simp

theorem not_isCounter_locals {constants : Option ConstantList} {vars : Option VariableList}
    (hconstants : ∀ l ∈ constants, l.Grammatical) (hvars : ∀ l ∈ vars, l.Grammatical) {b : Binding}
    (hb : b ∈ constants.toList.flatMap (·.bindings) ++ vars.toList.flatMap (·.bindings)) :
    ¬ IsCounter b.name := by
  rcases List.mem_append.1 hb with hb | hb
  · obtain ⟨l, hl, hb⟩ := List.mem_flatMap.1 hb
    obtain ⟨d, hd, rfl⟩ := List.mem_map.1 hb
    exact not_isCounter_of_writes ((hconstants l (by simpa using hl)).declarations d hd).1
  · obtain ⟨l, hl, hb⟩ := List.mem_flatMap.1 hb
    obtain ⟨d, hd, hb⟩ := List.mem_flatMap.1 hb
    obtain ⟨i, hi, rfl⟩ := List.mem_map.1 hb
    exact not_isCounter_of_writes (((hvars l (by simpa using hl)).declarations d hd).names i hi)

end TeachLang
