import TeachLang.Proofs.Check.Procedure

/-! # Programs against the rules

Every program starts with the tables of the builtin procedures, and its check succeeds
exactly where the rules call it well formed.
-/

namespace TeachLang

theorem NameMap.get?_foldl_insert {α β : Type} {name : β → String} {value : β → α}
    {items : List β} (h : (items.map name).Nodup) (m : NameMap α) (x : String) :
    (items.foldl (fun m b => m.insert (name b) (value b)) m).get? x =
      ((items.find? (name · = x)).map value).or (m.get? x) := by
  induction items generalizing m with
  | nil => rfl
  | cons b items ih =>
    rw [List.map_cons, List.nodup_cons] at h
    rw [List.foldl_cons, ih h.2, NameMap.get?_insert, List.find?_cons]
    by_cases hx : name b = x
    · subst hx
      have hnone : items.find? (name · = name b) = none := by
        rw [List.find?_eq_none]
        intro c hc
        simpa using fun hname : name c = name b => h.1 (List.mem_map.2 ⟨c, hc, hname⟩)
      simp [hnone]
    · simp [hx, Ne.symm hx]

theorem Builtin.names_nodup : (Builtin.catalogue.map (·.name)).Nodup := by decide

theorem Builtin.parameter_names_nodup {b : Builtin} (hb : b ∈ Builtin.catalogue) :
    (b.parameters.map (·.1)).Nodup := by
  revert b
  decide

theorem Builtin.symbols_toProcedure (b : Builtin) : b.toProcedure.symbols =
    SymbolTable.insertAll .empty (SymbolTable.parameterRegisters 0 b.parameters) := by
  rw [SymbolTable.insertAll, SymbolTable.parameterRegisters, List.foldl_map]
  rfl

/-- Parameters with different names are numbered and listed as they are given. -/
theorem Builtin.parameters_toProcedure_of_nodup {b : Builtin}
    (h : (b.parameters.map (·.1)).Nodup) :
    b.toProcedure.symbols.Positioned ∧ b.toProcedure.parameters = b.parameters := by
  have hfresh : SymbolTable.Fresh (Procedure.user b.returnType).symbols
      (SymbolTable.parameterRegisters (Procedure.user b.returnType).arity b.parameters) := by
    rw [SymbolTable.fresh_iff, SymbolTable.map_fst_parameterRegisters]
    exact ⟨h, fun _ _ => rfl⟩
  obtain ⟨hpositioned, hparameters⟩ := (Procedure.user b.returnType).parameters_insertAll
    SymbolTable.positioned_empty hfresh
  rw [Procedure.parameters_user, List.nil_append] at hparameters
  rw [Procedure.arity_user] at hpositioned hparameters
  rw [Procedure.parameters, b.symbols_toProcedure]
  exact ⟨hpositioned, hparameters⟩

/-- The parameters of a builtin are numbered and listed as in the catalogue. -/
theorem Builtin.parameters_toProcedure {b : Builtin} (hb : b ∈ Builtin.catalogue) :
    b.toProcedure.symbols.Positioned ∧ b.toProcedure.parameters = b.parameters :=
  parameters_toProcedure_of_nodup (parameter_names_nodup hb)

theorem Builtin.signature_toProcedure {b : Builtin} (hb : b ∈ Builtin.catalogue) :
    Procedure.signature b.name b.toProcedure = b.signature := by
  rw [Procedure.signature, Procedure.parameterTypes, (parameters_toProcedure hb).2]
  rfl

/-- Before anything is checked, the procedures are those of the catalogue. -/
theorem Tables.get?_procedures_initial (x : String) : Tables.initial.procedures.get? x =
    (Builtin.catalogue.find? (·.name = x)).map Builtin.toProcedure := by
  refine (NameMap.get?_foldl_insert Builtin.names_nodup .empty x).trans ?_
  rw [NameMap.get?_empty, Option.or_none]

theorem Tables.reflects_initial : Tables.initial.Reflects [] builtinSignatures where
  names _ := rfl
  counters _ _ := rfl
  procedures x := by
    rw [get?_procedures_initial, builtinSignatures, List.find?_map, Option.map_map]
    change _ = (Builtin.catalogue.find? (·.name = x)).map Builtin.signature
    cases hfind : Builtin.catalogue.find? (·.name = x) with
    | none => rfl
    | some b =>
      obtain rfl : b.name = x := by simpa using List.find?_some hfind
      exact congrArg some (Builtin.signature_toProcedure (List.mem_of_find?_eq_some hfind))

namespace Program

def rows (p : Program) : List (String × Register) := localRows p.constants p.vars

theorem map_rowBinding_rows (p : Program) : p.rows.map rowBinding = p.bindings :=
  map_rowBinding_localRows p.constants p.vars

/-- The procedures and the statements are checked on top of the global names. -/
theorem check_snd (t : Tables) (p : Program) :
    (p.check t).2 =
      match (checkBoth (checkOption (ConstantList.check .root))
        (checkOption (VariableList.check .root)) t (p.constants, p.vars)).2 with
      | (t, .error e) => (t, .error e)
      | (t, .ok ()) =>
        match (checkEach (ProcedureDecl.check .root) t p.procedures.procedures).2 with
        | (t, .error e) => (t, .error e)
        | (t, .ok ()) => (p.statements.check .root t).2 := by
  rw [check, checkBoth]
  rcases checkOption (ConstantList.check .root) t p.constants with ⟨constants, t₁, e | _⟩
  · rfl
  dsimp only
  rcases checkOption (VariableList.check .root) t₁ p.vars with ⟨vars, t₂, e | _⟩
  · rfl
  dsimp only
  rw [ProcedureList.check]
  rcases checkEach (ProcedureDecl.check .root) t₂ p.procedures.procedures with
    ⟨procedures, t₃, e | _⟩
  · rfl
  dsimp only
  rcases p.statements.check .root t₃ with ⟨statements, t₄, e | _⟩ <;> rfl

theorem wellFormed_iff (p : Program) : p.WellFormed ↔
    ((∀ l ∈ p.constants, l.WellTyped) ∧ (p.rows.map (·.1)).Nodup) ∧
      ProceduresWellFormed p.bindings builtinSignatures p.procedures.procedures ∧
        p.statements.WellTyped ⟨[], p.bindings,
          builtinSignatures ++ p.procedures.procedures.map (·.signature), none⟩ false := by
  have hbuiltin : ∀ name : String, (∀ s ∈ builtinSignatures, s.name ≠ name) ↔
      ∀ b ∈ Builtin.catalogue, name ≠ b.name := by
    intro name
    rw [builtinSignatures, List.forall_mem_map]
    exact forall₂_congr fun b _ => ne_comm
  rw [proceduresWellFormed_iff, map_fst_eq_of_map_rowBinding p.map_rowBinding_rows]
  simp only [hbuiltin]
  constructor
  · intro h
    exact ⟨⟨h.constants, h.distinct⟩, ⟨h.no_builtin, h.procedures_distinct, h.procedures⟩,
      h.statements⟩
  · rintro ⟨⟨hconstants, hdistinct⟩, ⟨hbuiltin, hnames, hprocedures⟩, hstatements⟩
    exact ⟨hdistinct, hconstants, hnames, hbuiltin, hprocedures, hstatements⟩

/-- The tables behind the global names of a program reflect them. -/
theorem reflects_locals {p : Program} (hp : p.Grammatical) (hdistinct : (p.rows.map (·.1)).Nodup) :
    (Tables.initial.declareAll .root p.rows).Reflects p.bindings builtinSignatures := by
  have hfresh : SymbolTable.Fresh Tables.initial.globals p.rows := by
    rw [SymbolTable.fresh_iff]
    exact ⟨hdistinct, fun _ _ => rfl⟩
  rw [← p.map_rowBinding_rows]
  refine Tables.reflects_initial.of_globals hfresh fun row hrow => ?_
  exact not_isCounter_locals hp.constants hp.vars (p.map_rowBinding_rows ▸ List.mem_map_of_mem hrow)

/-- The check of a grammatical program succeeds exactly where the program is well formed. -/
theorem check_eq_ok_iff {p : Program} (hp : p.Grammatical) :
    (p.check .initial).2.2 = .ok () ↔ p.WellFormed := by
  have hlocals := declaresLocals .root
  have hok : _ ↔ (∀ l ∈ p.constants, l.WellTyped) ∧ _ :=
    hlocals.ok_iff .initial (p.constants, p.vars)
  have htables := hlocals.tables .initial (p.constants, p.vars)
  have hfresh : SymbolTable.Fresh (Tables.initial.scope .root) p.rows ↔
      (p.rows.map (·.1)).Nodup := by
    rw [SymbolTable.fresh_iff]
    exact and_iff_left fun _ _ => rfl
  change _ ↔ _ ∧ SymbolTable.Fresh _ p.rows at hok
  rw [wellFormed_iff, ← hfresh, ← hok, check_snd]
  generalize checkBoth (checkOption (ConstantList.check .root))
    (checkOption (VariableList.check .root)) _ _ = left at hok htables ⊢
  rcases left with ⟨_, t₁, e | _⟩
  · simp
  obtain rfl : t₁ = Tables.initial.declareAll .root p.rows := htables rfl
  have h₁ := reflects_locals hp (hfresh.1 (hok.1 rfl).2)
  have hprocedures := checkEach_procedures_eq_ok_iff h₁ hp.procedures
  have hreflects := reflects_checkEach_procedures h₁ hp.procedures
  rw [← hprocedures]
  dsimp only
  generalize checkEach (ProcedureDecl.check .root) _ _ = left at hprocedures hreflects ⊢
  rcases left with ⟨_, t₂, e | _⟩
  · simp
  have hstatements := Block.check_eq_ok_iff (hreflects rfl).agrees p.statements hp.statements
  simpa [Context.root] using hstatements

end Program
end TeachLang
