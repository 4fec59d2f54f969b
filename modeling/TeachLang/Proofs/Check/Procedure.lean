import TeachLang.Proofs.Check.Rows

/-! # Procedures against the rules

The rows of a procedure are read off the tree, as its bindings are.  While the procedures
are checked one after the other, the tables reflect the global bindings and the signatures
of the procedures so far.
-/

namespace TeachLang

namespace ProcedureDecl

def rows (d : ProcedureDecl) : List (String × Register) :=
  SymbolTable.parameterRegisters 0 d.parameters.parameters ++ localRows d.constants d.vars

def checkDeclared (ctx : Context) (t : Tables) (d : ProcedureDecl) :
    Visited (ParameterList × Option ConstantList × Option VariableList) :=
  checkBoth (ParameterList.check ctx)
    (checkBoth (checkOption (ConstantList.check ctx)) (checkOption (VariableList.check ctx)))
    t (d.parameters, d.constants, d.vars)

/-- The body is checked on top of what a procedure declares. -/
theorem checkInside_snd (ctx : Context) (t : Tables) (d : ProcedureDecl) :
    (d.checkInside ctx t).2 =
      match (d.checkDeclared ctx t).2 with
      | (t, .error e) => (t, .error e)
      | (t, .ok ()) => (d.body.check ctx t).2 := by
  rw [checkInside, checkDeclared, checkBoth]
  rcases d.parameters.check ctx t with ⟨parameters, t₁, e | _⟩
  · rfl
  dsimp only
  rw [checkBoth]
  rcases checkOption (ConstantList.check ctx) t₁ d.constants with ⟨constants, t₂, e | _⟩
  · rfl
  dsimp only
  rcases checkOption (VariableList.check ctx) t₂ d.vars with ⟨vars, t₃, e | _⟩ <;> rfl

/-- The slot of a procedure itself is none of its parts. -/
theorem checkInside_withSlot (ctx : Context) (t : Tables) (d : ProcedureDecl) (slot : Slot) :
    checkInside ctx t { d with slot } =
      ({ (d.checkInside ctx t).1 with slot }, (d.checkInside ctx t).2) := by
  rw [checkInside, checkInside]
  rcases d.parameters.check ctx t with ⟨parameters, t, e | _⟩
  · rfl
  dsimp only
  rcases checkOption (ConstantList.check ctx) t d.constants with ⟨constants, t, e | _⟩
  · rfl
  dsimp only
  rcases checkOption (VariableList.check ctx) t d.vars with ⟨vars, t, e | _⟩
  · rfl
  · rfl

theorem slot_checkInside (ctx : Context) (t : Tables) (d : ProcedureDecl) :
    (d.checkInside ctx t).1.slot = d.slot :=
  congrArg (fun left => left.1.slot) (checkInside_withSlot ctx t d d.slot)

theorem checkDeclared_eq_ok_iff {ctx : Context} {t : Tables} {ty : Ty} (d : ProcedureDecl)
    (hp : t.current? ctx = some (.user ty)) :
    (d.checkDeclared ctx t).2.2 = .ok () ↔
      (∀ l ∈ d.constants, l.WellTyped) ∧ (d.rows.map (·.1)).Nodup := by
  have h := (ParameterList.declares ctx).both (declaresLocals ctx)
  have hempty : t.scope ctx = .empty := by simp [Tables.scope, hp, Procedure.user]
  rw [checkDeclared, h.ok_iff, SymbolTable.fresh_iff, hempty]
  simp [NameMap.get?_empty, rows, map_fst_rows_param, SymbolTable.map_fst_parameterRegisters]

theorem checkDeclared_tables {ctx : Context} {t : Tables} {ty : Ty} (d : ProcedureDecl)
    (hp : t.current? ctx = some (.user ty)) (hok : (d.checkDeclared ctx t).2.2 = .ok ()) :
    (d.checkDeclared ctx t).2.1 = t.declareAll ctx d.rows := by
  have h := (ParameterList.declares ctx).both (declaresLocals ctx)
  have hscope : t.scope ctx = (Procedure.user ty).symbols := by simp [Tables.scope, hp]
  have hfresh := ((h.ok_iff _ _).1 hok).2
  rw [hscope, SymbolTable.fresh_append] at hfresh
  rw [checkDeclared, h.tables _ _ hok]
  dsimp only
  rw [rows_param ctx d.parameters hp SymbolTable.positioned_empty hfresh.1]
  rw [Procedure.arity_user, rows]

/-- The check inside of a procedure succeeds where its declarations and its body do. -/
theorem checkInside_eq_ok_iff {ctx : Context} {t : Tables} {ty : Ty} (d : ProcedureDecl)
    (hp : t.current? ctx = some (.user ty)) :
    (d.checkInside ctx t).2.2 = .ok () ↔ ((∀ l ∈ d.constants, l.WellTyped) ∧
      (d.rows.map (·.1)).Nodup) ∧ (d.body.check ctx (t.declareAll ctx d.rows)).2.2 = .ok () := by
  rw [← checkDeclared_eq_ok_iff d hp, checkInside_snd]
  have htables := checkDeclared_tables d hp
  generalize d.checkDeclared ctx t = left at htables ⊢
  rcases left with ⟨_, t', e | _⟩
  · simp
  · simp [← htables rfl]

theorem checkInside_tables {ctx : Context} {t : Tables} {ty : Ty} (d : ProcedureDecl)
    (hp : t.current? ctx = some (.user ty)) (hok : (d.checkInside ctx t).2.2 = .ok ()) :
    (d.checkInside ctx t).2.1 = (d.body.check ctx (t.declareAll ctx d.rows)).2.1 := by
  have hdeclared := (checkDeclared_eq_ok_iff d hp).2 ((checkInside_eq_ok_iff d hp).1 hok).1
  rw [checkInside_snd, ← checkDeclared_tables d hp hdeclared]
  generalize d.checkDeclared ctx t = left at hdeclared ⊢
  rcases left with ⟨_, t', e | _⟩
  · cases hdeclared
  · rfl

end ProcedureDecl

namespace ProcedureDecl

theorem map_rowBinding_rows (d : ProcedureDecl) : d.rows.map rowBinding = d.bindings := by
  rw [rows, List.map_append, map_rowBinding_parameterRegisters, map_rowBinding_localRows, bindings]
  congr 1
  rw [ParameterList.parameters, List.map_flatMap, ParameterList.bindings]
  simp only [List.map_map]
  rfl

theorem not_isCounter {d : ProcedureDecl} (hd : d.Grammatical) {row : String × Register}
    (hrow : row ∈ d.rows) : ¬ IsCounter row.1 := by
  have hb : rowBinding row ∈ d.bindings := d.map_rowBinding_rows ▸ List.mem_map_of_mem hrow
  change ¬ IsCounter (rowBinding row).name
  generalize rowBinding row = b at hb
  rcases List.mem_append.1 hb with hb | hb
  · obtain ⟨p, hp, hb⟩ := List.mem_flatMap.1 hb
    obtain ⟨i, hi, rfl⟩ := List.mem_map.1 hb
    exact not_isCounter_of_writes ((hd.parameters p hp).names i hi)
  · exact not_isCounter_locals hd.constants hd.vars hb

def procedure (d : ProcedureDecl) : Procedure :=
  { Procedure.user d.returnType.denoted with symbols := SymbolTable.insertAll .empty d.rows }

/-- The parameters of a procedure are listed as they are declared, across all groups of names. -/
theorem parameters_procedure {d : ProcedureDecl} (h : (d.rows.map (·.1)).Nodup) :
    d.procedure.parameters = d.parameters.parameters := by
  set ty := d.returnType.denoted with hty
  have hfresh : SymbolTable.Fresh (Procedure.user ty).symbols d.rows := by
    rw [SymbolTable.fresh_iff]
    exact ⟨h, fun _ _ => rfl⟩
  rw [rows, SymbolTable.fresh_append, ← Procedure.arity_user ty] at hfresh
  have hlocals := SymbolTable.parameterRows_insertAll_of_not_param
    (fun row hrow => kind_localRows hrow)
    (fun row hrow r hr => by rw [hfresh.2.2 row hrow] at hr; cases hr)
  obtain ⟨-, hparameters⟩ := (Procedure.user ty).parameters_insertAll
    SymbolTable.positioned_empty hfresh.1
  rw [Procedure.parameters_user, List.nil_append] at hparameters
  rw [← hparameters, procedure, rows, SymbolTable.insertAll_append, ← Procedure.arity_user ty]
  exact congrArg (List.map fun row => (row.1, row.2.1)) hlocals

theorem signature_procedure {d : ProcedureDecl} (h : (d.rows.map (·.1)).Nodup) :
    Procedure.signature d.name.text d.procedure = d.signature := by
  rw [Procedure.signature, Procedure.parameterTypes, parameters_procedure h, signature,
    ParameterList.bindings, ParameterList.parameters, List.map_flatMap, List.map_flatMap]
  congr 2
  funext b
  rw [BindingDecl.bindings, List.map_map, List.map_map]
  rfl

end ProcedureDecl

def Tables.withProcedure (t : Tables) (d : ProcedureDecl) : Tables :=
  { t with procedures := t.procedures.insert d.name.text (.user d.returnType.denoted) }

theorem Tables.current?_withProcedure (t : Tables) (d : ProcedureDecl) :
    (t.withProcedure d).current? (Context.root.withProcedure d.name.text) =
      some (.user d.returnType.denoted) := by
  simp [current?, withProcedure, Context.withProcedure, NameMap.get?_insert_self]

def ProcedureDecl.withReturnSlot (d : ProcedureDecl) (slot : Slot) : ProcedureDecl :=
  { d with returnType := d.returnType.withSlot slot }

/-- The check of a procedure whose name is new. -/
theorem ProcedureDecl.check_of_new {ctx : Context} {t : Tables} {d : ProcedureDecl}
    (h : t.procedures.get? d.name.text = none) :
    d.check ctx t =
      match (d.withReturnSlot (some d.returnType.denoted)).checkInside
        (ctx.withProcedure d.name.text) (t.withProcedure d) with
      | (d', t, .error e) => (d', t, .error e)
      | (d', t, .ok ()) => ({ d' with slot := some d.returnType.denoted }, t, .ok ()) := by
  rw [check, h]
  rfl

/-- Tables outside of procedures: the global names and the procedures are found in them as they are
declared, and no hidden counter is among the global names. -/
structure Tables.Reflects (t : Tables) (globals : List Binding) (procedures : List Signature) :
    Prop where
  names : ∀ x, (t.globals.get? x).map (Register.binding x) = globals.find? (·.name = x)
  counters : ∀ x, IsCounter x → t.globals.get? x = none
  procedures : ∀ x,
    (t.procedures.get? x).map (Procedure.signature x) = procedures.find? (·.name = x)

namespace Tables.Reflects

variable {t : Tables} {globals : List Binding} {procedures : List Signature}

theorem agrees (h : t.Reflects globals procedures) :
    t.Agrees .root ⟨[], globals, procedures, none⟩ where
  names x _ := h.names x
  procedures := h.procedures
  result := rfl
  counters x r hx hr := by
    rw [scope_root, h.counters x hx] at hr
    cases hr

theorem of_globals (h : t.Reflects [] procedures) {rows : List (String × Register)}
    (hrows : t.globals.Fresh rows) (hcounters : ∀ row ∈ rows, ¬ IsCounter row.1) :
    (t.declareAll .root rows).Reflects (rows.map rowBinding) procedures := by
  have hget : ∀ x, (t.declareAll .root rows).globals.get? x =
      (rows.lookup x).or (t.globals.get? x) := by
    intro x
    rw [← scope_root, scope_declareAll, SymbolTable.get?_insertAll hrows.1, scope_root]
  have hnone : ∀ x, t.globals.get? x = none := by
    intro x
    have hx := h.names x
    rwa [List.find?_nil, Option.map_eq_none_iff] at hx
  constructor
  · intro x
    rw [hget, hnone, Option.or_none, find?_map_rowBinding]
  · intro x hx
    rw [hget, hnone, Option.or_none, List.lookup_eq_none_iff]
    intro row hrow
    have hne : x ≠ row.1 := fun heq => hcounters row hrow (heq ▸ hx)
    simpa using hne
  · intro x
    rw [get?_procedures_declareAll]
    exact h.procedures x

/-- The place of a procedure's body, behind everything that the procedure declares. -/
theorem agrees_inside (h : t.Reflects globals procedures) {d : ProcedureDecl}
    (hd : d.Grammatical) (hnew : t.procedures.get? d.name.text = none)
    (hdistinct : (d.rows.map (·.1)).Nodup) :
    ((t.withProcedure d).declareAll (Context.root.withProcedure d.name.text) d.rows).Agrees
      (Context.root.withProcedure d.name.text)
      ⟨d.bindings, globals, procedures ++ [d.signature], some d.returnType.denoted⟩ := by
  set ctx := Context.root.withProcedure d.name.text with hctx
  have hstart := t.current?_withProcedure d
  have hcurrent : ((t.withProcedure d).declareAll ctx d.rows).current? ctx = some d.procedure := by
    rw [current?_declareAll, hstart]
    rfl
  have hglobals : ((t.withProcedure d).declareAll ctx d.rows).globals = t.globals :=
    globals_declareAll _ _ _ (by simp [hctx, hstart])
  have hlocals : ∀ x, d.procedure.symbols.get? x = d.rows.lookup x := by
    intro x
    rw [ProcedureDecl.procedure, SymbolTable.get?_insertAll hdistinct, NameMap.get?_empty,
      Option.or_none]
  constructor
  · intro x _
    rw [lookup?, hcurrent, hglobals, Option.bind_some, hlocals, Option.map_or, h.names,
      ← find?_map_rowBinding, d.map_rowBinding_rows]
    rfl
  · intro x
    have hx := h.procedures x
    rw [get?_procedures_declareAll, Scope.procedure?, List.find?_append, ← hx, withProcedure]
    by_cases hname : d.name.text = x
    · subst hname
      have hself : ctx.procedure = some d.name.text := rfl
      rw [if_pos hself, hnew]
      dsimp only
      have hfound : [d.signature].find? (·.name = d.name.text) = some d.signature := by
        simp [ProcedureDecl.signature]
      rw [NameMap.get?_insert_self, hfound, Option.map_none, Option.none_or]
      exact congrArg some (ProcedureDecl.signature_procedure hdistinct)
    · have hother : ctx.procedure ≠ some x := by simpa [hctx, Context.withProcedure] using hname
      rw [if_neg hother]
      dsimp only
      rw [NameMap.get?_insert_of_ne _ (Ne.symm hname)]
      simp [ProcedureDecl.signature, hname]
  · rw [hcurrent]
    rfl
  · intro x r hx hr
    have hscope : ((t.withProcedure d).declareAll ctx d.rows).scope ctx = d.procedure.symbols := by
      simp [scope, hcurrent]
    rw [hscope, hlocals] at hr
    have hmem : (x, r) ∈ d.rows := by
      obtain ⟨before, after, hsplit, -⟩ := List.lookup_eq_some_iff.1 hr
      simp [hsplit]
    exact absurd hx (ProcedureDecl.not_isCounter hd hmem)

end Tables.Reflects

theorem ProcedureDecl.map_fst_rows (d : ProcedureDecl) :
    d.rows.map (·.1) = d.bindings.map (·.name) :=
  map_fst_eq_of_map_rowBinding d.map_rowBinding_rows

section

variable {t : Tables} {globals : List Binding} {procedures : List Signature}

theorem ProcedureDecl.wellFormed_iff {callable : List Signature} {d : ProcedureDecl} :
    d.WellFormed globals callable ↔ ((∀ l ∈ d.constants, l.WellTyped) ∧
      (d.rows.map (·.1)).Nodup) ∧
        d.body.WellTyped ⟨d.bindings, globals, callable, some d.returnType.denoted⟩ false := by
  rw [d.map_fst_rows]
  constructor
  · rintro ⟨hdistinct, hconstants, hbody⟩
    exact ⟨⟨hconstants, hdistinct⟩, hbody⟩
  · rintro ⟨⟨hconstants, hdistinct⟩, hbody⟩
    exact ⟨hdistinct, hconstants, hbody⟩

theorem ProcedureDecl.checkInside_iff_wellFormed (h : t.Reflects globals procedures)
    {d : ProcedureDecl} (hd : d.Grammatical) (hnew : t.procedures.get? d.name.text = none) :
    (d.checkInside (Context.root.withProcedure d.name.text) (t.withProcedure d)).2.2 = .ok () ↔
      d.WellFormed globals (procedures ++ [d.signature]) := by
  rw [d.checkInside_eq_ok_iff (t.current?_withProcedure d), wellFormed_iff]
  refine and_congr_right fun hdeclared => ?_
  exact Block.check_eq_ok_iff (h.agrees_inside hd hnew hdeclared.2) d.body hd.body

theorem ProcedureDecl.check_snd {d : ProcedureDecl} (hnew : t.procedures.get? d.name.text = none) :
    (d.check .root t).2 =
      (d.checkInside (Context.root.withProcedure d.name.text) (t.withProcedure d)).2 := by
  set typed : ProcedureDecl :=
    { d with returnType := d.returnType.withSlot (some d.returnType.denoted) } with htyped
  have hsame : (typed.checkInside (Context.root.withProcedure d.name.text) (t.withProcedure d)).2 =
      (d.checkInside (Context.root.withProcedure d.name.text) (t.withProcedure d)).2 := by
    rw [checkInside_snd, checkInside_snd]
    rfl
  rw [← hsame, check, hnew]
  dsimp only
  unfold Tables.withProcedure
  rcases typed.checkInside _ _ with ⟨_, _, e | _⟩ <;> rfl

/-- What the check of a procedure adds to the tables. -/
theorem ProcedureDecl.check_tables {d : ProcedureDecl} (hnew : t.procedures.get? d.name.text = none)
    (hok : (d.check .root t).2.2 = .ok ()) : (d.check .root t).2.1 =
      (t.withProcedure d).declareAll (Context.root.withProcedure d.name.text)
        (d.rows ++ counterRows d.body.loopItems) := by
  rw [check_snd hnew] at hok ⊢
  have hstart := t.current?_withProcedure d
  have hbody := ((d.checkInside_eq_ok_iff hstart).1 hok).2
  obtain ⟨first, -, htables, hall⟩ := d.body.leavesCounters
    (Context.root.withProcedure d.name.text) ((t.withProcedure d).declareAll _ d.rows)
  rw [d.checkInside_tables hstart hok, htables, hall hbody, Tables.declareAll_append]

theorem ProcedureDecl.check_eq_ok_iff (h : t.Reflects globals procedures) {d : ProcedureDecl}
    (hd : d.Grammatical) : (d.check .root t).2.2 = .ok () ↔
      (∀ s ∈ procedures, s.name ≠ d.name.text) ∧
        d.WellFormed globals (procedures ++ [d.signature]) := by
  have hnew : t.procedures.get? d.name.text = none ↔ ∀ s ∈ procedures, s.name ≠ d.name.text := by
    rw [← Option.map_eq_none_iff, h.procedures d.name.text, List.find?_eq_none]
    simp
  rw [← hnew]
  cases hget : t.procedures.get? d.name.text with
  | some p => simp [check, hget]
  | none => simp [check_snd hget, checkInside_iff_wellFormed h hd hget]

/-- A procedure that has been checked can be called from then on. -/
theorem ProcedureDecl.reflects_check (h : t.Reflects globals procedures) {d : ProcedureDecl}
    (hd : d.Grammatical) (hok : (d.check .root t).2.2 = .ok ()) :
    (d.check .root t).2.1.Reflects globals (procedures ++ [d.signature]) := by
  cases hget : t.procedures.get? d.name.text with
  | some p => simp [check, hget] at hok
  | none =>
    have hstart := t.current?_withProcedure d
    have htables := check_tables hget hok
    rw [check_snd hget, d.checkInside_eq_ok_iff hstart] at hok
    have hafter := (h.agrees_inside hd hget hok.1.2).declareCounters d.body.loopItems
    rw [← Tables.declareAll_append, ← htables] at hafter
    have hglobals : (d.check .root t).2.1.globals = t.globals := by
      rw [htables, Tables.globals_declareAll _ _ _ (by rw [hstart]; rfl)]
      rfl
    exact ⟨hglobals ▸ h.names, hglobals ▸ h.counters, hafter.procedures⟩

/-- Procedures are well formed one after the other, on top of some that can be called. -/
def ProceduresWellFormed (globals : List Binding) (callable : List Signature) :
    List ProcedureDecl → Prop
  | [] => True
  | d :: ds =>
    ((∀ s ∈ callable, s.name ≠ d.name.text) ∧ d.WellFormed globals (callable ++ [d.signature])) ∧
      ProceduresWellFormed globals (callable ++ [d.signature]) ds

theorem checkEach_procedures_cons (d : ProcedureDecl) (ds : List ProcedureDecl) :
    (checkEach (ProcedureDecl.check .root) t (d :: ds)).2 =
      match (d.check .root t).2 with
      | (t, .error e) => (t, .error e)
      | (t, .ok ()) => (checkEach (ProcedureDecl.check .root) t ds).2 := by
  rw [checkEach]
  rcases d.check .root t with ⟨_, _, e | _⟩ <;> rfl

theorem checkEach_procedures_eq_ok_iff (h : t.Reflects globals procedures) {ds : List ProcedureDecl}
    (hds : ∀ d ∈ ds, d.Grammatical) :
    (checkEach (ProcedureDecl.check .root) t ds).2.2 = .ok () ↔
      ProceduresWellFormed globals procedures ds := by
  induction ds generalizing t procedures with
  | nil => exact iff_of_true rfl trivial
  | cons d ds ih =>
    obtain ⟨hd, hds⟩ := List.forall_mem_cons.1 hds
    have hafter := ProcedureDecl.reflects_check h hd
    rw [ProceduresWellFormed, ← ProcedureDecl.check_eq_ok_iff h hd, checkEach_procedures_cons]
    generalize d.check .root t = left at hafter ⊢
    rcases left with ⟨_, t', e | _⟩
    · simp
    · simp [ih (hafter rfl) hds]

theorem reflects_checkEach_procedures (h : t.Reflects globals procedures) {ds : List ProcedureDecl}
    (hds : ∀ d ∈ ds, d.Grammatical)
    (hok : (checkEach (ProcedureDecl.check .root) t ds).2.2 = .ok ()) :
    (checkEach (ProcedureDecl.check .root) t ds).2.1.Reflects globals
      (procedures ++ ds.map (·.signature)) := by
  induction ds generalizing t procedures with
  | nil => simpa [checkEach] using h
  | cons d ds ih =>
    obtain ⟨hd, hds⟩ := List.forall_mem_cons.1 hds
    have hafter := ProcedureDecl.reflects_check h hd
    rw [checkEach_procedures_cons] at hok ⊢
    generalize d.check .root t = left at hafter hok ⊢
    rcases left with ⟨_, t', e | _⟩
    · cases hok
    · simpa using ih (hafter rfl) hds hok

theorem proceduresWellFormed_iff (callable : List Signature) (ds : List ProcedureDecl) :
    ProceduresWellFormed globals callable ds ↔
      (∀ d ∈ ds, ∀ s ∈ callable, s.name ≠ d.name.text) ∧ (ds.map (·.name.text)).Nodup ∧
        ∀ before d after, ds = before ++ d :: after →
          d.WellFormed globals (callable ++ (before ++ [d]).map (·.signature)) := by
  induction ds generalizing callable with
  | nil => simp [ProceduresWellFormed]
  | cons d ds ih =>
    rw [ProceduresWellFormed, ih, List.forall_mem_cons, List.map_cons, List.nodup_cons]
    constructor
    · rintro ⟨⟨hnew, hd⟩, hnames, hdistinct, hall⟩
      refine ⟨⟨hnew, fun e he s hs => hnames e he s (by simp [hs])⟩, ⟨?_, hdistinct⟩, ?_⟩
      · intro hmem
        obtain ⟨e, he, hname⟩ := List.mem_map.1 hmem
        exact hnames e he d.signature (by simp) hname.symm
      · rintro (_ | ⟨c, before⟩) e after hsplit
        · obtain ⟨rfl, rfl⟩ := List.cons.inj hsplit
          exact hd
        · obtain ⟨rfl, hrest⟩ := List.cons.inj hsplit
          simpa using hall before e after hrest
    · rintro ⟨⟨hnew, hnames⟩, ⟨hd, hdistinct⟩, hall⟩
      refine ⟨⟨hnew, hall [] d ds rfl⟩, ?_, hdistinct, fun before e after hsplit => ?_⟩
      · intro e he s hs
        rcases List.mem_append.1 hs with hs | hs
        · exact hnames e he s hs
        · obtain rfl := List.mem_singleton.1 hs
          exact fun hname => hd (List.mem_map.2 ⟨e, he, hname.symm⟩)
      · simpa using hall (d :: before) e after (by rw [hsplit]; rfl)

end

end TeachLang
