import TeachLang.Proofs.History.Growth

/-! # Defined procedures

Once the parameters of a declaration have been checked, its procedure has all of them, in the order
of the declaration.  The rest of the declaration adds no more, and nothing else changes the row of a
procedure that is there, so this stays when the unit is refused later on and when other units are
checked.
-/

namespace TeachLang

open TeachLang.Action

/-- The tables have the row that the check of a declaration leaves: with everything that the
procedure declares, and with the counters of its loops. -/
def Tables.HasRow (t : Tables) (d : ProcedureDecl) : Prop :=
  (d.rows.map (·.1)).Nodup ∧ ∃ items, t.procedures.get? d.name.text =
    some { d.procedure with symbols := d.procedure.symbols.insertAll (counterRows items) }

/-- Actions that never change the row of a procedure that is there already. -/
def Action.Spare (q : String) (as : List Action) : Prop :=
  ∀ t p, t.procedures.get? q = some p → ∀ t' ∈ trail t as, t'.procedures.get? q = some p

namespace Action.Spare

variable {q : String} {as bs : List Action}

theorem nil (q : String) : Spare q [] := fun _ _ _ _ h => by cases h

theorem run_fst (h : Spare q as) {t : Tables} {p : Procedure} (hp : t.procedures.get? q = some p) :
    (run t as).1.procedures.get? q = some p := by
  rcases List.mem_cons.1 (run_fst_mem t as) with heq | hmem
  · rw [heq, hp]
  · exact h t p hp _ hmem

theorem append (h : Spare q as) (h' : Spare q bs) : Spare q (as ++ bs) := by
  intro t p hp t' ht'
  rcases mem_trail_append ht' with hmem | hmem
  · exact h t p hp t' hmem
  · exact h' _ p (h.run_fst hp) t' hmem

theorem singleton {a : Action}
    (h : ∀ t p, t.procedures.get? q = some p → (a.perform t).1.procedures.get? q = some p) :
    Spare q [a] := by
  intro t p hp t' ht'
  have hnext := h t p hp
  rw [trail] at ht'
  generalize a.perform t = left at hnext ht'
  rcases left with ⟨t₁, e | _⟩
  · obtain rfl := List.mem_singleton.1 ht'
    exact hnext
  · obtain rfl : t' = t₁ := by simpa [trail] using ht'
    exact hnext

theorem of_forall (h : ∀ a ∈ as, Spare q [a]) : Spare q as := by
  induction as with
  | nil => exact nil q
  | cons a as ih =>
    obtain ⟨ha, has⟩ := List.forall_mem_cons.1 h
    exact ha.append (ih has)

end Action.Spare

/-- The procedure that an action declares a name in. -/
def Action.place? : Action → Option String
  | constant ctx _ => ctx.procedure
  | binding ctx _ _ _ => ctx.procedure
  | counter ctx _ => ctx.procedure
  | test _ | procedure _ => none

section

variable {q : String}

/-- An action elsewhere leaves a procedure as it is, and so does the declaration of one. -/
theorem Action.spare_of_place? {a : Action} (h : a.place? ≠ some q) : Spare q [a] := by
  refine .singleton fun t p hp => ?_
  have hleaves := perform_leaves t a
  generalize a.perform t = left at hleaves ⊢
  cases hleaves with
  | test | error => exact hp
  | constant | binding | counter =>
    unfold place? at h
    rw [Tables.get?_procedures_declare, if_neg h, hp]
  | @procedure d fresh =>
    have hne : q ≠ d.name.text := by
      rintro rfl
      rw [fresh] at hp
      cases hp
    rw [← hp]
    exact NameMap.get?_insert_of_ne _ hne _

theorem Action.spare_of_local {procedure : Option String} {as : List Action}
    (h : ∀ a ∈ as, a.Local procedure) (hne : procedure ≠ some q) : Spare q as := by
  refine .of_forall fun a ha => spare_of_place? ?_
  cases h a ha with
  | test check => simp [place?]
  | constant place | var place | counter place => simpa [place?, place] using hne

theorem ParameterList.spare_actions (ctx : Context) (hne : ctx.procedure ≠ some q)
    (l : ParameterList) : Spare q (l.actions ctx) := by
  refine .of_forall fun a ha => spare_of_place? ?_
  obtain ⟨b, -, ha⟩ := List.mem_flatMap.1 ha
  obtain ⟨i, -, rfl⟩ := List.mem_map.1 ha
  exact hne

/-- A declaration changes no other procedure; over one of its own name it fails at once. -/
theorem ProcedureDecl.spare_actions {d : ProcedureDecl} (hd : d.Grammatical) :
    Spare q d.actions := by
  set ctx := Context.root.withProcedure d.name.text with hctx
  by_cases hq : d.name.text = q
  · intro t p hp t' ht'
    have hleaves := perform_leaves t (.procedure d)
    rw [actions, trail] at ht'
    generalize Action.perform t (.procedure d) = left at hleaves ht'
    cases hleaves with
    | error => simpa [List.mem_singleton.1 ht'] using hp
    | procedure fresh => simp [hq, hp] at fresh
  · have hne : ctx.procedure ≠ some q := by simpa [hctx, Context.withProcedure] using hq
    have hopened : Spare q [.procedure d] := spare_of_place? (by simp [place?])
    refine hopened.append ((d.parameters.spare_actions ctx hne).append ?_ |>.append ?_)
    · exact spare_of_local (local_localActions ctx hd.constants hd.vars) hne
    · exact spare_of_local (Block.local_actions ctx d.body) hne

theorem ProcedureDecl.spare_all {ds : List ProcedureDecl} (hds : ∀ d ∈ ds, d.Grammatical) :
    Spare q (ds.flatMap actions) := by
  induction ds with
  | nil => exact .nil q
  | cons d ds ih =>
    obtain ⟨hd, hds⟩ := List.forall_mem_cons.1 hds
    exact (spare_actions hd).append (ih hds)

/-- A unit leaves the procedures that stand before it as they are. -/
theorem Program.spare_actions {p : Program} (hp : p.Grammatical) : Spare q p.actions := by
  have hne : Context.root.procedure ≠ some q := by simp [Context.root]
  refine Spare.append (spare_of_local (local_localActions .root hp.constants hp.vars) hne) ?_
  refine (ProcedureDecl.spare_all hp.procedures).append ?_
  exact spare_of_local (Block.local_actions .root p.statements) hne

end

section

variable {t t' : Tables}

theorem Tables.HasRow.of_spare {d : ProcedureDecl} (h : t.HasRow d) {as : List Action}
    (hspare : Spare d.name.text as) : (run t as).1.HasRow d := by
  obtain ⟨hdistinct, items, hrow⟩ := h
  exact ⟨hdistinct, items, hspare.run_fst hrow⟩

/-- A declaration that passes its check leaves the whole row of its procedure. -/
theorem ProcedureDecl.hasRow_of_run {d : ProcedureDecl} (hok : run t d.actions = (t', .ok ())) :
    t'.HasRow d := by
  have hcheck : (d.check .root t).2 = (t', .ok ()) := (performs t d).trans hok
  have hpassed : (d.check .root t).2.2 = .ok () := by rw [hcheck]
  cases hget : t.procedures.get? d.name.text with
  | some p => simp [check, hget] at hpassed
  | none =>
    have htables := check_tables hget hpassed
    have hstart := t.current?_withProcedure d
    rw [check_snd hget, d.checkInside_eq_ok_iff hstart] at hpassed
    have hrow := Tables.current?_declareAll (t.withProcedure d)
      (Context.root.withProcedure d.name.text) (d.rows ++ counterRows d.body.loopItems)
    rw [hcheck] at htables
    rw [← htables, hstart, Option.map_some, SymbolTable.insertAll_append] at hrow
    exact ⟨hpassed.1.2, _, hrow⟩

theorem ProcedureDecl.hasRow_all {ds : List ProcedureDecl} (hds : ∀ d ∈ ds, d.Grammatical)
    (hok : run t (ds.flatMap actions) = (t', .ok ())) : ∀ d ∈ ds, t'.HasRow d := by
  induction ds generalizing t with
  | nil => simp
  | cons d ds ih =>
    obtain ⟨hd, hds⟩ := List.forall_mem_cons.1 hds
    obtain ⟨t₁, hfirst, hrest⟩ := run_append_eq_ok_iff.1 hok
    refine List.forall_mem_cons.2 ⟨?_, ih hds hrest⟩
    change run t₁ (ds.flatMap actions) = _ at hrest
    have hkept := (hasRow_of_run hfirst).of_spare (spare_all hds)
    rwa [hrest] at hkept

/-- A unit that passes its check leaves the whole rows of all of its procedures. -/
theorem Program.hasRow_of_check {p : Program} (hp : p.Grammatical)
    (hok : (p.check t).2.2 = .ok ()) :
    ∀ d ∈ p.procedures.procedures, (p.check t).2.1.HasRow d := by
  intro d hd
  have hrun : run t p.actions = ((p.check t).2.1, .ok ()) := by rw [← p.performs, ← hok]
  obtain ⟨t₁, -, hrest⟩ := run_append_eq_ok_iff.1 hrun
  obtain ⟨t₂, hprocedures, hstatements⟩ := run_append_eq_ok_iff.1 hrest
  have hrow := ProcedureDecl.hasRow_all hp.procedures hprocedures d hd
  have hne : Context.root.procedure ≠ some d.name.text := by simp [Context.root]
  have hkept := hrow.of_spare (spare_of_local (Block.local_actions .root p.statements) hne)
  rwa [hstatements] at hkept

end

/-- The actions of a unit through the parameters of a declaration that stands behind others. -/
def Program.actionsThrough (p : Program) (ds : List ProcedureDecl) (d : ProcedureDecl) :
    List Action :=
  localActions .root p.constants p.vars ++ (ds.flatMap ProcedureDecl.actions ++ d.heading)

theorem Program.actions_eq_actionsThrough {p : Program} {ds ds' : List ProcedureDecl}
    {d : ProcedureDecl} (h : p.procedures.procedures = ds ++ d :: ds') :
    p.actions = p.actionsThrough ds d ++
      (d.interior ++ (ds'.flatMap ProcedureDecl.actions ++ p.statements.actions .root)) := by
  simp [actions, actionsThrough, h, d.actions_eq]

section

variable {t t' : Tables} {d : ProcedureDecl} {declared : List ProcedureDecl}

theorem Tables.Defines.of_spare (h : t.Defines d) {as : List Action}
    (hspare : Spare d.name.text as) : ∀ t' ∈ trail t as, t'.Defines d := by
  obtain ⟨p, hp, hdefined⟩ := h
  exact fun t' ht' => ⟨p, hspare t p hp t' ht', hdefined⟩

/-- What a session has defined stays defined at all of its later moments. -/
theorem Tables.Defines.history (h : t.Defines d) {units : List Program}
    (hunits : ∀ p ∈ units, p.Grammatical) : ∀ t' ∈ t.history units, t'.Defines d :=
  forall_mem_history (M := (·.Defines d))
    (fun p hp _ ht => ht.of_spare (Program.spare_actions (hunits p hp))) h

/-- A procedure keeps its parameters while the rest of its declaration is checked. -/
theorem Tables.Defines.interior (h : t.Defines d) (known : d ∈ declared) (hd : d.Grammatical)
    (ht : t.Regular declared) : ∀ t' ∈ trail t d.interior, t'.Defines d := by
  have hlocal : Ready (fun _ a => a.Local (some d.name.text)) t d.interior :=
    .of_forall (fun a ha _ => ProcedureDecl.local_interior hd a ha) t
  have hkept : ∀ t' ∈ trail t d.interior, t'.Regular declared ∧ t'.Defines d := by
    refine hlocal.forall_mem_trail (fun t a hmoment ha => ?_) ⟨ht, h⟩
    obtain ⟨hregular, hdefines⟩ := hmoment
    exact ⟨(ha.fits (hdefines.hosts known)).regular hregular, ha.defines hregular hdefines⟩
  exact fun t' ht' => (hkept t' ht').2

/-- From the end of its heading on, a procedure of a unit has all of its parameters. -/
theorem Program.defines_of_actionsThrough {p : Program} {ds ds' : List ProcedureDecl}
    {rest : List Action} (hp : p.Grammatical) (known : ∀ d ∈ p.procedures.procedures, d ∈ declared)
    (ht : t.Regular declared) (hprocedures : p.procedures.procedures = ds ++ d :: ds')
    (hrest : p.actions = p.actionsThrough ds d ++ rest)
    (hok : run t (p.actionsThrough ds d) = (t', .ok ())) :
    ∀ t'' ∈ t' :: trail t' rest, t''.Defines d := by
  have hmem : d ∈ p.procedures.procedures := by simp [hprocedures]
  obtain ⟨t₁, -, hbehind⟩ := run_append_eq_ok_iff.1 hok
  obtain ⟨t₂, -, hheading⟩ := run_append_eq_ok_iff.1 hbehind
  have hdefined : t'.Defines d := ProcedureDecl.defines_of_heading hheading
  have hready : Ready (Action.Fits declared) t (p.actionsThrough ds d) :=
    .of_append (hrest ▸ ready known hp ht)
  have hregular := hready.run_fst (fun _ _ ht ha => ha.regular ht) ht
  rw [hok] at hregular
  have hinterior : ∀ t₃ ∈ t' :: trail t' d.interior, t₃.Defines d :=
    List.forall_mem_cons.2
      ⟨hdefined, hdefined.interior (known d hmem) (hp.procedures d hmem) hregular⟩
  -- what stands behind the declaration is elsewhere, or fails at once
  have hlater : Spare d.name.text
      (ds'.flatMap ProcedureDecl.actions ++ p.statements.actions .root) := by
    have hds' : ∀ d' ∈ ds', d'.Grammatical := fun d' hd' =>
      hp.procedures d' (by simp [hprocedures, hd'])
    refine (ProcedureDecl.spare_all hds').append ?_
    exact spare_of_local (Block.local_actions .root p.statements) nofun
  rw [actions_eq_actionsThrough hprocedures, List.append_cancel_left_eq] at hrest
  refine List.forall_mem_cons.2 ⟨hdefined, fun t'' ht'' => ?_⟩
  rw [← hrest] at ht''
  rcases mem_trail_append ht'' with hmem | hmem
  · exact hinterior t'' (List.mem_cons_of_mem _ hmem)
  · exact (hinterior _ (run_fst_mem t' d.interior)).of_spare hlater t'' hmem

/-- What the heading of a declaration in one unit of a session defines stays defined in this unit
and in those behind it. -/
theorem Tables.defines_of_history {before after : List Program} {p : Program}
    {ds ds' : List ProcedureDecl} {rest : List Action}
    (h : ∀ q ∈ before ++ p :: after, q.Grammatical)
    (hprocedures : p.procedures.procedures = ds ++ d :: ds')
    (hrest : p.actions = p.actionsThrough ds d ++ rest)
    (hok : run (initial.afterUnits before) (p.actionsThrough ds d) = (t, .ok ())) :
    (∀ t' ∈ t :: trail t rest, t'.Defines d) ∧
      ∀ t' ∈ (initial.afterUnits (before ++ [p])).history after, t'.Defines d := by
  have hmem : p ∈ before ++ p :: after := by simp
  have hchecks := (isHistory_history initial (before ++ p :: after)).checks before p after rfl
  have hstart := regular_history h _ (hchecks.2.subset List.mem_cons_self)
  have hdefined := p.defines_of_actionsThrough (h p hmem)
    (fun d hd => List.mem_flatMap.2 ⟨p, hmem, hd⟩) hstart hprocedures hrest hok
  have hend : initial.afterUnits (before ++ [p]) = (run t rest).1 := by
    have hunit : (p.check (initial.afterUnits before)).2 = run t rest := by
      rw [p.performs, hrest, run_append, hok]
    simp [afterUnits, ← hunit]
  refine ⟨hdefined, hend ▸ ?_⟩
  have hafter : ∀ q ∈ after, q.Grammatical := fun q hq => h q (by simp [hq])
  exact (hdefined _ (run_fst_mem t rest)).history hafter

end

/-- Whatever units a session goes through, accepted or not, its tables are regular at every moment.
Once the parameters of a declaration have been checked, its procedure is defined from then on, at
the later moments of its unit and at those of other units; so are all procedures of a unit that is
accepted. -/
theorem tables_stay_regular {units : List Program}
    (h : ∀ p ∈ units, ∃ source, (parseProgram source).1 = .ok p) :
    Tables.initial.IsHistory units (Tables.initial.history units) ∧
    (∀ t ∈ Tables.initial.history units,
      t.Regular (units.flatMap (·.procedures.procedures))) ∧
    (∀ before p after ds d ds' rest t, units = before ++ p :: after →
      p.procedures.procedures = ds ++ d :: ds' → p.actions = p.actionsThrough ds d ++ rest →
      run (Tables.initial.afterUnits before) (p.actionsThrough ds d) = (t, .ok ()) →
        (∀ t' ∈ t :: trail t rest, t'.Defines d) ∧
          ∀ t' ∈ (Tables.initial.afterUnits (before ++ [p])).history after, t'.Defines d) ∧
    ∀ before p after, units = before ++ p :: after →
      (p.check (Tables.initial.afterUnits before)).2.2 = .ok () →
        ∀ t ∈ (Tables.initial.afterUnits (before ++ [p])).history after,
          ∀ d ∈ p.procedures.procedures, t.Defines d := by
  have hgrammatical := grammatical_of_parsed h
  refine ⟨Tables.isHistory_history _ units, Tables.regular_history hgrammatical, ?_, ?_⟩
  · rintro before p after ds d ds' rest t rfl hprocedures hrest hok
    exact Tables.defines_of_history hgrammatical hprocedures hrest hok
  · rintro before p after rfl hok t ht d hd
    obtain ⟨ds, ds', hprocedures⟩ := List.append_of_mem hd
    have hactions := p.actions_eq_actionsThrough hprocedures
    have hrun : run (Tables.initial.afterUnits before) p.actions =
        ((p.check (Tables.initial.afterUnits before)).2.1, .ok ()) := by
      rw [← p.performs, ← hok]
    rw [hactions] at hrun
    obtain ⟨t₁, hthrough, -⟩ := run_append_eq_ok_iff.1 hrun
    exact (Tables.defines_of_history hgrammatical hprocedures hactions hthrough).2 t ht

def groupedSource : String :=
  "const Limits := \x7b2, 3\x7d; procedure sum(z : integer; a : integer;) : integer; begin
    for a in Limits do z := z + a; end; return z; end;
  program end;"

/-- A parameter that is declared twice, across groups. -/
def repeatedSource : String :=
  "procedure half(b : integer; c, b : string;); begin end; program end;"

theorem tables_stay_regular_grouped : ∃ p q, (parseProgram groupedSource).1 = .ok p ∧
    (parseProgram repeatedSource).1 = .ok q ∧
      Tables.initial.IsHistory [p, q] (Tables.initial.history [p, q]) ∧
      (∀ t ∈ Tables.initial.history [p, q],
        t.Regular (p.procedures.procedures ++ q.procedures.procedures)) ∧
      ∀ t ∈ (Tables.initial.afterUnits [p]).history [q], ∀ d ∈ p.procedures.procedures,
        t.Defines d := by
  have haccepted : (compile groupedSource).isOk := by decide +kernel
  have hrepeated : (parseProgram repeatedSource).1.isOk := by decide +kernel
  obtain ⟨result, hresult⟩ := exists_of_isOk haccepted
  obtain ⟨p, hp, hcheck⟩ := compile_eq_ok_iff.1 hresult
  obtain ⟨q, hq⟩ := exists_of_isOk hrepeated
  have hparsed : ∀ unit ∈ [p, q], ∃ source, (parseProgram source).1 = .ok unit := by
    simpa using ⟨⟨_, hp⟩, ⟨_, hq⟩⟩
  have hok : (p.check (Tables.initial.afterUnits [])).2.2 = .ok () := by
    rw [show Tables.initial.afterUnits [] = .initial from rfl, hcheck]
  obtain ⟨hmoments, hregular, -, hdefined⟩ := tables_stay_regular hparsed
  refine ⟨p, q, hp, hq, hmoments, ?_, hdefined [] p [q] rfl hok⟩
  simpa using hregular

end TeachLang
