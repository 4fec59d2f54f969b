import TeachLang.Proofs.History.Preservation

/-! # Growth

From one moment of a session to the next, at most one row is put into the tables, and only
hidden counters of loops are put over a row, which is the same one.  So whatever stands in
the tables at some moment stands there at every later one, across units that stop with an
error.
-/

namespace TeachLang

open TeachLang.Action

/-- What tables become from one moment to the next. -/
inductive Tables.Step (t : Tables) : Tables → Prop
  | same : Step t t
  | declared {ctx : Context} {name : String} {r : Register}
      (fresh : (t.scope ctx).get? name = none) : Step t (t.declare ctx name r)
  | counted {ctx : Context} {item : String}
      (found : (t.scope ctx).get? (counterName item) = some (.var .int)) :
      Step t (t.declare ctx (counterName item) (.var .int))
  | opened {name : String} {ty : Ty} (fresh : t.procedures.get? name = none) :
      Step t { t with procedures := t.procedures.insert name (.user ty) }

/-- A procedure that still has the rows of an earlier one. -/
structure Procedure.Keeps (p p' : Procedure) : Prop where
  returnType : p'.returnType = p.returnType
  builtin : p'.builtin = p.builtin
  symbols : ∀ x r, p.symbols.get? x = some r → p'.symbols.get? x = some r

/-- Later tables that still have every row of earlier ones. -/
structure Tables.Keeps (t t' : Tables) : Prop where
  globals : ∀ x r, t.globals.get? x = some r → t'.globals.get? x = some r
  procedures : ∀ q p, t.procedures.get? q = some p →
    ∃ p', t'.procedures.get? q = some p' ∧ p.Keeps p'

theorem Procedure.Keeps.refl (p : Procedure) : p.Keeps p := ⟨rfl, rfl, fun _ _ h => h⟩

theorem Procedure.Keeps.trans {p q r : Procedure} (h : p.Keeps q) (h' : q.Keeps r) : p.Keeps r where
  returnType := h'.returnType.trans h.returnType
  builtin := h'.builtin.trans h.builtin
  symbols x s hs := h'.symbols x s (h.symbols x s hs)

/-- A row over the same one or over none takes nothing away. -/
theorem NameMap.get?_insert_of_get? {α : Type} {m : NameMap α} {name x : String} {value v : α}
    (hold : ∀ old, m.get? name = some old → old = value) (h : m.get? x = some v) :
    (m.insert name value).get? x = some v := by
  rw [get?_insert]
  split
  next heq => rw [hold v (heq ▸ h)]
  next => exact h

namespace Tables.Keeps

variable {t t' : Tables}

theorem refl (t : Tables) : t.Keeps t := ⟨fun _ _ h => h, fun _ p hp => ⟨p, hp, .refl p⟩⟩

theorem trans {t'' : Tables} (h : t.Keeps t') (h' : t'.Keeps t'') : t.Keeps t'' where
  globals x r hr := h'.globals x r (h.globals x r hr)
  procedures q p hp := by
    obtain ⟨p', hp', hkeeps⟩ := h.procedures q p hp
    obtain ⟨p'', hp'', hkeeps'⟩ := h'.procedures q p' hp'
    exact ⟨p'', hp'', hkeeps.trans hkeeps'⟩

theorem declare {ctx : Context} {name : String} {r : Register}
    (hold : ∀ old, (t.scope ctx).get? name = some old → old = r) :
    t.Keeps (t.declare ctx name r) := by
  unfold Tables.declare
  split
  next q p hq hp =>
    have hfound : t.procedures.get? q = some p := by simpa [current?, hq] using hp
    rw [scope_of_procedure hq hfound] at hold
    refine ⟨fun _ _ h => h, fun q' p' hp' => ?_⟩
    rw [NameMap.get?_insert]
    split
    next heq =>
      obtain rfl : p' = p := Option.some.inj (hp'.symm.trans (heq ▸ hfound))
      exact ⟨_, rfl, rfl, rfl, fun _ _ h => NameMap.get?_insert_of_get? hold h⟩
    next => exact ⟨p', hp', .refl p'⟩
  next hnone =>
    have hscope : t.scope ctx = t.globals := by
      unfold scope
      split
      next p hp =>
        obtain ⟨q, hq, -⟩ := Option.bind_eq_some_iff.1 hp
        exact absurd hp (hnone q p hq)
      next => rfl
    rw [hscope] at hold
    exact ⟨fun _ _ h => NameMap.get?_insert_of_get? hold h, fun _ p hp => ⟨p, hp, .refl p⟩⟩

/-- No step takes anything away. -/
theorem of_step (h : t.Step t') : t.Keeps t' := by
  cases h with
  | same => exact refl t
  | declared fresh => exact declare fun old hget => by simp [fresh] at hget
  | counted found => exact declare fun old hget => Option.some.inj (hget.symm.trans found)
  | opened fresh =>
    refine ⟨fun _ _ h => h, fun q p hp => ⟨p, ?_, .refl p⟩⟩
    exact NameMap.get?_insert_of_get? (fun old hget => by simp [fresh] at hget) hp

end Tables.Keeps

/-- What an action that fits makes of regular tables. -/
theorem Action.Fits.step {declared : List ProcedureDecl} {t : Tables} {a : Action}
    (h : a.Fits declared t) (ht : t.Regular declared) : t.Step (a.perform t).1 := by
  have hleaves := perform_leaves t a
  generalize a.perform t = left at hleaves ⊢
  cases hleaves with
  | test | error => exact .same
  | constant fresh => exact .declared fresh
  | binding fresh => exact .declared fresh
  | counter ctx item =>
    cases hrow : (t.scope ctx).get? (counterName item) with
    | none => exact .declared hrow
    | some r => exact .counted (hrow.trans (congrArg some (ht.counter_row hrow)))
  | procedure fresh => exact .opened fresh

section

variable {units : List Program} {p : Program} {t : Tables}

theorem Program.ready_of_mem (hp : p.Grammatical) (hmem : p ∈ units)
    (ht : t.Regular (units.flatMap (·.procedures.procedures))) :
    Ready (Action.Fits (units.flatMap (·.procedures.procedures))) t p.actions :=
  ready (fun _ hd => List.mem_flatMap.2 ⟨p, hmem, hd⟩) hp ht

theorem Program.regular_trail (hp : p.Grammatical) (hmem : p ∈ units)
    (ht : t.Regular (units.flatMap (·.procedures.procedures))) :
    ∀ t' ∈ trail t p.actions, t'.Regular (units.flatMap (·.procedures.procedures)) :=
  (ready_of_mem hp hmem ht).forall_mem_trail (fun _ _ ht ha => ha.regular ht) ht

/-- Every moment of a session is regular. -/
theorem Tables.regular_history (h : ∀ p ∈ units, p.Grammatical) :
    ∀ t ∈ Tables.initial.history units, t.Regular (units.flatMap (·.procedures.procedures)) :=
  forall_mem_history (fun p hp _ ht => Program.regular_trail (h p hp) hp ht) (regular_initial _)

/-- A session goes on in steps. -/
theorem Tables.isChain_step_history (h : ∀ p ∈ units, p.Grammatical) :
    (Tables.initial.history units).IsChain Step := by
  apply isChain_history ?_ ?_ (regular_initial (units.flatMap (·.procedures.procedures)))
  · exact fun p hp t ht => Program.regular_trail (h p hp) hp ht
  · intro p hp t ht
    have hready := Program.ready_of_mem (h p hp) hp ht
    exact hready.isChain_trail (fun t a ht ha => ⟨ha.regular ht, ha.step ht⟩) ht

end

theorem grammatical_of_parsed {units : List Program}
    (h : ∀ p ∈ units, ∃ source, (parseProgram source).1 = .ok p) : ∀ p ∈ units, p.Grammatical := by
  intro p hp
  obtain ⟨source, hsource⟩ := h p hp
  exact grammatical_of_parseProgram hsource

/-- Whatever stands in the tables of a session stays as it is at all moments of the checks of its
units.  From one moment to the next there is at most one new row; a row is put over another one only
where both are the same hidden counter, as no identifier of a source can be the name of one. -/
theorem tables_only_grow {units : List Program}
    (h : ∀ p ∈ units, ∃ source, (parseProgram source).1 = .ok p) :
    Tables.initial.IsHistory units (Tables.initial.history units) ∧
    (Tables.initial.history units).Pairwise Tables.Keeps ∧
      (Tables.initial.history units).IsChain Tables.Step ∧
        ∀ source, ∀ token ∈ lex source, token.kind = .identifier →
          token.text.toList.head? ≠ some '_' := by
  have hsteps := Tables.isChain_step_history (grammatical_of_parsed h)
  refine ⟨Tables.isHistory_history _ units, ?_, hsteps, fun source token htoken hkind => ?_⟩
  · have : IsTrans Tables Tables.Keeps := ⟨fun _ _ _ => .trans⟩
    exact List.isChain_iff_pairwise.1 (hsteps.imp fun _ _ => .of_step)
  · exact ((spelled_of_mem_lex htoken).writes hkind (by decide)).head?_ne

def stoppedSource : String :=
  "var i : integer; procedure twice(n : integer;) : integer; begin return m; end;
  program i := 1; end;"

/-- Two loops with the same variable, the second of which replaces the counter of the first. -/
def loopingSource : String :=
  "program for i in \x7b1, 2\x7d do i := twice(i); end; for i in \x7b3\x7d do WrInt(i); end; end;"

theorem tables_only_grow_stopped : ∃ p q, (parseProgram stoppedSource).1 = .ok p ∧
    (parseProgram loopingSource).1 = .ok q ∧
      Tables.initial.IsHistory [p, q] (Tables.initial.history [p, q]) ∧
      (Tables.initial.history [p, q]).Pairwise Tables.Keeps ∧
        (Tables.initial.history [p, q]).IsChain Tables.Step := by
  have hstopped : (parseProgram stoppedSource).1.isOk := by decide +kernel
  have hlooping : (parseProgram loopingSource).1.isOk := by decide +kernel
  obtain ⟨p, hp⟩ := exists_of_isOk hstopped
  obtain ⟨q, hq⟩ := exists_of_isOk hlooping
  have hparsed : ∀ unit ∈ [p, q], ∃ source, (parseProgram source).1 = .ok unit := by
    simpa using ⟨⟨_, hp⟩, ⟨_, hq⟩⟩
  obtain ⟨hmoments, hkeeps, hsteps, -⟩ := tables_only_grow hparsed
  exact ⟨p, q, hp, hq, hmoments, hkeeps, hsteps⟩

end TeachLang
