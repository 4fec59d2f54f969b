import TeachLang.Proofs.Check.Procedure

/-! # Actions

A check is a run of actions in source order: tests that only read the tables, and
insertions of one row.  The run ends at the first action that fails, and what the
actions before it have inserted stays.
-/

namespace TeachLang

/-- One step of a check. -/
inductive Action where
  | test (check : Tables → Except SemanticError Unit)
  | constant (ctx : Context) (d : ConstantDecl)
  | binding (ctx : Context) (kind : BindingKind) (ty : Ty) (i : Identifier)
  | counter (ctx : Context) (item : String)
  | procedure (d : ProcedureDecl)

namespace Action

/-- The tables after an action, and the violation that it found. -/
def perform (t : Tables) : Action → Tables × Except SemanticError Unit
  | test check => (t, check t)
  | constant ctx d => (d.check ctx t).2
  | binding ctx kind ty i => (i.declare ctx t kind ty).2
  | counter ctx item => (t.declare ctx (counterName item) (.var .int), .ok ())
  | procedure d =>
    match t.procedures.get? d.name.text with
    | some existing =>
      let violation :=
        if existing.builtin then Violation.builtinRedefinition d.name.text
        else .duplicateProcedure d.name.text
      (t, .error ⟨violation, d.name⟩)
    | none => (t.withProcedure d, .ok ())

/-- What an action can do: read the tables, fail, or put a row where there was none.  Only a counter
does not look whether its row is new. -/
inductive Leaves (t : Tables) : Action → Tables × Except SemanticError Unit → Prop
  | test (check : Tables → Except SemanticError Unit) : Leaves t (.test check) (t, check t)
  | error (a : Action) (e : SemanticError) : Leaves t a (t, .error e)
  | constant {ctx : Context} {d : ConstantDecl} {value : ConstantValue} {ty : Ty}
      (fresh : (t.scope ctx).get? d.name.text = none) (found : d.value.check = (value, .ok ty))
      (nonempty : ty ≠ .list) :
      Leaves t (.constant ctx d) (t.declare ctx d.name.text (.const ty value.value?), .ok ())
  | binding {ctx : Context} {kind : BindingKind} {ty : Ty} {i : Identifier}
      (fresh : (t.scope ctx).get? i.name = none) :
      Leaves t (.binding ctx kind ty i) (t.declare ctx i.name (kind.register ctx t ty), .ok ())
  | counter (ctx : Context) (item : String) :
      Leaves t (.counter ctx item) (t.declare ctx (counterName item) (.var .int), .ok ())
  | procedure {d : ProcedureDecl} (fresh : t.procedures.get? d.name.text = none) :
      Leaves t (.procedure d) (t.withProcedure d, .ok ())

theorem perform_leaves (t : Tables) (a : Action) : Leaves t a (a.perform t) := by
  cases a with
  | test check => exact .test check
  | constant ctx d =>
    rw [perform, ConstantDecl.check]
    split
    next => exact .error _ _
    next hnew =>
      rw [Bool.not_eq_true, NameMap.contains_eq_false_iff] at hnew
      rcases hvalue : d.value.check with ⟨value, e | ty⟩
      · exact .error _ e
      · dsimp only
        split
        next => exact .error _ _
        next hne => exact .constant hnew hvalue hne
  | binding ctx kind ty i =>
    rw [perform, Identifier.declare]
    split
    next => exact .error _ _
    next hnew =>
      rw [Bool.not_eq_true, NameMap.contains_eq_false_iff] at hnew
      exact .binding hnew
  | counter ctx item => exact .counter ctx item
  | procedure d =>
    rw [perform.eq_def]
    dsimp only
    split
    next => exact .error _ _
    next hnew => exact .procedure hnew

/-- Actions one after the other, up to the first that fails. -/
def run (t : Tables) : List Action → Tables × Except SemanticError Unit
  | [] => (t, .ok ())
  | a :: as =>
    match a.perform t with
    | (t, .error e) => (t, .error e)
    | (t, .ok ()) => run t as

/-- The tables after each action of a run. -/
def trail (t : Tables) : List Action → List Tables
  | [] => []
  | a :: as =>
    match a.perform t with
    | (t, .error _) => [t]
    | (t, .ok ()) => t :: trail t as

theorem run_cons_of_ok {t t' : Tables} {a : Action} (h : a.perform t = (t', .ok ()))
    (as : List Action) : run t (a :: as) = run t' as := by
  rw [run, h]

theorem run_cons_eq_ok_iff {t t' : Tables} {a : Action} {as : List Action} :
    run t (a :: as) = (t', .ok ()) ↔
      ∃ t₁, a.perform t = (t₁, .ok ()) ∧ run t₁ as = (t', .ok ()) := by
  rw [run]
  rcases a.perform t with ⟨t₁, e | _⟩ <;> simp

theorem run_append (t : Tables) (as bs : List Action) :
    run t (as ++ bs) =
      match run t as with
      | (t, .error e) => (t, .error e)
      | (t, .ok ()) => run t bs := by
  induction as generalizing t with
  | nil => rfl
  | cons a as ih =>
    rw [List.cons_append, run, run]
    rcases a.perform t with ⟨t', e | _⟩
    · rfl
    · exact ih t'

theorem run_append_eq_ok_iff {t t' : Tables} {as bs : List Action} :
    run t (as ++ bs) = (t', .ok ()) ↔
      ∃ t₁, run t as = (t₁, .ok ()) ∧ run t₁ bs = (t', .ok ()) := by
  rw [run_append]
  rcases run t as with ⟨t₁, e | _⟩ <;> simp

/-- Every moment of a run belongs to one of its parts. -/
theorem mem_trail_append {t t' : Tables} {as bs : List Action} (h : t' ∈ trail t (as ++ bs)) :
    t' ∈ trail t as ∨ t' ∈ trail (run t as).1 bs := by
  induction as generalizing t with
  | nil => exact .inr h
  | cons a as ih =>
    rw [List.cons_append, trail] at h
    rw [trail, run]
    generalize a.perform t = left at h ⊢
    rcases left with ⟨t₁, e | _⟩
    · exact .inl h
    · rcases List.mem_cons.1 h with rfl | h
      · exact .inl List.mem_cons_self
      · exact (ih h).imp_left (List.mem_cons_of_mem _)

/-- A run ends where its trail ends. -/
theorem getLast?_trail (t : Tables) (as : List Action) :
    (t :: trail t as).getLast? = some (run t as).1 := by
  induction as generalizing t with
  | nil => rfl
  | cons a as ih =>
    rw [trail, run]
    rcases a.perform t with ⟨t', e | _⟩
    · rfl
    · rw [List.getLast?_cons_cons]
      exact ih t'

theorem run_fst_mem (t : Tables) (as : List Action) : (run t as).1 ∈ t :: trail t as :=
  List.mem_of_getLast? (getLast?_trail t as)

section

variable {M : Tables → Prop} {fits : Tables → Action → Prop}

/-- Every action of a run meets a condition when its turn comes. -/
def Ready (fits : Tables → Action → Prop) (t : Tables) : List Action → Prop
  | [] => True
  | a :: as => fits t a ∧ ∀ t', a.perform t = (t', .ok ()) → Ready fits t' as

theorem Ready.append {t : Tables} {as bs : List Action} (h : Ready fits t as)
    (h' : ∀ t', run t as = (t', .ok ()) → Ready fits t' bs) : Ready fits t (as ++ bs) := by
  induction as generalizing t with
  | nil => exact h' t rfl
  | cons a as ih =>
    refine ⟨h.1, fun t' ht' => ih (h.2 t' ht') fun t'' ht'' => h' t'' ?_⟩
    rw [run_cons_of_ok ht', ht'']

theorem Ready.of_append {t : Tables} {as bs : List Action} (h : Ready fits t (as ++ bs)) :
    Ready fits t as := by
  induction as generalizing t with
  | nil => trivial
  | cons a as ih => exact ⟨h.1, fun t' ht' => ih (h.2 t' ht')⟩

/-- Actions that meet a condition at any time are ready for it. -/
theorem Ready.of_forall {as : List Action} (h : ∀ a ∈ as, ∀ t, fits t a) (t : Tables) :
    Ready fits t as := by
  induction as generalizing t with
  | nil => trivial
  | cons a as ih =>
    obtain ⟨ha, has⟩ := List.forall_mem_cons.1 h
    exact ⟨ha t, fun t' _ => ih has t'⟩

/-- What every action that meets its condition preserves holds all along a run. -/
theorem Ready.forall_mem_trail (hstep : ∀ t a, M t → fits t a → M (a.perform t).1) {t : Tables}
    {as : List Action} (h : Ready fits t as) (ht : M t) : ∀ t' ∈ trail t as, M t' := by
  induction as generalizing t with
  | nil => exact fun _ h => by cases h
  | cons a as ih =>
    have hnext := hstep t a ht h.1
    have hrest := h.2
    rw [trail]
    generalize a.perform t = left at hnext hrest ⊢
    rcases left with ⟨t', e | _⟩
    · simpa using hnext
    · simpa using ⟨hnext, ih (hrest t' rfl) hnext⟩

theorem Ready.run_fst (hstep : ∀ t a, M t → fits t a → M (a.perform t).1) {t : Tables}
    {as : List Action} (h : Ready fits t as) (ht : M t) : M (run t as).1 :=
  List.forall_mem_cons.2 ⟨ht, h.forall_mem_trail hstep ht⟩ _ (run_fst_mem t as)

/-- Consecutive tables of a run are related as an action relates them. -/
theorem Ready.isChain_trail {R : Tables → Tables → Prop}
    (hstep : ∀ t a, M t → fits t a → M (a.perform t).1 ∧ R t (a.perform t).1) {t : Tables}
    {as : List Action} (h : Ready fits t as) (ht : M t) : (t :: trail t as).IsChain R := by
  induction as generalizing t with
  | nil => exact .singleton t
  | cons a as ih =>
    obtain ⟨hnext, hrelated⟩ := hstep t a ht h.1
    have hrest := h.2
    rw [trail]
    generalize a.perform t = left at hnext hrelated hrest ⊢
    rcases left with ⟨t', e | _⟩
    · exact .cons_cons hrelated (.singleton t')
    · exact .cons_cons hrelated (ih (hrest t' rfl) hnext)

end

/-- A check that goes through the actions of its item. -/
def Performs {α : Type} (check : Tables → α → Visited α) (actions : α → List Action) : Prop :=
  ∀ t a, (check t a).2 = run t (actions a)

namespace Performs

variable {α : Type} {check : Tables → α → Visited α} {actions : α → List Action}

theorem each (h : Performs check actions) : Performs (checkEach check) (·.flatMap actions) := by
  intro t as
  induction as generalizing t with
  | nil => rfl
  | cons a as ih =>
    change _ = run t (actions a ++ as.flatMap actions)
    rw [checkEach, run_append, ← h t a]
    rcases check t a with ⟨a', t', e | _⟩
    · rfl
    · exact ih t'

theorem option (h : Performs check actions) :
    Performs (checkOption check) (·.elim [] actions) := by
  rintro t (_ | a)
  · rfl
  · exact h t a

theorem both {β : Type} {other : Tables → β → Visited β} {more : β → List Action}
    (h : Performs check actions) (h' : Performs other more) :
    Performs (checkBoth check other) (fun parts => actions parts.1 ++ more parts.2) := by
  rintro t ⟨a, b⟩
  rw [checkBoth, run_append, ← h t a]
  rcases check t a with ⟨a', t', e | _⟩
  · rfl
  · exact h' t' b

/-- A check that does with its item what another one does with a part of it. -/
theorem of_part {β : Type} {check : β → Tables → α → Visited α} {actions : β → α → List Action}
    (whole : Tables → β → Visited β) (part : β → α) (h : ∀ b, Performs (check b) (actions b))
    (hresult : ∀ t b, (whole t b).2 = (check b t (part b)).2) :
    Performs whole (fun b => actions b (part b)) := fun t b => (hresult t b).trans (h b t (part b))

end Performs
end Action
end TeachLang
