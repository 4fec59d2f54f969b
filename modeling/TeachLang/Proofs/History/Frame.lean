import TeachLang.Proofs.History.Preservation

/-! # What a check can change

Whatever its outcome, all that a check does at a place is to declare names in the scope of the
place.  So the declaration of a procedure leaves the global names and the other procedures alone,
and what stands outside of procedures leaves all procedures alone.
-/

namespace TeachLang

open TeachLang.Action

/-- The actions that declare names in the scope of a context, if they declare any. -/
inductive Action.At (ctx : Context) : Action → Prop
  | test (check : Tables → Except SemanticError Unit) : At ctx (.test check)
  | constant {place : Context} (h : place.procedure = ctx.procedure) (d : ConstantDecl) :
      At ctx (.constant place d)
  | binding {place : Context} (h : place.procedure = ctx.procedure) (kind : BindingKind) (ty : Ty)
      (i : Identifier) : At ctx (.binding place kind ty i)
  | counter {place : Context} (h : place.procedure = ctx.procedure) (item : String) :
      At ctx (.counter place item)

theorem Action.Local.at {ctx : Context} {a : Action} (h : a.Local ctx.procedure) : a.At ctx := by
  cases h with
  | test check => exact .test check
  | constant place => exact .constant place _
  | var place => exact .binding place _ _ _
  | counter place item => exact .counter place item

section

variable {t : Tables} {ctx : Context}

theorem Tables.declare_congr {place : Context} (h : place.procedure = ctx.procedure) (x : String)
    (r : Register) : t.declare place x r = t.declare ctx x r := by
  unfold declare current?
  rw [h]

/-- An action at a place declares at most one name there. -/
theorem Action.At.perform {a : Action} (h : a.At ctx) (t : Tables) :
    ∃ rows, (a.perform t).1 = t.declareAll ctx rows := by
  have hleaves := perform_leaves t a
  generalize a.perform t = left at hleaves ⊢
  cases hleaves with
  | test | error => exact ⟨[], rfl⟩
  | constant =>
    cases h with
    | constant h => exact ⟨[(_, _)], Tables.declare_congr h _ _⟩
  | binding =>
    cases h with
    | binding h => exact ⟨[(_, _)], Tables.declare_congr h _ _⟩
  | counter =>
    cases h with
    | counter h => exact ⟨[(_, _)], Tables.declare_congr h _ _⟩
  | procedure => cases h

/-- Actions at a place declare names there, whether they come to their end or not. -/
theorem Action.run_at {as : List Action} (h : ∀ a ∈ as, a.At ctx) (t : Tables) :
    ∃ rows, (run t as).1 = t.declareAll ctx rows := by
  induction as generalizing t with
  | nil => exact ⟨[], rfl⟩
  | cons a as ih =>
    obtain ⟨ha, has⟩ := List.forall_mem_cons.1 h
    obtain ⟨rows, hrows⟩ := ha.perform t
    rw [run]
    generalize a.perform t = left at hrows ⊢
    obtain ⟨t', e | _⟩ := left
    · exact ⟨rows, hrows⟩
    · obtain ⟨more, hmore⟩ := ih has t'
      refine ⟨rows ++ more, hmore.trans ?_⟩
      rw [Tables.declareAll_append]
      exact congrArg (Tables.declareAll · ctx more) hrows

/-- A check whose actions stay outside of procedures. -/
theorem Action.Performs.procedures_eq {α : Type} {check : Tables → α → Visited α}
    {actions : α → List Action} (h : Performs check actions) {a : α}
    (hactions : ∀ b ∈ actions a, b.At .root) (t : Tables) :
    (check t a).2.1.procedures = t.procedures := by
  obtain ⟨rows, hrows⟩ := run_at hactions t
  rw [h t a, hrows, Tables.declareAll_root]

theorem ProcedureDecl.at_inside {d : ProcedureDecl} (h : d.Grammatical) (ctx : Context) :
    ∀ a ∈ d.inside ctx, a.At ctx := by
  rw [inside, List.forall_mem_append, List.forall_mem_append]
  refine ⟨⟨?_, fun a ha => (local_localActions ctx h.constants h.vars a ha).at⟩, fun a ha =>
    (Block.local_actions ctx d.body a ha).at⟩
  refine List.forall_mem_flatMap.2 fun b _ => List.forall_mem_map.2 fun i _ => ?_
  exact .binding rfl _ _ _

/-- The declaration of a procedure leaves everything but its own row as it is. -/
theorem ProcedureDecl.Grammatical.frame {d : ProcedureDecl} (h : d.Grammatical) (t : Tables) :
    (d.check .root t).2.1.globals = t.globals ∧
      ∀ q, q ≠ d.name.text → (d.check .root t).2.1.procedures.get? q = t.procedures.get? q := by
  cases hnew : t.procedures.get? d.name.text with
  | some existing =>
    rw [check, hnew]
    exact ⟨rfl, fun _ _ => rfl⟩
  | none =>
    set ctx := Context.root.withProcedure d.name.text with hctx
    obtain ⟨rows, hrows⟩ := run_at (d.at_inside h ctx) (t.withProcedure d)
    rw [check_snd hnew, checkInside_performs, hrows]
    have hcurrent := t.current?_withProcedure d
    constructor
    · rw [Tables.globals_declareAll _ _ _ (Option.isSome_of_eq_some hcurrent)]
      rfl
    · intro q hq
      rw [Tables.get?_procedures_declareAll, if_neg ?_]
      · exact NameMap.get?_insert_of_ne _ hq _
      · exact fun heq => hq (Option.some.inj heq).symm

end

end TeachLang
