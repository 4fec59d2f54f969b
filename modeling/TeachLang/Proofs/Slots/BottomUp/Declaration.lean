import TeachLang.Proofs.Check.Parsed
import TeachLang.Proofs.Grammar.Simulation
import TeachLang.Proofs.Slots.BottomUp.Statement
import TeachLang.Proofs.Slots.BottomUp.Untyped

/-! # Slots of programs from the leaves up

Two written types get their slots before other parts of their declarations do, but no declaration
gets its own before all its parts have theirs.  So a program that has just been parsed is bottom up
after its check, whether it has passed or not.
-/

namespace TeachLang

open Node

/-! The items of a list, and a part that may be missing. -/

section

variable {α : Type} {node : α → Node} {check : Tables → α → Visited α}

theorem checkEach_fills (h : ∀ t a, VisitFills (fun a => [node a]) a (check t a)) (t : Tables)
    (as : List α) : VisitFills (List.map node) as (checkEach check t as) := by
  induction as generalizing t with
  | nil => exact .ok allFilled_nil t
  | cons a as ih =>
    have hhead := h t a
    rw [checkEach]
    generalize check t a = c at hhead ⊢
    cases hhead with
    | error ha t e =>
      apply VisitFills.error
      exact .cons ha (.refl _)
    | ok ha t =>
      have htail := ih t
      dsimp only
      generalize checkEach check t as = c at htail ⊢
      cases htail with
      | error has t e =>
        apply VisitFills.error
        exact .cons (.of_filled ha) has
      | ok has t => exact .ok (by simp_all) t

theorem checkOption_fills (h : ∀ t a, VisitFills (fun a => [node a]) a (check t a)) (t : Tables)
    (o : Option α) : VisitFills (fun o => (o.map node).toList) o (checkOption check t o) := by
  cases o with
  | none => exact .ok allFilled_nil t
  | some a =>
    have ha := h t a
    rw [checkOption]
    generalize check t a = c at ha ⊢
    cases ha with
    | error ha t e =>
      apply VisitFills.error
      exact ha
    | ok ha t =>
      apply VisitFills.ok
      exact ha

end

theorem ConstantValue.check_fills (v : ConstantValue) : Fills (fun v => [v.toNode]) v v.check := by
  cases v with
  | simple l =>
    have hl := l.check_fills
    rw [check]
    generalize l.check = c at hl ⊢
    cases hl with
    | ok h ty =>
      apply Fills.ok
      exact h
    | error h e =>
      apply Fills.error
      exact h
  | list l =>
    have hl := l.check_fills
    rw [check]
    generalize l.check = c at hl ⊢
    cases hl with
    | ok h ty =>
      apply Fills.ok
      exact h
    | error h e =>
      apply Fills.error
      exact h

theorem TypeExpr.filled_withSlot (e : TypeExpr) (ty : Ty) :
    (e.withSlot (some ty)).toNode.Filled := by
  cases e <;> simp [withSlot, toNode, TypeExpr.slot]

section

variable (ctx : Context) (t : Tables)

theorem ConstantDecl.check_fills (d : ConstantDecl) :
    VisitFills (fun d => [d.toNode]) d (d.check ctx t) := by
  have hvalue := d.value.check_fills
  rw [check]
  by_cases hnew : (t.scope ctx).contains d.name.text = true
  · simp only [if_pos hnew]
    exact .error (.refl _) t _
  · simp only [if_neg hnew]
    generalize d.value.check = c at hvalue ⊢
    cases hvalue with
    | error h e =>
      apply VisitFills.error
      exact .node rfl h
    | ok h ty =>
      by_cases hlist : ty = .list
      · simp only [if_pos hlist]
        apply VisitFills.error
        exact .node rfl (.of_filled h)
      · simp only [if_neg hlist]
        apply VisitFills.ok
        simpa [toNode] using h

theorem ConstantList.check_fills (l : ConstantList) :
    VisitFills (fun l => [l.toNode]) l (l.check ctx t) := by
  have hall := checkEach_fills (ConstantDecl.check_fills ctx) t l.declarations
  rw [check]
  generalize checkEach _ t l.declarations = c at hall ⊢
  cases hall with
  | error h t e =>
    apply VisitFills.error
    exact .node rfl h
  | ok h t => exact .ok (by simpa [toNode] using h) t

theorem Identifier.declare_fills (kind : BindingKind) (ty : Ty) (i : Identifier) :
    VisitFills (fun i => [i.toNode]) i (i.declare ctx t kind ty) := by
  rw [declare]
  by_cases hnew : (t.scope ctx).contains i.name = true
  · simp only [if_pos hnew]
    exact .error (.refl _) t _
  · simp only [if_neg hnew]
    exact .ok (by simp [toNode]) _

/-- The written type of a binding has its slot set before the names have theirs. -/
theorem BindingDecl.check_fills (kind : BindingKind) (nodeKind : NodeKind) (d : BindingDecl) :
    VisitFills (fun d => [d.toNode nodeKind]) d (d.check ctx t kind) := by
  have hall := checkEach_fills (fun t => Identifier.declare_fills ctx t kind d.type.denoted) t
    d.names
  have htype : AllFilled [(d.type.withSlot (some d.type.denoted)).toNode] := by
    simpa using d.type.filled_withSlot d.type.denoted
  rw [check]
  generalize checkEach _ t d.names = c at hall ⊢
  cases hall with
  | error h t e =>
    apply VisitFills.error
    exact .node rfl (h.append (.of_filled htype))
  | ok h t => exact .ok (by simp_all [toNode]) t

theorem VariableList.check_fills (l : VariableList) :
    VisitFills (fun l => [l.toNode]) l (l.check ctx t) := by
  have hall := checkEach_fills (fun t => BindingDecl.check_fills ctx t .var .variableDecl) t
    l.declarations
  rw [check]
  generalize checkEach _ t l.declarations = c at hall ⊢
  cases hall with
  | error h t e =>
    apply VisitFills.error
    exact .node rfl h
  | ok h t => exact .ok (by simpa [toNode] using h) t

theorem ParameterList.check_fills (l : ParameterList) :
    VisitFills (fun l => [l.toNode]) l (l.check ctx t) := by
  have hall := checkEach_fills (fun t => BindingDecl.check_fills ctx t .param .parameterDecl) t
    l.declarations
  rw [check]
  generalize checkEach _ t l.declarations = c at hall ⊢
  cases hall with
  | error h t e =>
    apply VisitFills.error
    exact .node rfl h
  | ok h t => exact .ok (by simpa [toNode] using h) t

/-- The parts of a procedure ripen one by one. -/
theorem ProcedureDecl.ripens_children {d d' : ProcedureDecl}
    (hparameters : Ripens [d.parameters.toNode] [d'.parameters.toNode])
    (hreturnType : Ripens [d.returnType.toNode] [d'.returnType.toNode])
    (hconstants : Ripens (d.constants.map ConstantList.toNode).toList
      (d'.constants.map ConstantList.toNode).toList)
    (hvars : Ripens (d.vars.map VariableList.toNode).toList
      (d'.vars.map VariableList.toNode).toList)
    (hbody : Ripens [d.body.toNode] [d'.body.toNode]) :
    Ripens d.toNode.children d'.toNode.children :=
  (((hparameters.append hreturnType).append hconstants).append hvars).append hbody

theorem ProcedureDecl.checkInside_fills (d : ProcedureDecl) (htype : d.returnType.toNode.Filled) :
    VisitFills (fun d => d.toNode.children) d (d.checkInside ctx t) := by
  have hparameters := d.parameters.check_fills ctx t
  rw [checkInside]
  generalize d.parameters.check ctx t = c at hparameters ⊢
  cases hparameters with
  | error hp t e =>
    apply VisitFills.error
    exact ripens_children hp (.refl _) (.refl _) (.refl _) (.refl _)
  | ok hp t =>
    have hconstants := checkOption_fills (ConstantList.check_fills ctx) t d.constants
    dsimp only
    generalize checkOption _ t d.constants = c at hconstants ⊢
    cases hconstants with
    | error hc t e =>
      apply VisitFills.error
      exact ripens_children (.of_filled hp) (.refl _) hc (.refl _) (.refl _)
    | ok hc t =>
      have hvars := checkOption_fills (VariableList.check_fills ctx) t d.vars
      dsimp only
      generalize checkOption _ t d.vars = c at hvars ⊢
      cases hvars with
      | error hv t e =>
        apply VisitFills.error
        exact ripens_children (.of_filled hp) (.refl _) (.of_filled hc) hv (.refl _)
      | ok hv t =>
        have hbody := Block.check_fills ctx t d.body
        dsimp only
        generalize d.body.check ctx t = c at hbody ⊢
        cases hbody with
        | error hb t e =>
          apply VisitFills.error
          exact ripens_children (.of_filled hp) (.refl _) (.of_filled hc) (.of_filled hv) hb
        | ok hb t => exact .ok (by simp_all [toNode]) t

/-- The return type has its slot set before the parameters have theirs. -/
theorem ProcedureDecl.check_fills (d : ProcedureDecl) :
    VisitFills (fun d => [d.toNode]) d (d.check ctx t) := by
  cases hp : t.procedures.get? d.name.text with
  | some existing =>
    rw [check, hp]
    exact .error (.refl _) t _
  | none =>
    set inner := d.withReturnSlot (some d.returnType.denoted) with hinner
    have htype : inner.returnType.toNode.Filled := d.returnType.filled_withSlot d.returnType.denoted
    have hstart : Ripens d.toNode.children inner.toNode.children :=
      ripens_children (.refl _) (.of_filled (by simpa using htype)) (.refl _) (.refl _) (.refl _)
    have hinside := checkInside_fills (ctx.withProcedure d.name.text) (t.withProcedure d) inner htype
    have hslot := slot_checkInside (ctx.withProcedure d.name.text) (t.withProcedure d) inner
    rw [check_of_new hp, ← hinner]
    generalize inner.checkInside _ _ = c at hinside hslot ⊢
    cases hinside with
    | error h t e =>
      apply VisitFills.error
      exact .node hslot (hstart.trans h)
    | ok h t => exact .ok (by simpa [toNode] using h) t

theorem ProcedureList.check_fills (l : ProcedureList) :
    VisitFills (fun l => [l.toNode]) l (l.check ctx t) := by
  have hall := checkEach_fills (ProcedureDecl.check_fills ctx) t l.procedures
  rw [check]
  generalize checkEach _ t l.procedures = c at hall ⊢
  cases hall with
  | error h t e =>
    apply VisitFills.error
    exact .node rfl h
  | ok h t => exact .ok (by simpa [toNode] using h) t

theorem Program.ripens_children {p p' : Program}
    (hconstants : Ripens (p.constants.map ConstantList.toNode).toList
      (p'.constants.map ConstantList.toNode).toList)
    (hvars : Ripens (p.vars.map VariableList.toNode).toList
      (p'.vars.map VariableList.toNode).toList)
    (hprocedures : Ripens [p.procedures.toNode] [p'.procedures.toNode])
    (hstatements : Ripens [p.statements.toNode] [p'.statements.toNode]) :
    Ripens p.toNode.children p'.toNode.children :=
  (hconstants.append hvars).append (hprocedures.append hstatements)

theorem Program.check_fills (p : Program) : VisitFills (fun p => [p.toNode]) p (p.check t) := by
  have hconstants := checkOption_fills (ConstantList.check_fills .root) t p.constants
  rw [check]
  generalize checkOption _ t p.constants = c at hconstants ⊢
  cases hconstants with
  | error hc t e =>
    apply VisitFills.error
    exact .node rfl (ripens_children hc (.refl _) (.refl _) (.refl _))
  | ok hc t =>
    have hvars := checkOption_fills (VariableList.check_fills .root) t p.vars
    dsimp only
    generalize checkOption _ t p.vars = c at hvars ⊢
    cases hvars with
    | error hv t e =>
      apply VisitFills.error
      exact .node rfl (ripens_children (.of_filled hc) hv (.refl _) (.refl _))
    | ok hv t =>
      have hprocedures := p.procedures.check_fills .root t
      dsimp only
      generalize p.procedures.check .root t = c at hprocedures ⊢
      cases hprocedures with
      | error hp t e =>
        apply VisitFills.error
        exact .node rfl (ripens_children (.of_filled hc) (.of_filled hv) hp (.refl _))
      | ok hp t =>
        have hstatements := p.statements.check_fills .root t
        dsimp only
        generalize p.statements.check .root t = c at hstatements ⊢
        cases hstatements with
        | error hs t e =>
          apply VisitFills.error
          exact .node rfl (ripens_children (.of_filled hc) (.of_filled hv) (.of_filled hp) hs)
        | ok hs t => exact .ok (by simp_all [toNode]) t

end

/-- The slot of the program itself is set last of all. -/
theorem Program.check_eq_ok_iff_slot {p : Program} (h : p.slot = none) (t : Tables) :
    (p.check t).2.2 = .ok () ↔ (p.check t).1.slot.isSome := by
  rw [check]
  rcases checkOption (ConstantList.check .root) t p.constants with ⟨constants, t, e | _⟩
  · simp [h]
  dsimp only
  rcases checkOption (VariableList.check .root) t p.vars with ⟨vars, t, e | _⟩
  · simp [h]
  dsimp only
  rcases p.procedures.check .root t with ⟨procedures, t, e | _⟩
  · simp [h]
  dsimp only
  rcases p.statements.check .root t with ⟨statements, t, e | _⟩
  · simp [h]
  · simp

/-- Wherever the check of a parsed program stops, all nodes below a node with a type have types.  The
program itself has one exactly if the check has come to its end. -/
theorem check_bottomUp {source : String} {p : Program} (h : (parseProgram source).1 = .ok p)
    (t : Tables) :
    (∀ e ∈ (p.check t).1.toNode.walk, e.2.slot.isSome → ∀ d ∈ e.2.walk, d.2.slot.isSome) ∧
      ((p.check t).2.2 = .ok () ↔ (p.check t).1.toNode.slot.isSome) := by
  have huntyped : p.untyped = p := ((parseProgram_eq_ok_iff source p).1 h).untyped
  have hstart : p.toNode.BottomUp := huntyped ▸ p.bottomUp_untyped
  have hslot : p.slot = none := by
    rw [← huntyped]
    rfl
  refine ⟨?_, Program.check_eq_ok_iff_slot hslot t⟩
  have hfills := p.check_fills t
  generalize p.check t = c at hfills ⊢
  cases hfills with
  | ok hfilled t => exact (hfilled _ (List.mem_singleton_self _)).bottomUp.walk
  | error hripens t e =>
    have hleft := hripens.bottomUp (by simpa using hstart)
    exact BottomUp.walk (hleft _ (List.mem_singleton_self _))

/-- An assignment that passes its check, and one that stops it behind its first operand. -/
def brokenSource : String := "var n : integer; program n := n + 1; n := (2 * 3) + true; end;"

theorem check_bottomUp_stopped : ∃ p, (parseProgram brokenSource).1 = .ok p ∧
    (∀ e ∈ (p.check .initial).1.toNode.walk,
      e.2.slot.isSome → ∀ d ∈ e.2.walk, d.2.slot.isSome) ∧
      (p.check .initial).2.2 ≠ .ok () ∧ (p.check .initial).1.toNode.slot = none := by
  have hparsed : (parseProgram brokenSource).1.isOk := by decide +kernel
  obtain ⟨p, hp⟩ := exists_of_isOk hparsed
  obtain ⟨hwalk, hslot⟩ := check_bottomUp hp .initial
  have hfails : (p.check .initial).2.2 ≠ .ok () := by
    intro hok
    have hrejected : (compile brokenSource).isOk = false := by decide +kernel
    have haccepted : compile brokenSource = .ok ⟨(p.check .initial).1, (p.check .initial).2.1⟩ :=
      compile_eq_ok_iff.2 ⟨p, hp, Prod.ext rfl (Prod.ext rfl hok)⟩
    rw [haccepted] at hrejected
    cases hrejected
  refine ⟨p, hp, hwalk, hfails, ?_⟩
  simpa using mt hslot.2 hfails

end TeachLang
