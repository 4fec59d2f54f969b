import TeachLang.Proofs.Slots.BottomUp.Expr

/-! # Slots of statements from the leaves up

A statement gets its type last, also where its branches have been checked one after the other.
-/

namespace TeachLang

open Node

section

variable (t : Tables) (ctx : Context)

theorem Target.check_fills (target : Target) :
    Fills (fun target => [target.toNode]) target (target.check t ctx) := by
  cases target with
  | name i =>
    have hi := i.check_fills t ctx
    rw [check]
    generalize i.check t ctx = c at hi ⊢
    cases hi with
    | ok h ty =>
      apply Fills.ok
      exact h
    | error h e =>
      apply Fills.error
      exact h
  | element base opening position slot =>
    have hbase := base.check_fills t ctx
    have hposition := position.check_fills t ctx
    rw [check]
    generalize base.check t ctx = c at hbase ⊢
    cases hbase with
    | error hb e =>
      apply Fills.error
      exact .node rfl (.cons hb (.refl _))
    | ok hb baseTy =>
      dsimp only
      generalize position.check t ctx = c at hposition ⊢
      cases hposition with
      | error hp e =>
        apply Fills.error
        exact .node rfl (.cons (.of_filled hb) hp)
      | @ok position' hp found =>
        dsimp only
        cases elementType opening baseTy position' found with
        | error e =>
          apply Fills.error
          exact .node rfl (.cons (.of_filled hb) (.of_filled hp))
        | ok ty =>
          apply Fills.ok
          simp_all [toNode]

theorem checkCondition_fills (keyword : Token) (condition : Expr) :
    Fills (fun e => [e.toNode]) condition (checkCondition t ctx keyword condition) := by
  have hcondition := condition.check_fills t ctx
  rw [checkCondition]
  generalize condition.check t ctx = c at hcondition ⊢
  cases hcondition with
  | error h e =>
    apply Fills.error
    exact h
  | ok h found =>
    by_cases hbool : found = .bool
    · simp only [if_pos hbool]
      apply Fills.ok
      exact h
    · simp only [if_neg hbool]
      apply Fills.error
      exact .of_filled h

theorem checkAssignment_fills (target : Target) (symbol : Token) (value : Expr) :
    Fills (fun parts => [parts.1.toNode, parts.2.toNode]) (target, value)
      (checkAssignment t ctx target symbol value) := by
  have htarget := target.check_fills t ctx
  have hvalue := value.check_fills t ctx
  rw [checkAssignment]
  generalize target.check t ctx = c at htarget ⊢
  cases htarget with
  | error ht e =>
    apply Fills.error
    exact .cons ht (.refl _)
  | @ok target' ht expected =>
    dsimp only
    cases target'.constant? t ctx with
    | some base =>
      apply Fills.error
      exact .cons (.of_filled ht) (.refl _)
    | none =>
      dsimp only
      generalize value.check t ctx = c at hvalue ⊢
      cases hvalue with
      | error hv e =>
        apply Fills.error
        exact .cons (.of_filled ht) hv
      | @ok value' hv found =>
        have hparts : AllFilled [target'.toNode, value'.toNode] := by simp_all
        by_cases haccepts : expected.accepts found = true
        · simp only [if_pos haccepts]
          apply Fills.ok
          exact hparts
        · simp only [if_neg haccepts]
          apply Fills.error
          exact .of_filled hparts

theorem checkForHead_fills (item : Identifier) (iterable : Expr) :
    Fills (fun parts => [parts.1.toNode, parts.2.toNode]) (item, iterable)
      (checkForHead t ctx item iterable) := by
  have hitem := item.check_fills t ctx
  have hiterable := iterable.check_fills t ctx
  rw [checkForHead]
  generalize item.check t ctx = c at hitem ⊢
  cases hitem with
  | error hi e =>
    apply Fills.error
    exact .cons hi (.refl _)
  | @ok item' hi itemTy =>
    dsimp only
    generalize iterable.check t ctx = c at hiterable ⊢
    cases hiterable with
    | error hl e =>
      apply Fills.error
      exact .cons (.of_filled hi) hl
    | @ok iterable' hl listTy =>
      have hparts : AllFilled [item'.toNode, iterable'.toNode] := by simp_all
      by_cases hlist : itemTy.toListType? = some listTy
      · simp only [if_pos hlist]
        apply Fills.ok
        exact hparts
      · simp only [if_neg hlist]
        apply Fills.error
        exact .of_filled hparts

theorem checkReturned_fills (value : Option Expr) :
    Fills (fun o => (o.map Expr.toNode).toList) value (checkReturned t ctx value) := by
  cases value with
  | none => exact .ok allFilled_nil Ty.void
  | some e =>
    have he := e.check_fills t ctx
    rw [checkReturned]
    generalize e.check t ctx = c at he ⊢
    cases he with
    | ok h ty =>
      apply Fills.ok
      exact h
    | error h e =>
      apply Fills.error
      exact h

theorem checkReturn_fills (keyword : Token) (value : Option Expr) :
    Fills (fun o => (o.map Expr.toNode).toList) value (checkReturn t ctx keyword value) := by
  have hreturned := checkReturned_fills t ctx value
  rw [checkReturn]
  cases t.current? ctx with
  | none =>
    apply Fills.error
    exact .refl _
  | some p =>
    dsimp only
    generalize checkReturned t ctx value = c at hreturned ⊢
    cases hreturned with
    | error h e =>
      apply Fills.error
      exact h
    | ok h found =>
      by_cases haccepts : p.returnType.accepts found = true
      · simp only [if_pos haccepts]
        apply Fills.ok
        exact h
      · simp only [if_neg haccepts]
        apply Fills.error
        exact .of_filled h

end

/-! Statements with bodies fill up where their bodies do. -/

/-- The slot of the list of branches is set before the last branch is checked. -/
theorem Statement.conditional_fills (ctx : Context) (t : Tables) (keyword : Token)
    (condition : Expr) {body : Block} {elseIfs : ElseIfs} {otherwise : Else}
    (elseIfsSlot slot : Slot)
    (hbody : ∀ t, VisitFills (fun b => [b.toNode]) body (body.check ctx t))
    (helseIfs : ∀ t, VisitFills ElseIfs.toNodes elseIfs (elseIfs.check ctx t))
    (hotherwise : ∀ t, VisitFills Else.toNodes otherwise (otherwise.check ctx t)) :
    VisitFills (fun s => [s.toNode])
      (.conditional keyword condition body elseIfs elseIfsSlot otherwise slot)
      ((Statement.conditional keyword condition body elseIfs elseIfsSlot otherwise slot).check
        ctx t) := by
  have hcondition := checkCondition_fills t ctx keyword condition
  have hbody := hbody t
  rw [Statement.check]
  generalize checkCondition t ctx keyword condition = c at hcondition ⊢
  cases hcondition with
  | error hc e =>
    apply VisitFills.error
    exact .node rfl (.cons hc (.refl _))
  | ok hc _ =>
    dsimp only
    generalize body.check ctx t = c at hbody ⊢
    cases hbody with
    | error hb t e =>
      apply VisitFills.error
      exact .node rfl (.cons (.of_filled hc) (.cons hb (.refl _)))
    | ok hb t =>
      have helseIfs := helseIfs t
      dsimp only
      generalize elseIfs.check ctx t = c at helseIfs ⊢
      cases helseIfs with
      | error hi t e =>
        apply VisitFills.error
        exact .node rfl (.cons (.of_filled hc) (.cons (.of_filled hb)
          (.cons (.node rfl hi) (.refl _))))
      | @ok elseIfs' hi t =>
        have hotherwise := hotherwise t
        dsimp only
        generalize otherwise.check ctx t = c at hotherwise ⊢
        cases hotherwise with
        | error ho t e =>
          have hbranches : AllFilled
              [⟨.elseIfList, none, some .void, none, elseIfs'.toNodes⟩] := by simpa using hi
          apply VisitFills.error
          exact .node rfl (.cons (.of_filled hc) (.cons (.of_filled hb)
            (.cons (.of_filled hbranches) ho)))
        | ok ho t => exact .ok (by simp_all [toNode]) t

theorem Statement.forEach_fills (ctx : Context) (t : Tables) (keyword : Token)
    (item : Identifier) (iterable : Expr) {body : Block} (slot : Slot)
    (hbody : ∀ t, VisitFills (fun b => [b.toNode]) body (body.check ctx.withLoop t)) :
    VisitFills (fun s => [s.toNode]) (.forEach keyword item iterable body slot)
      ((Statement.forEach keyword item iterable body slot).check ctx t) := by
  have hhead := checkForHead_fills t ctx item iterable
  rw [Statement.check]
  generalize checkForHead t ctx item iterable = c at hhead ⊢
  cases hhead with
  | error hh e =>
    apply VisitFills.error
    exact .node rfl (hh.append (.refl _))
  | @ok parts hh _ =>
    obtain ⟨item', iterable'⟩ := parts
    have hbody := hbody (t.declare ctx (counterName item'.name) (.var .int))
    dsimp only
    generalize body.check ctx.withLoop _ = c at hbody ⊢
    cases hbody with
    | error hb t e =>
      have hhead : Ripens [item.toNode, iterable.toNode] [item'.toNode, iterable'.toNode] :=
        .of_filled hh
      apply VisitFills.error
      exact .node rfl (hhead.append hb)
    | ok hb t => exact .ok (by simp_all [toNode]) t

mutual

theorem Statement.check_fills (ctx : Context) (t : Tables) (s : Statement) :
    VisitFills (fun s => [s.toNode]) s (s.check ctx t) := by
  cases s with
  | assignment target symbol value slot =>
    have hparts := checkAssignment_fills t ctx target symbol value
    rw [Statement.check]
    generalize checkAssignment t ctx target symbol value = c at hparts ⊢
    cases hparts with
    | error h e =>
      apply VisitFills.error
      exact .node rfl h
    | ok h _ => exact .ok (by simp_all [Statement.toNode]) t
  | call callee args slot =>
    have hcall := checkCall_fills t ctx callee args
    rw [Statement.check]
    generalize checkCall t ctx callee args = c at hcall ⊢
    cases hcall with
    | error h e =>
      apply VisitFills.error
      exact .node rfl h
    | ok h _ => exact .ok (by simpa [Statement.toNode] using h) t
  | conditional keyword condition body elseIfs elseIfsSlot otherwise slot =>
    exact Statement.conditional_fills ctx t keyword condition elseIfsSlot slot
      (fun t => Block.check_fills ctx t body) (fun t => ElseIfs.check_fills ctx t elseIfs)
      (fun t => Else.check_fills ctx t otherwise)
  | loop keyword body slot =>
    have hbody := Block.check_fills ctx.withLoop t body
    rw [Statement.check]
    generalize body.check ctx.withLoop t = c at hbody ⊢
    cases hbody with
    | error h t e =>
      apply VisitFills.error
      exact .node rfl h
    | ok h t => exact .ok (by simpa [Statement.toNode] using h) t
  | forEach keyword item iterable body slot =>
    exact Statement.forEach_fills ctx t keyword item iterable slot
      fun t => Block.check_fills ctx.withLoop t body
  | returning keyword value slot =>
    have hreturn := checkReturn_fills t ctx keyword value
    rw [Statement.check]
    generalize checkReturn t ctx keyword value = c at hreturn ⊢
    cases hreturn with
    | error h e =>
      apply VisitFills.error
      exact .node rfl h
    | ok h ty => exact .ok (by simpa [Statement.toNode] using h) t
  | exit keyword slot =>
    rw [Statement.check]
    by_cases hloop : ctx.insideLoop = true
    · simp only [if_pos hloop]
      exact .ok (by simp [Statement.toNode]) t
    · simp only [if_neg hloop]
      exact .error (.refl _) t _

theorem Block.check_fills (ctx : Context) (t : Tables) (b : Block) :
    VisitFills (fun b => [b.toNode]) b (b.check ctx t) := by
  cases b with
  | mk statements slot =>
    have hall := Statement.checkAll_fills ctx t statements
    rw [Block.check]
    generalize Statement.checkAll ctx t statements = c at hall ⊢
    cases hall with
    | error h t e =>
      apply VisitFills.error
      exact .node rfl h
    | ok h t => exact .ok (by simpa [Block.toNode] using h) t

theorem Statement.checkAll_fills (ctx : Context) (t : Tables) (ss : List Statement) :
    VisitFills Statement.toNodes ss (Statement.checkAll ctx t ss) := by
  cases ss with
  | nil => exact .ok allFilled_nil t
  | cons s ss =>
    have hs := Statement.check_fills ctx t s
    rw [Statement.checkAll]
    generalize s.check ctx t = c at hs ⊢
    cases hs with
    | error h t e =>
      apply VisitFills.error
      exact .cons h (.refl _)
    | ok h t =>
      have hss := Statement.checkAll_fills ctx t ss
      dsimp only
      generalize Statement.checkAll ctx t ss = c at hss ⊢
      cases hss with
      | error hr t e =>
        apply VisitFills.error
        exact .cons (.of_filled h) hr
      | ok hr t => exact .ok (by simp_all [Statement.toNodes]) t

theorem ElseIfs.check_fills (ctx : Context) (t : Tables) (b : ElseIfs) :
    VisitFills ElseIfs.toNodes b (b.check ctx t) := by
  cases b with
  | nil => exact .ok allFilled_nil t
  | cons keyword condition body slot rest =>
    have hcondition := checkCondition_fills t ctx keyword condition
    have hbody := Block.check_fills ctx t body
    rw [ElseIfs.check]
    generalize checkCondition t ctx keyword condition = c at hcondition ⊢
    cases hcondition with
    | error hc e =>
      apply VisitFills.error
      exact .cons (.node rfl (.cons hc (.refl _))) (.refl _)
    | ok hc _ =>
      dsimp only
      generalize body.check ctx t = c at hbody ⊢
      cases hbody with
      | error hb t e =>
        apply VisitFills.error
        exact .cons (.node rfl (.cons (.of_filled hc) hb)) (.refl _)
      | ok hb t =>
        have hrest := ElseIfs.check_fills ctx t rest
        dsimp only
        generalize rest.check ctx t = c at hrest ⊢
        cases hrest with
        | error hr t e =>
          apply VisitFills.error
          exact .cons (.of_filled (by simp_all)) hr
        | ok hr t => exact .ok (by simp_all [ElseIfs.toNodes]) t

theorem Else.check_fills (ctx : Context) (t : Tables) (b : Else) :
    VisitFills Else.toNodes b (b.check ctx t) := by
  cases b with
  | absent => exact .ok allFilled_nil t
  | present keyword body slot =>
    have hbody := Block.check_fills ctx t body
    rw [Else.check]
    generalize body.check ctx t = c at hbody ⊢
    cases hbody with
    | error h t e =>
      apply VisitFills.error
      exact .node rfl h
    | ok h t => exact .ok (by simpa [Else.toNodes] using h) t

end

end TeachLang
