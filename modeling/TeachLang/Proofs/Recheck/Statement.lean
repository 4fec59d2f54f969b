import TeachLang.Proofs.Recheck.Expr

/-! # Checks of statements with old types

The check of a block and the check of the block with empty slots leave the same tables, also where
they fail, so that each statement is checked in the same tables again.
-/

namespace TeachLang

/-- Two checks that declare names, of one tree and of the tree after `clear`, agree: they leave the
same tables, find the same, and leave the tree as it is up to `clear`.  If they succeed they leave
one tree. -/
inductive VisitAgrees {α : Type} (clear : α → α) (a : α) : Visited α → Visited α → Prop
  | ok {a' : α} (same : clear a' = clear a) (t : Tables) :
      VisitAgrees clear a (a', t, .ok ()) (a', t, .ok ())
  | error {a' a'' : α} (same : clear a' = clear a) (same' : clear a'' = clear a) (t : Tables)
      (e : SemanticError) : VisitAgrees clear a (a', t, .error e) (a'', t, .error e)

theorem Statement.allCleared_allCleared (ss : List Statement) :
    Statement.mapAll id Slot.cleared (Statement.mapAll id Slot.cleared ss) =
      Statement.mapAll id Slot.cleared ss :=
  Statement.mapAll_mapAll _ _ _ _ ss

theorem Block.cleared_cleared (b : Block) :
    (b.map id Slot.cleared).map id Slot.cleared = b.map id Slot.cleared :=
  b.map_map ..

theorem ElseIfs.cleared_cleared (b : ElseIfs) :
    (b.map id Slot.cleared).map id Slot.cleared = b.map id Slot.cleared :=
  b.map_map ..

theorem Else.cleared_cleared (b : Else) :
    (b.map id Slot.cleared).map id Slot.cleared = b.map id Slot.cleared :=
  b.map_map ..

section

variable (t : Tables) (ctx : Context)

theorem Target.check_agrees (target : Target) :
    Agrees (Target.map id Slot.cleared) target (target.check t ctx)
      ((target.map id Slot.cleared).check t ctx) := by
  cases target with
  | name i =>
    have hi := i.check_agrees t ctx
    rw [Target.map, check, check]
    generalize i.check t ctx = c, (i.map id Slot.cleared).check t ctx = c' at hi ⊢
    cases hi with
    | ok same ty => exact .ok (congrArg Target.name same) ty
    | error same same' e =>
      exact .error (congrArg Target.name same) (congrArg Target.name same') e
  | element base opening position slot =>
    have hbase := base.check_agrees t ctx
    have hposition := position.check_agrees t ctx
    rw [Target.map, id, check, check]
    generalize base.check t ctx = c, (base.map id Slot.cleared).check t ctx = c' at hbase ⊢
    cases hbase with
    | error same same' e =>
      apply Agrees.error
      · simp only [Target.map, same]
      · simp only [Target.map, same', Expr.cleared_cleared, Slot.cleared, id]
    | @ok base' same baseTy =>
      dsimp only
      generalize position.check t ctx = c, (position.map id Slot.cleared).check t ctx = c'
        at hposition ⊢
      cases hposition with
      | error hp hp' e =>
        apply Agrees.error
        · simp only [Target.map, same, hp]
        · simp only [Target.map, same, hp', Slot.cleared, id]
      | @ok position' hp found =>
        dsimp only
        cases elementType opening baseTy position' found with
        | error e =>
          apply Agrees.error
          · simp only [Target.map, same, hp]
          · simp only [Target.map, same, hp, Slot.cleared, id]
        | ok ty => exact .ok (by simp only [Target.map, same, hp, Slot.cleared]) ty

theorem checkCondition_agrees (keyword : Token) (condition : Expr) :
    Agrees (Expr.map id Slot.cleared) condition (checkCondition t ctx keyword condition)
      (checkCondition t ctx keyword (condition.map id Slot.cleared)) := by
  have hcondition := condition.check_agrees t ctx
  rw [checkCondition, checkCondition]
  generalize condition.check t ctx = c, (condition.map id Slot.cleared).check t ctx = c'
    at hcondition ⊢
  cases hcondition with
  | error same same' e => exact .error same same' e
  | ok same found =>
    by_cases hbool : found = .bool
    · simp only [if_pos hbool]
      exact .ok same ()
    · simp only [if_neg hbool]
      exact .error same same _

theorem checkAssignment_agrees (target : Target) (symbol : Token) (value : Expr) :
    Agrees (Prod.map (Target.map id Slot.cleared) (Expr.map id Slot.cleared)) (target, value)
      (checkAssignment t ctx target symbol value)
      (checkAssignment t ctx (target.map id Slot.cleared) symbol (value.map id Slot.cleared)) := by
  have htarget := target.check_agrees t ctx
  have hvalue := value.check_agrees t ctx
  rw [checkAssignment, checkAssignment]
  generalize target.check t ctx = c, (target.map id Slot.cleared).check t ctx = c' at htarget ⊢
  cases htarget with
  | error same same' e =>
    exact .error (by simp only [Prod.map, same])
      (by simp only [Prod.map, same', Expr.cleared_cleared]) e
  | @ok target' same expected =>
    -- Both runs ask the same tree for a constant.
    dsimp only
    cases target'.constant? t ctx with
    | some base =>
      exact .error (by simp only [Prod.map, same])
        (by simp only [Prod.map, same, Expr.cleared_cleared]) _
    | none =>
      dsimp only
      generalize value.check t ctx = c, (value.map id Slot.cleared).check t ctx = c' at hvalue ⊢
      cases hvalue with
      | error hv hv' e =>
        exact .error (by simp only [Prod.map, same, hv]) (by simp only [Prod.map, same, hv']) e
      | @ok value' hv found =>
        have hparts : Prod.map (Target.map id Slot.cleared) (Expr.map id Slot.cleared)
            (target', value') = Prod.map (Target.map id Slot.cleared)
              (Expr.map id Slot.cleared) (target, value) := by
          simp only [Prod.map, same, hv]
        by_cases haccepts : expected.accepts found = true
        · simp only [if_pos haccepts]
          exact .ok hparts ()
        · simp only [if_neg haccepts]
          exact .error hparts hparts _

theorem checkForHead_agrees (item : Identifier) (iterable : Expr) :
    Agrees (Prod.map (Identifier.map id Slot.cleared) (Expr.map id Slot.cleared)) (item, iterable)
      (checkForHead t ctx item iterable)
      (checkForHead t ctx (item.map id Slot.cleared) (iterable.map id Slot.cleared)) := by
  have hitem := item.check_agrees t ctx
  have hiterable := iterable.check_agrees t ctx
  rw [checkForHead, checkForHead]
  generalize item.check t ctx = c, (item.map id Slot.cleared).check t ctx = c' at hitem ⊢
  cases hitem with
  | error same same' e =>
    exact .error (by simp only [Prod.map, same])
      (by simp only [Prod.map, same', Expr.cleared_cleared]) e
  | @ok item' same itemTy =>
    dsimp only
    generalize iterable.check t ctx = c, (iterable.map id Slot.cleared).check t ctx = c'
      at hiterable ⊢
    cases hiterable with
    | error hl hl' e =>
      exact .error (by simp only [Prod.map, same, hl]) (by simp only [Prod.map, same, hl']) e
    | @ok iterable' hl listTy =>
      have hparts : Prod.map (Identifier.map id Slot.cleared) (Expr.map id Slot.cleared)
          (item', iterable') = Prod.map (Identifier.map id Slot.cleared)
            (Expr.map id Slot.cleared) (item, iterable) := by
        simp only [Prod.map, same, hl]
      by_cases hlist : itemTy.toListType? = some listTy
      · simp only [if_pos hlist]
        exact .ok hparts ()
      · simp only [if_neg hlist]
        exact .error hparts hparts _

theorem checkReturned_agrees (value : Option Expr) :
    Agrees (Option.map (Expr.map id Slot.cleared)) value (checkReturned t ctx value)
      (checkReturned t ctx (value.map (Expr.map id Slot.cleared))) := by
  cases value with
  | none => exact .ok rfl Ty.void
  | some e =>
    have he := e.check_agrees t ctx
    rw [Option.map_some, checkReturned, checkReturned]
    generalize e.check t ctx = c, (e.map id Slot.cleared).check t ctx = c' at he ⊢
    cases he with
    | ok same ty => exact .ok (congrArg some same) ty
    | error same same' e => exact .error (congrArg some same) (congrArg some same') e

theorem checkReturn_agrees (keyword : Token) (value : Option Expr) :
    Agrees (Option.map (Expr.map id Slot.cleared)) value (checkReturn t ctx keyword value)
      (checkReturn t ctx keyword (value.map (Expr.map id Slot.cleared))) := by
  have hreturned := checkReturned_agrees t ctx value
  rw [checkReturn, checkReturn]
  cases t.current? ctx with
  | none =>
    refine .error rfl ?_ _
    cases value <;> simp [Expr.cleared_cleared]
  | some p =>
    dsimp only
    generalize checkReturned t ctx value = c,
      checkReturned t ctx (value.map (Expr.map id Slot.cleared)) = c' at hreturned ⊢
    cases hreturned with
    | error same same' e => exact .error same same' e
    | ok same found =>
      by_cases haccepts : p.returnType.accepts found = true
      · simp only [if_pos haccepts]
        exact .ok same found
      · simp only [if_neg haccepts]
        exact .error same same _

end

/-! Statements with bodies agree where their bodies do. -/

theorem Statement.conditional_agrees (ctx : Context) (t : Tables) (keyword : Token)
    (condition : Expr) {body : Block} {elseIfs : ElseIfs} {otherwise : Else}
    (elseIfsSlot slot : Slot)
    (hbody : ∀ t, VisitAgrees (Block.map id Slot.cleared) body (body.check ctx t)
      ((body.map id Slot.cleared).check ctx t))
    (helseIfs : ∀ t, VisitAgrees (ElseIfs.map id Slot.cleared) elseIfs (elseIfs.check ctx t)
      ((elseIfs.map id Slot.cleared).check ctx t))
    (hotherwise : ∀ t, VisitAgrees (Else.map id Slot.cleared) otherwise (otherwise.check ctx t)
      ((otherwise.map id Slot.cleared).check ctx t)) :
    VisitAgrees (Statement.map id Slot.cleared)
      (.conditional keyword condition body elseIfs elseIfsSlot otherwise slot)
      ((Statement.conditional keyword condition body elseIfs elseIfsSlot otherwise slot).check ctx t)
      (((Statement.conditional keyword condition body elseIfs elseIfsSlot otherwise slot).map id
        Slot.cleared).check ctx t) := by
  have hcondition := checkCondition_agrees t ctx keyword condition
  have hbody := hbody t
  rw [Statement.map, id, Statement.check, Statement.check]
  generalize checkCondition t ctx keyword condition = c,
    checkCondition t ctx keyword (condition.map id Slot.cleared) = c' at hcondition ⊢
  cases hcondition with
  | error hc hc' e =>
    apply VisitAgrees.error
    · simp only [Statement.map, hc]
    · simp only [Statement.map, hc', Block.cleared_cleared, ElseIfs.cleared_cleared,
        Else.cleared_cleared, Slot.cleared, id]
  | ok hc _ =>
    dsimp only
    generalize body.check ctx t = c, (body.map id Slot.cleared).check ctx t = c' at hbody ⊢
    cases hbody with
    | error hb hb' t e =>
      apply VisitAgrees.error
      · simp only [Statement.map, hc, hb]
      · simp only [Statement.map, hc, hb', ElseIfs.cleared_cleared, Else.cleared_cleared,
          Slot.cleared, id]
    | ok hb t =>
      have helseIfs := helseIfs t
      dsimp only
      generalize elseIfs.check ctx t = c, (elseIfs.map id Slot.cleared).check ctx t = c'
        at helseIfs ⊢
      cases helseIfs with
      | error hi hi' t e =>
        apply VisitAgrees.error
        · simp only [Statement.map, hc, hb, hi]
        · simp only [Statement.map, hc, hb, hi', Else.cleared_cleared, Slot.cleared, id]
      | ok hi t =>
        have hotherwise := hotherwise t
        dsimp only
        generalize otherwise.check ctx t = c, (otherwise.map id Slot.cleared).check ctx t = c'
          at hotherwise ⊢
        cases hotherwise with
        | error ho ho' t e =>
          apply VisitAgrees.error
          · simp only [Statement.map, hc, hb, hi, ho, Slot.cleared]
          · simp only [Statement.map, hc, hb, hi, ho', Slot.cleared, id]
        | ok ho t => exact .ok (by simp only [Statement.map, hc, hb, hi, ho, Slot.cleared]) t

theorem Statement.forEach_agrees (ctx : Context) (t : Tables) (keyword : Token)
    (item : Identifier) (iterable : Expr) {body : Block} (slot : Slot)
    (hbody : ∀ t, VisitAgrees (Block.map id Slot.cleared) body (body.check ctx.withLoop t)
      ((body.map id Slot.cleared).check ctx.withLoop t)) :
    VisitAgrees (Statement.map id Slot.cleared) (.forEach keyword item iterable body slot)
      ((Statement.forEach keyword item iterable body slot).check ctx t)
      (((Statement.forEach keyword item iterable body slot).map id Slot.cleared).check ctx t) := by
  have hhead := checkForHead_agrees t ctx item iterable
  rw [Statement.map, id, Statement.check, Statement.check]
  generalize checkForHead t ctx item iterable = c,
    checkForHead t ctx (item.map id Slot.cleared) (iterable.map id Slot.cleared) = c' at hhead ⊢
  cases hhead with
  | @error parts parts' same same' e =>
    obtain ⟨hitem, hiterable⟩ := Prod.mk.inj same
    obtain ⟨hitem', hiterable'⟩ := Prod.mk.inj same'
    apply VisitAgrees.error
    · simp only [Statement.map, hitem, hiterable]
    · simp only [Statement.map, hitem', hiterable', Block.cleared_cleared, Slot.cleared, id]
  | @ok parts same _ =>
    obtain ⟨hitem, hiterable⟩ := Prod.mk.inj same
    obtain ⟨item', iterable'⟩ := parts
    have hbody := hbody (t.declare ctx (counterName item'.name) (.var .int))
    dsimp only
    generalize body.check ctx.withLoop _ = c, (body.map id Slot.cleared).check ctx.withLoop _ = c'
      at hbody ⊢
    cases hbody with
    | error hb hb' t e =>
      apply VisitAgrees.error
      · simp only [Statement.map, hitem, hiterable, hb]
      · simp only [Statement.map, hitem, hiterable, hb', Slot.cleared, id]
    | ok hb t => exact .ok (by simp only [Statement.map, hitem, hiterable, hb, Slot.cleared]) t

mutual

theorem Statement.check_agrees (ctx : Context) (t : Tables) (s : Statement) :
    VisitAgrees (Statement.map id Slot.cleared) s (s.check ctx t)
      ((s.map id Slot.cleared).check ctx t) := by
  cases s with
  | assignment target symbol value slot =>
    have hparts := checkAssignment_agrees t ctx target symbol value
    rw [Statement.map, id, Statement.check, Statement.check]
    generalize checkAssignment t ctx target symbol value = c, checkAssignment t ctx
      (target.map id Slot.cleared) symbol (value.map id Slot.cleared) = c' at hparts ⊢
    cases hparts with
    | error same same' e =>
      obtain ⟨htarget, hvalue⟩ := Prod.mk.inj same
      obtain ⟨htarget', hvalue'⟩ := Prod.mk.inj same'
      exact .error (by simp only [Statement.map, htarget, hvalue])
        (by simp only [Statement.map, htarget', hvalue', Slot.cleared]) t e
    | ok same _ =>
      obtain ⟨htarget, hvalue⟩ := Prod.mk.inj same
      exact .ok (by simp only [Statement.map, htarget, hvalue, Slot.cleared]) t
  | call callee args slot =>
    have hcall := checkCall_agrees t ctx callee args
    rw [Statement.map, id, Statement.check, Statement.check]
    generalize checkCall t ctx callee args = c,
      checkCall t ctx callee (Expr.mapAll id Slot.cleared args) = c' at hcall ⊢
    cases hcall with
    | error same same' e =>
      exact .error (by simp only [Statement.map, same])
        (by simp only [Statement.map, same', Slot.cleared]) t e
    | ok same _ => exact .ok (by simp only [Statement.map, same, Slot.cleared]) t
  | conditional keyword condition body elseIfs elseIfsSlot otherwise slot =>
    exact Statement.conditional_agrees ctx t keyword condition elseIfsSlot slot
      (fun t => Block.check_agrees ctx t body) (fun t => ElseIfs.check_agrees ctx t elseIfs)
      (fun t => Else.check_agrees ctx t otherwise)
  | loop keyword body slot =>
    have hbody := Block.check_agrees ctx.withLoop t body
    rw [Statement.map, id, Statement.check, Statement.check]
    generalize body.check ctx.withLoop t = c,
      (body.map id Slot.cleared).check ctx.withLoop t = c' at hbody ⊢
    cases hbody with
    | error same same' t e =>
      exact .error (by simp only [Statement.map, same])
        (by simp only [Statement.map, same', Slot.cleared, id]) t e
    | ok same t => exact .ok (by simp only [Statement.map, same, Slot.cleared]) t
  | forEach keyword item iterable body slot =>
    exact Statement.forEach_agrees ctx t keyword item iterable slot
      fun t => Block.check_agrees ctx.withLoop t body
  | returning keyword value slot =>
    have hreturn := checkReturn_agrees t ctx keyword value
    rw [Statement.map, id, Statement.check, Statement.check]
    generalize checkReturn t ctx keyword value = c,
      checkReturn t ctx keyword (value.map (Expr.map id Slot.cleared)) = c' at hreturn ⊢
    cases hreturn with
    | error same same' e =>
      exact .error (by simp only [Statement.map, same])
        (by simp only [Statement.map, same', Slot.cleared, id]) t e
    | ok same ty => exact .ok (by simp only [Statement.map, same, Slot.cleared]) t
  | exit keyword slot =>
    rw [Statement.map, id, Statement.check, Statement.check]
    by_cases hloop : ctx.insideLoop = true
    · simp only [if_pos hloop]
      exact .ok (by simp only [Statement.map, Slot.cleared]) t
    · simp only [if_neg hloop]
      exact .error rfl (by simp only [Statement.map, Slot.cleared, id]) t _

theorem Block.check_agrees (ctx : Context) (t : Tables) (b : Block) :
    VisitAgrees (Block.map id Slot.cleared) b (b.check ctx t)
      ((b.map id Slot.cleared).check ctx t) := by
  cases b with
  | mk statements slot =>
    have hall := Statement.checkAll_agrees ctx t statements
    rw [Block.map, Block.check, Block.check]
    generalize Statement.checkAll ctx t statements = c,
      Statement.checkAll ctx t (Statement.mapAll id Slot.cleared statements) = c' at hall ⊢
    cases hall with
    | error same same' t e =>
      exact .error (by simp only [Block.map, same])
        (by simp only [Block.map, same', Slot.cleared]) t e
    | ok same t => exact .ok (by simp only [Block.map, same, Slot.cleared]) t

theorem Statement.checkAll_agrees (ctx : Context) (t : Tables) (ss : List Statement) :
    VisitAgrees (Statement.mapAll id Slot.cleared) ss (Statement.checkAll ctx t ss)
      (Statement.checkAll ctx t (Statement.mapAll id Slot.cleared ss)) := by
  cases ss with
  | nil => exact .ok rfl t
  | cons s ss =>
    have hs := Statement.check_agrees ctx t s
    rw [Statement.mapAll, Statement.checkAll, Statement.checkAll]
    generalize s.check ctx t = c, (s.map id Slot.cleared).check ctx t = c' at hs ⊢
    cases hs with
    | error same same' t e =>
      apply VisitAgrees.error
      · simp only [Statement.mapAll, same]
      · simp only [Statement.mapAll, same', Statement.allCleared_allCleared]
    | ok same t =>
      have hss := Statement.checkAll_agrees ctx t ss
      dsimp only
      generalize Statement.checkAll ctx t ss = c,
        Statement.checkAll ctx t (Statement.mapAll id Slot.cleared ss) = c' at hss ⊢
      cases hss with
      | error hr hr' t e =>
        exact .error (by simp only [Statement.mapAll, same, hr])
          (by simp only [Statement.mapAll, same, hr']) t e
      | ok hr t => exact .ok (by simp only [Statement.mapAll, same, hr]) t

theorem ElseIfs.check_agrees (ctx : Context) (t : Tables) (b : ElseIfs) :
    VisitAgrees (ElseIfs.map id Slot.cleared) b (b.check ctx t)
      ((b.map id Slot.cleared).check ctx t) := by
  cases b with
  | nil => exact .ok rfl t
  | cons keyword condition body slot rest =>
    have hcondition := checkCondition_agrees t ctx keyword condition
    have hbody := Block.check_agrees ctx t body
    rw [ElseIfs.map, id, ElseIfs.check, ElseIfs.check]
    generalize checkCondition t ctx keyword condition = c,
      checkCondition t ctx keyword (condition.map id Slot.cleared) = c' at hcondition ⊢
    cases hcondition with
    | error hc hc' e =>
      apply VisitAgrees.error
      · simp only [ElseIfs.map, hc]
      · simp only [ElseIfs.map, hc', Block.cleared_cleared, ElseIfs.cleared_cleared,
          Slot.cleared, id]
    | ok hc _ =>
      dsimp only
      generalize body.check ctx t = c, (body.map id Slot.cleared).check ctx t = c' at hbody ⊢
      cases hbody with
      | error hb hb' t e =>
        apply VisitAgrees.error
        · simp only [ElseIfs.map, hc, hb]
        · simp only [ElseIfs.map, hc, hb', ElseIfs.cleared_cleared, Slot.cleared, id]
      | ok hb t =>
        have hrest := ElseIfs.check_agrees ctx t rest
        dsimp only
        generalize rest.check ctx t = c, (rest.map id Slot.cleared).check ctx t = c' at hrest ⊢
        cases hrest with
        | error hr hr' t e =>
          apply VisitAgrees.error
          · simp only [ElseIfs.map, hc, hb, hr, Slot.cleared]
          · simp only [ElseIfs.map, hc, hb, hr', Slot.cleared]
        | ok hr t => exact .ok (by simp only [ElseIfs.map, hc, hb, hr, Slot.cleared]) t

theorem Else.check_agrees (ctx : Context) (t : Tables) (b : Else) :
    VisitAgrees (Else.map id Slot.cleared) b (b.check ctx t)
      ((b.map id Slot.cleared).check ctx t) := by
  cases b with
  | absent => exact .ok rfl t
  | present keyword body slot =>
    have hbody := Block.check_agrees ctx t body
    rw [Else.map, id, Else.check, Else.check]
    generalize body.check ctx t = c, (body.map id Slot.cleared).check ctx t = c' at hbody ⊢
    cases hbody with
    | error same same' t e =>
      exact .error (by simp only [Else.map, same])
        (by simp only [Else.map, same', Slot.cleared, id]) t e
    | ok same t => exact .ok (by simp only [Else.map, same, Slot.cleared]) t

end

end TeachLang
