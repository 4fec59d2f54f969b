import TeachLang.Proofs.Check.Statement
import TeachLang.Proofs.Slots.BottomUp.Node

/-! # Slots of expressions from the leaves up

An expression gets its type when all its parts have theirs.
-/

namespace TeachLang

open Node

theorem Literal.check_fills (l : Literal) : Fills (fun l => [l.toNode]) l l.check := by
  rw [check]
  cases l.type with
  | ok ty => exact .ok (by simp [toNode]) ty
  | error e => exact .error (.refl _) e

theorem Literal.checkAll_fills (expected : Ty) (ls : List Literal) :
    Fills (List.map toNode) ls (checkAll expected ls) := by
  induction ls with
  | nil => exact .ok allFilled_nil ()
  | cons l ls ih =>
    have hhead := l.check_fills
    rw [checkAll]
    generalize l.check = c at hhead ⊢
    cases hhead with
    | error hl e =>
      apply Fills.error
      exact .cons hl (.refl _)
    | ok hl found =>
      by_cases hfound : found = expected
      · simp only [if_pos hfound]
        generalize checkAll expected ls = c at ih ⊢
        cases ih with
        | error hls e =>
          apply Fills.error
          exact .cons (.of_filled hl) hls
        | ok hls _ => exact .ok (by simp_all) ()
      · simp only [if_neg hfound]
        apply Fills.error
        exact .cons (.of_filled hl) (.refl _)

theorem ListLiteral.check_fills (l : ListLiteral) : Fills (fun l => [l.toNode]) l l.check := by
  obtain ⟨opening, elements, slot⟩ := l
  cases elements with
  | nil => exact .ok (by simp [toNode]) Ty.list
  | cons first rest =>
    have hhead := first.check_fills
    rw [check]
    dsimp only
    generalize first.check = c at hhead ⊢
    cases hhead with
    | error hfirst e =>
      apply Fills.error
      exact .node rfl (.cons hfirst (.refl _))
    | ok hfirst ty =>
      have htail := Literal.checkAll_fills ty rest
      dsimp only
      generalize Literal.checkAll ty rest = c at htail ⊢
      cases htail with
      | error hrest e =>
        apply Fills.error
        exact .node rfl (.cons (.of_filled hfirst) hrest)
      | ok hrest _ => exact .ok (by simp_all [toNode]) _

section

variable (t : Tables) (ctx : Context)

theorem Identifier.check_fills (i : Identifier) :
    Fills (fun i => [i.toNode]) i (i.check t ctx) := by
  rw [check]
  cases t.lookup? ctx i.name with
  | some register => exact .ok (by simp [toNode]) register.ty
  | none => exact .error (.refl _) _

variable {t ctx}

/-- All arguments are checked, since their number is that of the parameters. -/
theorem checkCall_fills_of_args (callee : Token) {args : List Expr}
    (hargs : ∀ ps : List (String × Ty), args.length ≤ ps.length →
      Fills Expr.toNodes args (Expr.checkArgs t ctx ps args)) :
    Fills Expr.toNodes args (checkCall t ctx callee args) := by
  rw [checkCall]
  cases hcallee : t.callee callee args.length with
  | error e => exact .error (.refl _) e
  | ok p =>
    obtain ⟨-, hcount⟩ := (callee_eq_ok_iff callee args.length p).1 hcallee
    have hargs := hargs p.parameters (Nat.le_of_eq hcount)
    dsimp only
    generalize Expr.checkArgs t ctx p.parameters args = c at hargs ⊢
    cases hargs with
    | error h e => exact .error h e
    | ok h _ => exact .ok h p.returnType

theorem Expr.call_fills {callee : Token} {args : List Expr} (slot : Slot)
    (hcall : Fills Expr.toNodes args (checkCall t ctx callee args)) :
    Fills (fun e => [e.toNode]) (.call callee args slot)
      ((Expr.call callee args slot).check t ctx) := by
  rw [check_call]
  generalize checkCall t ctx callee args = c at hcall ⊢
  cases hcall with
  | error h e =>
    apply Fills.error
    exact .node rfl h
  | ok h ty => exact .ok (by simpa [toNode] using h) ty

theorem Expr.index_fills {target position : Expr} (opening : Token) (slot : Slot)
    (htarget : Fills (fun e => [e.toNode]) target (target.check t ctx))
    (hposition : Fills (fun e => [e.toNode]) position (position.check t ctx)) :
    Fills (fun e => [e.toNode]) (.index target opening position slot)
      ((Expr.index target opening position slot).check t ctx) := by
  rw [check]
  generalize target.check t ctx = c at htarget ⊢
  cases htarget with
  | error ht e =>
    apply Fills.error
    exact .node rfl (.cons ht (.refl _))
  | ok ht targetTy =>
    dsimp only
    generalize position.check t ctx = c at hposition ⊢
    cases hposition with
    | error hp e =>
      apply Fills.error
      exact .node rfl (.cons (.of_filled ht) hp)
    | @ok position' hp found =>
      dsimp only
      cases elementType opening targetTy position' found with
      | error e =>
        apply Fills.error
        exact .node rfl (.cons (.of_filled ht) (.of_filled hp))
      | ok ty => exact .ok (by simp_all [toNode]) ty

theorem Expr.binary_fills (op : BinaryOp) (symbol : Token) {lhs rhs : Expr} (slot : Slot)
    (hlhs : Fills (fun e => [e.toNode]) lhs (lhs.check t ctx))
    (hrhs : Fills (fun e => [e.toNode]) rhs (rhs.check t ctx)) :
    Fills (fun e => [e.toNode]) (.binary op symbol lhs rhs slot)
      ((Expr.binary op symbol lhs rhs slot).check t ctx) := by
  rw [check]
  generalize lhs.check t ctx = c at hlhs ⊢
  cases hlhs with
  | error hl e =>
    apply Fills.error
    exact .node rfl (.cons hl (.refl _))
  | ok hl lhsTy =>
    dsimp only
    generalize rhs.check t ctx = c at hrhs ⊢
    cases hrhs with
    | error hr e =>
      apply Fills.error
      exact .node rfl (.cons (.of_filled hl) hr)
    | ok hr rhsTy =>
      dsimp only
      cases op.check symbol lhsTy rhsTy with
      | error e =>
        apply Fills.error
        exact .node rfl (.cons (.of_filled hl) (.of_filled hr))
      | ok ty => exact .ok (by simp_all [toNode]) ty

theorem Expr.unary_fills (op : UnaryOp) (symbol : Token) {operand : Expr} (slot : Slot)
    (hoperand : Fills (fun e => [e.toNode]) operand (operand.check t ctx)) :
    Fills (fun e => [e.toNode]) (.unary op symbol operand slot)
      ((Expr.unary op symbol operand slot).check t ctx) := by
  rw [check]
  generalize operand.check t ctx = c at hoperand ⊢
  cases hoperand with
  | error h e =>
    apply Fills.error
    exact .node rfl h
  | ok h operandTy =>
    dsimp only
    cases op.check symbol operandTy with
    | error e =>
      apply Fills.error
      exact .node rfl (.of_filled h)
    | ok ty => exact .ok (by simp_all [toNode]) ty

variable (t ctx)

mutual

theorem Expr.check_fills (e : Expr) : Fills (fun e => [e.toNode]) e (e.check t ctx) := by
  cases e with
  | name i =>
    have hi := i.check_fills t ctx
    rw [Expr.check]
    generalize i.check t ctx = c at hi ⊢
    cases hi with
    | ok h ty =>
      apply Fills.ok
      exact h
    | error h e =>
      apply Fills.error
      exact h
  | call callee args slot =>
    exact Expr.call_fills slot (checkCall_fills_of_args callee
      fun ps hlength => Expr.checkArgs_fills args ps hlength)
  | index target opening position slot =>
    exact Expr.index_fills opening slot (Expr.check_fills target) (Expr.check_fills position)
  | literal l =>
    have hl := l.check_fills
    rw [Expr.check]
    generalize l.check = c at hl ⊢
    cases hl with
    | ok h ty =>
      apply Fills.ok
      exact h
    | error h e =>
      apply Fills.error
      exact h
  | list l =>
    have hl := l.check_fills
    rw [Expr.check]
    generalize l.check = c at hl ⊢
    cases hl with
    | ok h ty =>
      apply Fills.ok
      exact h
    | error h e =>
      apply Fills.error
      exact h
  | binary op symbol lhs rhs slot =>
    exact Expr.binary_fills op symbol slot (Expr.check_fills lhs) (Expr.check_fills rhs)
  | unary op symbol operand slot =>
    exact Expr.unary_fills op symbol slot (Expr.check_fills operand)

theorem Expr.checkArgs_fills (es : List Expr) (ps : List (String × Ty))
    (hlength : es.length ≤ ps.length) : Fills Expr.toNodes es (Expr.checkArgs t ctx ps es) := by
  cases es with
  | nil => exact .ok allFilled_nil ()
  | cons e es =>
    cases ps with
    | nil => simp at hlength
    | cons p ps =>
      have hhead := Expr.check_fills e
      have htail := Expr.checkArgs_fills es ps (Nat.le_of_succ_le_succ hlength)
      obtain ⟨parameter, expected⟩ := p
      rw [Expr.checkArgs]
      generalize e.check t ctx = c at hhead ⊢
      cases hhead with
      | error he e =>
        apply Fills.error
        exact .cons he (.refl _)
      | ok he found =>
        by_cases haccepts : expected.accepts found = true
        · simp only [if_pos haccepts]
          generalize Expr.checkArgs t ctx ps es = c at htail ⊢
          cases htail with
          | error hes e =>
            apply Fills.error
            exact .cons (.of_filled he) hes
          | ok hes _ => exact .ok (by simp_all [toNodes]) ()
        · simp only [if_neg haccepts]
          apply Fills.error
          exact .cons (.of_filled he) (.refl _)

end

theorem checkCall_fills (callee : Token) (args : List Expr) :
    Fills Expr.toNodes args (checkCall t ctx callee args) :=
  checkCall_fills_of_args callee fun ps hlength => Expr.checkArgs_fills t ctx args ps hlength

end
end TeachLang
