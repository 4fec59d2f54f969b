import TeachLang.Proofs.Check.Statement
import TeachLang.Proofs.Tree.Map

/-! # Checks of expressions with old types

A tree that has been checked before holds types in its slots.  A check writes every slot before
anything reads it, so it goes the same way as the check of the tree with empty slots, and whatever
it leaves differs from the tree that came in by types only.
-/

namespace TeachLang

/-- Two checks that read the tables, of one tree and of the tree after `clear`, agree: they find the
same, and leave the tree as it is up to `clear`.  If they succeed they leave one tree. -/
inductive Agrees {α β : Type} (clear : α → α) (a : α) : Checked α β → Checked α β → Prop
  | ok {a' : α} (same : clear a' = clear a) (b : β) : Agrees clear a (a', .ok b) (a', .ok b)
  | error {a' a'' : α} (same : clear a' = clear a) (same' : clear a'' = clear a)
      (e : SemanticError) : Agrees clear a (a', .error e) (a'', .error e)

/-! To clear a tree twice is to clear it once. -/

theorem Literal.cleared_cleared (l : Literal) :
    (l.map id Slot.cleared).map id Slot.cleared = l.map id Slot.cleared :=
  l.map_map ..

theorem Expr.cleared_cleared (e : Expr) :
    (e.map id Slot.cleared).map id Slot.cleared = e.map id Slot.cleared :=
  e.map_map ..

theorem Expr.allCleared_allCleared (es : List Expr) :
    Expr.mapAll id Slot.cleared (Expr.mapAll id Slot.cleared es) =
      Expr.mapAll id Slot.cleared es :=
  Expr.mapAll_mapAll _ _ _ _ es

theorem Literal.check_agrees (l : Literal) :
    Agrees (Literal.map id Slot.cleared) l l.check (l.map id Slot.cleared).check := by
  have htype : (l.map id Slot.cleared).type = l.type := rfl
  rw [check, check, htype]
  cases l.type with
  | ok ty =>
    have same : ({ l with slot := some ty } : Literal).map id Slot.cleared =
        l.map id Slot.cleared := rfl
    exact .ok same ty
  | error e => exact .error rfl l.cleared_cleared e

theorem Literal.checkAll_agrees (expected : Ty) (ls : List Literal) :
    Agrees (List.map (Literal.map id Slot.cleared)) ls (Literal.checkAll expected ls)
      (Literal.checkAll expected (ls.map (Literal.map id Slot.cleared))) := by
  induction ls with
  | nil => exact .ok rfl ()
  | cons l ls ih =>
    have hhead := l.check_agrees
    rw [List.map_cons, checkAll, checkAll]
    generalize l.check = c, (l.map id Slot.cleared).check = c' at hhead ⊢
    cases hhead with
    | error same same' e =>
      exact .error (by simp [same]) (by simp [same', Function.comp_def, cleared_cleared]) e
    | @ok l' same found =>
      by_cases hfound : found = expected
      · simp only [if_pos hfound]
        generalize checkAll expected ls = cs,
          checkAll expected (ls.map (Literal.map id Slot.cleared)) = cs' at ih ⊢
        cases ih with
        | error hls hls' e => exact .error (by simp [same, hls]) (by simp [same, hls']) e
        | ok hls _ => exact .ok (by simp [same, hls]) ()
      · simp only [if_neg hfound]
        exact .error (by simp [same]) (by simp [same, Function.comp_def, cleared_cleared]) _

theorem ListLiteral.check_agrees (l : ListLiteral) :
    Agrees (ListLiteral.map id Slot.cleared) l l.check (l.map id Slot.cleared).check := by
  obtain ⟨opening, elements, slot⟩ := l
  cases elements with
  | nil => exact .ok (by simp [ListLiteral.map, Slot.cleared]) Ty.list
  | cons first rest =>
    have hhead := first.check_agrees
    simp only [check, ListLiteral.map, List.map_cons]
    generalize first.check = c, (first.map id Slot.cleared).check = c' at hhead ⊢
    cases hhead with
    | error same same' e =>
      apply Agrees.error
      · simp [ListLiteral.map, same]
      · simp [ListLiteral.map, same', Function.comp_def, Literal.cleared_cleared, Slot.cleared]
    | @ok first' same ty =>
      have htail := Literal.checkAll_agrees ty rest
      dsimp only
      generalize Literal.checkAll ty rest = c,
        Literal.checkAll ty (rest.map (Literal.map id Slot.cleared)) = c' at htail ⊢
      cases htail with
      | error hrest hrest' e =>
        apply Agrees.error
        · simp [ListLiteral.map, same, hrest]
        · simp [ListLiteral.map, same, hrest', Slot.cleared]
      | ok hrest _ => exact .ok (by simp [ListLiteral.map, same, hrest, Slot.cleared]) _

section

variable (t : Tables) (ctx : Context)

theorem Identifier.check_agrees (i : Identifier) :
    Agrees (Identifier.map id Slot.cleared) i (i.check t ctx)
      ((i.map id Slot.cleared).check t ctx) := by
  have hname : (i.map id Slot.cleared).name = i.name := rfl
  rw [check, check, hname]
  cases t.lookup? ctx i.name with
  | some register =>
    have same : ({ i with slot := some register.ty } : Identifier).map id Slot.cleared =
        i.map id Slot.cleared := rfl
    exact .ok same register.ty
  | none => exact .error rfl (i.map_map ..) _

variable {t ctx}

/-! Every kind of expression agrees where its parts do. -/

theorem checkCall_agrees_of_args (callee : Token) {args : List Expr}
    (hargs : ∀ ps : List (String × Ty), args.length ≤ ps.length →
      Agrees (Expr.mapAll id Slot.cleared) args (Expr.checkArgs t ctx ps args)
        (Expr.checkArgs t ctx ps (Expr.mapAll id Slot.cleared args))) :
    Agrees (Expr.mapAll id Slot.cleared) args (checkCall t ctx callee args)
      (checkCall t ctx callee (Expr.mapAll id Slot.cleared args)) := by
  have hlength : (Expr.mapAll id Slot.cleared args).length = args.length := by
    simp [Expr.mapAll_eq_map]
  rw [checkCall, checkCall, hlength]
  cases hcallee : t.callee callee args.length with
  | error e => exact .error rfl (Expr.allCleared_allCleared args) e
  | ok p =>
    obtain ⟨-, hcount⟩ := (callee_eq_ok_iff callee args.length p).1 hcallee
    have hargs := hargs p.parameters (Nat.le_of_eq hcount)
    dsimp only
    generalize Expr.checkArgs t ctx p.parameters args = c,
      Expr.checkArgs t ctx p.parameters (Expr.mapAll id Slot.cleared args) = c' at hargs ⊢
    cases hargs with
    | error same same' e => exact .error same same' e
    | ok same _ => exact .ok same p.returnType

theorem Expr.call_agrees {callee : Token} {args : List Expr} (slot : Slot)
    (hcall : Agrees (Expr.mapAll id Slot.cleared) args (checkCall t ctx callee args)
      (checkCall t ctx callee (Expr.mapAll id Slot.cleared args))) :
    Agrees (Expr.map id Slot.cleared) (.call callee args slot)
      ((Expr.call callee args slot).check t ctx)
      (((Expr.call callee args slot).map id Slot.cleared).check t ctx) := by
  rw [Expr.map, id, check_call, check_call]
  generalize checkCall t ctx callee args = c,
    checkCall t ctx callee (Expr.mapAll id Slot.cleared args) = c' at hcall ⊢
  cases hcall with
  | error same same' e =>
    exact .error (by simp only [Expr.map, same]) (by simp only [Expr.map, same', Slot.cleared]) e
  | ok same ty => exact .ok (by simp only [Expr.map, same, Slot.cleared]) ty

theorem Expr.index_agrees {target position : Expr} (opening : Token) (slot : Slot)
    (htarget : Agrees (Expr.map id Slot.cleared) target (target.check t ctx)
      ((target.map id Slot.cleared).check t ctx))
    (hposition : Agrees (Expr.map id Slot.cleared) position (position.check t ctx)
      ((position.map id Slot.cleared).check t ctx)) :
    Agrees (Expr.map id Slot.cleared) (.index target opening position slot)
      ((Expr.index target opening position slot).check t ctx)
      (((Expr.index target opening position slot).map id Slot.cleared).check t ctx) := by
  rw [Expr.map, id, check, check]
  generalize target.check t ctx = c, (target.map id Slot.cleared).check t ctx = c' at htarget ⊢
  cases htarget with
  | error same same' e =>
    apply Agrees.error
    · simp only [Expr.map, same]
    · simp only [Expr.map, same', cleared_cleared, Slot.cleared, id]
  | @ok target' same targetTy =>
    dsimp only
    generalize position.check t ctx = c, (position.map id Slot.cleared).check t ctx = c'
      at hposition ⊢
    cases hposition with
    | error hp hp' e =>
      apply Agrees.error
      · simp only [Expr.map, same, hp]
      · simp only [Expr.map, same, hp', Slot.cleared, id]
    | @ok position' hp found =>
      dsimp only
      cases elementType opening targetTy position' found with
      | error e =>
        apply Agrees.error
        · simp only [Expr.map, same, hp]
        · simp only [Expr.map, same, hp, Slot.cleared, id]
      | ok ty => exact .ok (by simp only [Expr.map, same, hp, Slot.cleared]) ty

theorem Expr.binary_agrees (op : BinaryOp) (symbol : Token) {lhs rhs : Expr} (slot : Slot)
    (hlhs : Agrees (Expr.map id Slot.cleared) lhs (lhs.check t ctx)
      ((lhs.map id Slot.cleared).check t ctx))
    (hrhs : Agrees (Expr.map id Slot.cleared) rhs (rhs.check t ctx)
      ((rhs.map id Slot.cleared).check t ctx)) :
    Agrees (Expr.map id Slot.cleared) (.binary op symbol lhs rhs slot)
      ((Expr.binary op symbol lhs rhs slot).check t ctx)
      (((Expr.binary op symbol lhs rhs slot).map id Slot.cleared).check t ctx) := by
  rw [Expr.map, id, check, check]
  generalize lhs.check t ctx = c, (lhs.map id Slot.cleared).check t ctx = c' at hlhs ⊢
  cases hlhs with
  | error same same' e =>
    apply Agrees.error
    · simp only [Expr.map, same]
    · simp only [Expr.map, same', cleared_cleared, Slot.cleared, id]
  | @ok lhs' same lhsTy =>
    dsimp only
    generalize rhs.check t ctx = c, (rhs.map id Slot.cleared).check t ctx = c' at hrhs ⊢
    cases hrhs with
    | error hr hr' e =>
      apply Agrees.error
      · simp only [Expr.map, same, hr]
      · simp only [Expr.map, same, hr', Slot.cleared, id]
    | @ok rhs' hr rhsTy =>
      dsimp only
      cases op.check symbol lhsTy rhsTy with
      | error e =>
        apply Agrees.error
        · simp only [Expr.map, same, hr]
        · simp only [Expr.map, same, hr, Slot.cleared, id]
      | ok ty => exact .ok (by simp only [Expr.map, same, hr, Slot.cleared]) ty

theorem Expr.unary_agrees (op : UnaryOp) (symbol : Token) {operand : Expr} (slot : Slot)
    (hoperand : Agrees (Expr.map id Slot.cleared) operand (operand.check t ctx)
      ((operand.map id Slot.cleared).check t ctx)) :
    Agrees (Expr.map id Slot.cleared) (.unary op symbol operand slot)
      ((Expr.unary op symbol operand slot).check t ctx)
      (((Expr.unary op symbol operand slot).map id Slot.cleared).check t ctx) := by
  rw [Expr.map, id, check, check]
  generalize operand.check t ctx = c, (operand.map id Slot.cleared).check t ctx = c'
    at hoperand ⊢
  cases hoperand with
  | error same same' e =>
    apply Agrees.error
    · simp only [Expr.map, same]
    · simp only [Expr.map, same', Slot.cleared, id]
  | @ok operand' same operandTy =>
    dsimp only
    cases op.check symbol operandTy with
    | error e =>
      apply Agrees.error
      · simp only [Expr.map, same]
      · simp only [Expr.map, same, Slot.cleared, id]
    | ok ty => exact .ok (by simp only [Expr.map, same, Slot.cleared]) ty

variable (t ctx)

mutual

theorem Expr.check_agrees (e : Expr) :
    Agrees (Expr.map id Slot.cleared) e (e.check t ctx) ((e.map id Slot.cleared).check t ctx) := by
  cases e with
  | name i =>
    have hi := i.check_agrees t ctx
    rw [Expr.map, check, check]
    generalize i.check t ctx = c, (i.map id Slot.cleared).check t ctx = c' at hi ⊢
    cases hi with
    | ok same ty => exact .ok (congrArg Expr.name same) ty
    | error same same' e => exact .error (congrArg Expr.name same) (congrArg Expr.name same') e
  | call callee args slot =>
    exact Expr.call_agrees slot (checkCall_agrees_of_args callee
      fun ps hlength => Expr.checkArgs_agrees args ps hlength)
  | index target opening position slot =>
    exact Expr.index_agrees opening slot (Expr.check_agrees target) (Expr.check_agrees position)
  | literal l =>
    have hl := l.check_agrees
    rw [Expr.map, check, check]
    generalize l.check = c, (l.map id Slot.cleared).check = c' at hl ⊢
    cases hl with
    | ok same ty => exact .ok (congrArg Expr.literal same) ty
    | error same same' e =>
      exact .error (congrArg Expr.literal same) (congrArg Expr.literal same') e
  | list l =>
    have hl := l.check_agrees
    rw [Expr.map, check, check]
    generalize l.check = c, (l.map id Slot.cleared).check = c' at hl ⊢
    cases hl with
    | ok same ty => exact .ok (congrArg Expr.list same) ty
    | error same same' e => exact .error (congrArg Expr.list same) (congrArg Expr.list same') e
  | binary op symbol lhs rhs slot =>
    exact Expr.binary_agrees op symbol slot (Expr.check_agrees lhs) (Expr.check_agrees rhs)
  | unary op symbol operand slot =>
    exact Expr.unary_agrees op symbol slot (Expr.check_agrees operand)

theorem Expr.checkArgs_agrees (es : List Expr) (ps : List (String × Ty))
    (hlength : es.length ≤ ps.length) :
    Agrees (Expr.mapAll id Slot.cleared) es (Expr.checkArgs t ctx ps es)
      (Expr.checkArgs t ctx ps (Expr.mapAll id Slot.cleared es)) := by
  cases es with
  | nil => exact .ok rfl ()
  | cons e es =>
    cases ps with
    | nil => simp at hlength
    | cons p ps =>
      have hhead := Expr.check_agrees e
      have htail := Expr.checkArgs_agrees es ps (Nat.le_of_succ_le_succ hlength)
      obtain ⟨parameter, expected⟩ := p
      rw [Expr.mapAll, checkArgs, checkArgs]
      generalize e.check t ctx = c, (e.map id Slot.cleared).check t ctx = c' at hhead ⊢
      cases hhead with
      | error same same' e =>
        apply Agrees.error
        · simp only [Expr.mapAll, same]
        · simp only [Expr.mapAll, same', allCleared_allCleared]
      | @ok e' same found =>
        by_cases haccepts : expected.accepts found = true
        · simp only [if_pos haccepts]
          generalize Expr.checkArgs t ctx ps es = c,
            Expr.checkArgs t ctx ps (Expr.mapAll id Slot.cleared es) = c' at htail ⊢
          cases htail with
          | error hes hes' e =>
            exact .error (by simp only [Expr.mapAll, same, hes])
              (by simp only [Expr.mapAll, same, hes']) e
          | ok hes _ => exact .ok (by simp only [Expr.mapAll, same, hes]) ()
        · simp only [if_neg haccepts]
          exact .error (by simp only [Expr.mapAll, same])
            (by simp only [Expr.mapAll, same, allCleared_allCleared]) _

end

theorem checkCall_agrees (callee : Token) (args : List Expr) :
    Agrees (Expr.mapAll id Slot.cleared) args (checkCall t ctx callee args)
      (checkCall t ctx callee (Expr.mapAll id Slot.cleared args)) :=
  checkCall_agrees_of_args callee fun ps hlength => Expr.checkArgs_agrees t ctx args ps hlength

end

end TeachLang
