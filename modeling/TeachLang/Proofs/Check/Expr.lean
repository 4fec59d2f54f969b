import TeachLang.Proofs.Check.Rules
import TeachLang.Proofs.Check.Tables
import TeachLang.Proofs.Tree.Grammatical

/-! # Expressions against the rules

Tables agree with a scope when names, procedures and the return type are found in both
in the same way.  Where they agree, the check of an expression finds the type that the
rules give it, and no other.
-/

namespace TeachLang

def IsCounter (name : String) : Prop := ∃ item, name = counterName item

/-- Identifiers do not start with an underscore. -/
theorem Token.Writes.head?_ne {t : Token} (h : t.Writes .identifier) :
    t.text.toList.head? ≠ some '_' := by
  obtain ⟨⟨c, cs, htext, hstart, -⟩, -⟩ := h.2
  rw [htext, List.head?_cons]
  intro hc
  obtain rfl : c = '_' := Option.some.inj hc
  revert hstart
  decide +kernel

theorem head?_of_isCounter {name : String} (h : IsCounter name) : name.toList.head? = some '_' := by
  obtain ⟨item, rfl⟩ := h
  simp [counterName]

theorem not_isCounter_of_writes {t : Token} (h : t.Writes .identifier) : ¬ IsCounter t.text :=
  fun hcounter => h.head?_ne (head?_of_isCounter hcounter)

def Register.binding (name : String) (r : Register) : Binding := ⟨name, r.kind, r.ty⟩

def Procedure.signature (name : String) (p : Procedure) : Signature :=
  ⟨name, p.parameterTypes, p.returnType⟩

/-- Tables in which a context finds what a scope declares.  Only the hidden counters of loops may
come on top, and they are integer variables. -/
structure Tables.Agrees (t : Tables) (ctx : Context) (Γ : Scope) : Prop where
  names : ∀ x, ¬ IsCounter x → (t.lookup? ctx x).map (Register.binding x) = Γ.resolve? x
  procedures : ∀ x, (t.procedures.get? x).map (Procedure.signature x) = Γ.procedure? x
  result : (t.current? ctx).map (·.returnType) = Γ.result
  counters : ∀ x r, IsCounter x → (t.scope ctx).get? x = some r → r = .var .int

theorem Ty.accepts_iff (context value : Ty) : context.accepts value ↔ value.Flows context := by
  constructor
  · intro h
    by_cases heq : context = value
    · subst heq
      exact .refl _
    · obtain ⟨rfl, hlist⟩ : value = .list ∧ context.isList := by simpa [accepts, heq] using h
      cases context with
      | intList => exact .list (show Ty.int.toListType? = _ from rfl)
      | stringList => exact .list (show Ty.string.toListType? = _ from rfl)
      | boolList => exact .list (show Ty.bool.toListType? = _ from rfl)
      | list => exact .refl _
      | _ => simp [isList] at hlist
  · rintro (_ | ⟨h⟩)
    · simp [accepts]
    · rename_i element
      cases element <;> simp only [toListType?, Option.some.injEq, reduceCtorEq] at h
      all_goals
        subst h
        rfl

theorem BinaryOp.check_eq_ok_iff (op : BinaryOp) (symbol : Token) (a b ty : Ty) :
    op.check symbol a b = .ok ty ↔ op.HasTypes a b ty := by
  constructor
  · intro h
    unfold BinaryOp.check at h
    split at h
    case h_1 operand hoperand =>
      split at h
      next hab =>
        obtain ⟨rfl, rfl⟩ := hab
        cases h
        cases op <;> cases hoperand <;>
          first | exact .logic (by decide) | exact .order (by decide) | exact .arithmetic (by decide)
      next => cases h
    case h_2 hoperand =>
      split at h
      next ha =>
        split at h
        next hb =>
          cases h
          subst hb
          have hmem : b ∈ [Ty.int, .bool] := by simpa using ha
          cases op <;> cases hoperand <;> exact .equality (by decide) hmem
        next => cases h
      next => cases h
  · rintro (⟨h⟩ | ⟨h⟩ | ⟨h⟩ | ⟨h, hty⟩)
    all_goals simp only [List.mem_cons, List.not_mem_nil, or_false] at *
    · rcases h with rfl | rfl | rfl <;> rfl
    · rcases h with rfl | rfl | rfl | rfl <;> rfl
    · rcases h with rfl | rfl | rfl | rfl | rfl <;> rfl
    · rcases h with rfl | rfl <;> rcases hty with rfl | rfl <;> rfl

theorem UnaryOp.check_eq_ok_iff (op : UnaryOp) (symbol : Token) (a ty : Ty) :
    op.check symbol a = .ok ty ↔ op.HasTypes a ty := by
  constructor
  · intro h
    unfold UnaryOp.check at h
    split at h
    next ha =>
      cases h
      cases op <;> subst ha
      · exact .not
      · exact .negation
    next => cases h
  · rintro (_ | _) <;> rfl

theorem Literal.type_eq_ok_iff (l : Literal) (ty : Ty) :
    l.type = .ok ty ↔ l.value.Fits ∧ l.value.ty = ty := by
  unfold Literal.type LiteralValue.Fits LiteralValue.ty
  cases l.value with
  | int n =>
    change (if n ≤ maxInt then Except.ok Ty.int else _) = .ok ty ↔ n ≤ maxInt ∧ Ty.int = ty
    by_cases h : n ≤ maxInt
    · simp [h]
    · simp [h]
  | string s => simp
  | bool b => simp

theorem Literal.check_eq_ok_iff (l : Literal) (ty : Ty) :
    l.check.2 = .ok ty ↔ l.value.Fits ∧ l.value.ty = ty := by
  rw [← l.type_eq_ok_iff, Literal.check]
  cases l.type <;> simp

theorem Literal.checkAll_eq_ok_iff (expected : Ty) (ls : List Literal) :
    (Literal.checkAll expected ls).2 = .ok () ↔
      ∀ l ∈ ls, l.value.Fits ∧ l.value.ty = expected := by
  induction ls with
  | nil => simp [Literal.checkAll]
  | cons l ls ih =>
    rw [List.forall_mem_cons, ← ih, ← l.check_eq_ok_iff, Literal.checkAll]
    rcases l.check with ⟨l', e | found⟩
    · simp
    · by_cases hfound : found = expected <;> simp [hfound]

theorem ListLiteral.wellTyped_cons_iff {l : ListLiteral} {first : Literal} {rest : List Literal}
    (hl : l.elements = first :: rest) : l.WellTyped ↔ first.value.Fits ∧
      ∀ e ∈ rest, e.value.Fits ∧ e.value.ty = first.value.ty := by
  constructor
  · intro h
    refine ⟨h.fits first (by simp [hl]), fun e he => ⟨h.fits e (by simp [hl, he]), ?_⟩⟩
    exact h.homogeneous e (by simp [hl, he]) first (by simp [hl])
  · rintro ⟨hfirst, hrest⟩
    have hty : ∀ e ∈ l.elements, e.value.ty = first.value.ty := by
      rw [hl]
      exact List.forall_mem_cons.2 ⟨rfl, fun e he => (hrest e he).2⟩
    constructor
    · rw [hl]
      exact List.forall_mem_cons.2 ⟨hfirst, fun e he => (hrest e he).1⟩
    · intro a ha b hb
      rw [hty a ha, hty b hb]

theorem LiteralValue.toListType?_ty (v : LiteralValue) : v.ty.toListType? = some v.listTy := by
  cases v <;> rfl

theorem ListLiteral.check_eq_ok_iff (l : ListLiteral) (ty : Ty) :
    l.check.2 = .ok ty ↔ l.WellTyped ∧ l.ty = ty := by
  unfold ListLiteral.check ListLiteral.ty
  cases hl : l.elements with
  | nil =>
    have hempty : l.WellTyped := ⟨by simp [hl], by simp [hl]⟩
    simp [hempty]
  | cons first rest =>
    rw [wellTyped_cons_iff hl]
    have hfirst := first.check_eq_ok_iff
    rcases hcheck : first.check with ⟨first', e | found⟩
    · have hfits : ¬ first.value.Fits := fun h => by simpa [hcheck] using (hfirst _).2 ⟨h, rfl⟩
      simp [hcheck, hfits]
    · obtain ⟨hfits, rfl⟩ := (hfirst found).1 (by rw [hcheck])
      have hrest := Literal.checkAll_eq_ok_iff first.value.ty rest
      rcases hall : Literal.checkAll first.value.ty rest with ⟨rest', e | _⟩
      · rw [← hrest]
        simp [hcheck, hall]
      · rw [← hrest]
        simp [hcheck, hall, hfits, LiteralValue.toListType?_ty]

section

variable {t : Tables} {ctx : Context} {Γ : Scope}

theorem Identifier.check_eq_ok_iff {i : Identifier} (hi : i.Grammatical) (h : t.Agrees ctx Γ)
    (ty : Ty) : (i.check t ctx).2 = .ok ty ↔ ∃ b, Γ.resolve? i.name = some b ∧ b.ty = ty := by
  rw [← h.names i.name (not_isCounter_of_writes hi), Identifier.check]
  cases t.lookup? ctx i.name with
  | none => simp
  | some r => simp [Register.binding]

theorem callee_eq_ok_iff (name : Token) (count : Nat) (p : Procedure) :
    t.callee name count = .ok p ↔ t.procedures.get? name.text = some p ∧ count = p.arity := by
  unfold Tables.callee
  cases t.procedures.get? name.text with
  | none => simp
  | some q =>
    by_cases hcount : count = q.arity
    · simp only [if_pos hcount, Except.ok.injEq, Option.some.injEq]
      constructor
      · rintro rfl
        exact ⟨rfl, hcount⟩
      · exact And.left
    · simp only [if_neg hcount, reduceCtorEq, Option.some.injEq, false_iff]
      rintro ⟨rfl, hq⟩
      exact hcount hq

theorem elementType_eq_ok_iff (opening : Token) (whole : Ty) (position : Expr) (found ty : Ty) :
    elementType opening whole position found = .ok ty ↔
      found = .int ∧ whole.elementType? = some ty := by
  unfold elementType
  by_cases h : found = .int
  · cases whole.elementType? <;> simp [h]
  · simp [h]

theorem bind_eq_ok_iff {ε α β : Type} {x : Except ε α} {f : α → Except ε β} {b : β} :
    (x >>= f) = .ok b ↔ ∃ a, x = .ok a ∧ f a = .ok b := by
  cases x <;> simp [bind, Except.bind]

/-! The types that the checks of compound expressions find, without the trees that they leave. -/

theorem Expr.check_call_snd (callee : Token) (args : List Expr) (slot : Slot) :
    ((Expr.call callee args slot).check t ctx).2 =
      (t.callee callee args.length >>= fun p =>
        (Expr.checkArgs t ctx p.parameters args).2 >>= fun _ => .ok p.returnType) := by
  rw [Expr.check]
  cases t.callee callee args.length with
  | error e => rfl
  | ok p =>
    rcases hargs : Expr.checkArgs t ctx p.parameters args with ⟨args', e | _⟩ <;>
      simp [hargs, bind, Except.bind]

theorem Expr.check_index_snd (target position : Expr) (opening : Token) (slot : Slot) :
    ((Expr.index target opening position slot).check t ctx).2 =
      ((target.check t ctx).2 >>= fun whole => (position.check t ctx).2 >>= fun found =>
        elementType opening whole (position.check t ctx).1 found) := by
  rw [Expr.check]
  rcases target.check t ctx with ⟨target', e | whole⟩
  · rfl
  rcases position.check t ctx with ⟨position', e | found⟩
  · rfl
  cases h : elementType opening whole position' found <;> simp [h, bind, Except.bind]

theorem Expr.check_binary_snd (op : BinaryOp) (symbol : Token) (lhs rhs : Expr) (slot : Slot) :
    ((Expr.binary op symbol lhs rhs slot).check t ctx).2 =
      ((lhs.check t ctx).2 >>= fun a => (rhs.check t ctx).2 >>= fun b => op.check symbol a b) := by
  rw [Expr.check]
  rcases lhs.check t ctx with ⟨lhs', e | a⟩
  · rfl
  rcases rhs.check t ctx with ⟨rhs', e | b⟩
  · rfl
  cases h : op.check symbol a b <;> simp [h, bind, Except.bind]

theorem Expr.check_unary_snd (op : UnaryOp) (symbol : Token) (operand : Expr) (slot : Slot) :
    ((Expr.unary op symbol operand slot).check t ctx).2 =
      ((operand.check t ctx).2 >>= fun a => op.check symbol a) := by
  rw [Expr.check]
  rcases operand.check t ctx with ⟨operand', e | a⟩
  · rfl
  cases h : op.check symbol a <;> simp [h, bind, Except.bind]

theorem Expr.checkArgs_cons_eq_ok_iff (p : String × Ty) (ps : List (String × Ty)) (e : Expr)
    (es : List Expr) : (Expr.checkArgs t ctx (p :: ps) (e :: es)).2 = .ok () ↔
      ∃ ty, (e.check t ctx).2 = .ok ty ∧ p.2.accepts ty ∧
        (Expr.checkArgs t ctx ps es).2 = .ok () := by
  rw [Expr.checkArgs]
  rcases e.check t ctx with ⟨e', error | ty⟩
  · simp
  · by_cases h : p.2.accepts ty <;> simp [h]

theorem Expr.Fit.length_eq {es : List Expr} {parameters : List Ty}
    (h : Expr.Fit Γ es parameters) : es.length = parameters.length := by
  induction es generalizing parameters with
  | nil => cases h; rfl
  | cons e es ih => cases h with | cons _ _ hfit => simp [ih hfit]

mutual

/-- The check of an expression finds exactly the type that the rules give it. -/
theorem Expr.check_eq_ok_iff (h : t.Agrees ctx Γ) (e : Expr) (he : e.Grammatical) (ty : Ty) :
    (e.check t ctx).2 = .ok ty ↔ e.HasType Γ ty := by
  cases e with
  | name i =>
    rw [Expr.check, Identifier.check_eq_ok_iff he h]
    constructor
    · rintro ⟨b, hb, rfl⟩
      exact .name hb
    · intro hname
      cases hname with | name hb =>
      exact ⟨_, hb, rfl⟩
  | call callee args slot =>
    simp only [Expr.check_call_snd, bind_eq_ok_iff, callee_eq_ok_iff]
    constructor
    · rintro ⟨p, ⟨hp, hcount⟩, u, hargs, hty⟩
      cases hty
      have hs := h.procedures callee.text
      rw [hp] at hs
      exact .call hs.symm ((Expr.checkArgs_eq_ok_iff h p.parameters args he.2 hcount).1 hargs)
    · intro hcall
      cases hcall with | call hs hfit =>
      rw [← h.procedures, Option.map_eq_some_iff] at hs
      obtain ⟨p, hp, rfl⟩ := hs
      have hcount : args.length = p.parameters.length := by
        simpa [Procedure.signature, Procedure.parameterTypes] using hfit.length_eq
      exact ⟨p, ⟨hp, hcount⟩, (), (Expr.checkArgs_eq_ok_iff h p.parameters args he.2 hcount).2 hfit,
        rfl⟩
  | index target opening position slot =>
    simp only [Expr.check_index_snd, bind_eq_ok_iff, elementType_eq_ok_iff,
      Expr.check_eq_ok_iff h target he.1, Expr.check_eq_ok_iff h position he.2.2]
    constructor
    · rintro ⟨whole, hwhole, found, hposition, rfl, helement⟩
      exact .index hwhole hposition helement
    · intro hindex
      cases hindex with | index hwhole hposition helement =>
      exact ⟨_, hwhole, _, hposition, rfl, helement⟩
  | literal l =>
    rw [Expr.check, l.check_eq_ok_iff]
    constructor
    · rintro ⟨hfits, rfl⟩
      exact .literal hfits
    · intro hliteral
      cases hliteral with | literal hfits =>
      exact ⟨hfits, rfl⟩
  | list l =>
    rw [Expr.check, l.check_eq_ok_iff]
    constructor
    · rintro ⟨hwell, rfl⟩
      exact .list hwell
    · intro hlist
      cases hlist with | list hwell =>
      exact ⟨hwell, rfl⟩
  | binary op symbol lhs rhs slot =>
    simp only [Expr.check_binary_snd, bind_eq_ok_iff, BinaryOp.check_eq_ok_iff,
      Expr.check_eq_ok_iff h lhs he.2.1, Expr.check_eq_ok_iff h rhs he.2.2]
    constructor
    · rintro ⟨a, ha, b, hb, htypes⟩
      exact .binary ha hb htypes
    · intro hbinary
      cases hbinary with | binary ha hb htypes =>
      exact ⟨_, ha, _, hb, htypes⟩
  | unary op symbol operand slot =>
    simp only [Expr.check_unary_snd, bind_eq_ok_iff, UnaryOp.check_eq_ok_iff,
      Expr.check_eq_ok_iff h operand he.2]
    constructor
    · rintro ⟨a, ha, htypes⟩
      exact .unary ha htypes
    · intro hunary
      cases hunary with | unary ha htypes =>
      exact ⟨_, ha, htypes⟩

theorem Expr.checkArgs_eq_ok_iff (h : t.Agrees ctx Γ) (ps : List (String × Ty)) (es : List Expr)
    (hes : Expr.AllGrammatical es) (hlength : es.length = ps.length) :
    (Expr.checkArgs t ctx ps es).2 = .ok () ↔ Expr.Fit Γ es (ps.map (·.2)) := by
  cases es with
  | nil =>
    obtain rfl : ps = [] := List.length_eq_zero_iff.1 hlength.symm
    exact iff_of_true rfl .nil
  | cons e es =>
    obtain ⟨p, ps, rfl⟩ := List.exists_cons_of_length_eq_add_one hlength.symm
    have htail := Expr.checkArgs_eq_ok_iff h ps es hes.2 (by simpa using hlength)
    rw [Expr.checkArgs_cons_eq_ok_iff, htail]
    constructor
    · rintro ⟨ty, hty, haccepts, hfit⟩
      exact .cons ((Expr.check_eq_ok_iff h e hes.1 ty).1 hty) ((Ty.accepts_iff _ _).1 haccepts) hfit
    · intro hall
      cases hall with | cons hty hflows hfit =>
      exact ⟨_, (Expr.check_eq_ok_iff h e hes.1 _).2 hty, (Ty.accepts_iff _ _).2 hflows, hfit⟩

end

end

end TeachLang
