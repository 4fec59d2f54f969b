import TeachLang.Proofs.Flow.Declared
import TeachLang.Proofs.Slots.Settled

/-! # Types in slots

An expression of a checked tree has the type that the rules give it in its slot.
-/

namespace TeachLang

structure Scope.FoundIn (Γ : Scope) (T : Tables) (procedure : Option String) : Prop where
  names : ∀ x b, ¬ IsCounter x → Γ.resolve? x = some b → T.typeOf? procedure x = some b.ty
  returns : ∀ x s, Γ.procedure? x = some s → T.returnType? x = some s.returnType

/-- An expression of a checked tree: it can be written, the rules give it a type, and its slots are
settled. -/
structure Expr.Checked (Γ : Scope) (T : Tables) (procedure : Option String) (e : Expr) (ty : Ty) :
    Prop where
  written : e.Grammatical
  typed : e.HasType Γ ty
  settled : e.toNode.Settled T procedure

theorem Node.Settled.child {T : Tables} {procedure : Option String} {n c : Node}
    (h : n.Settled T procedure) (hc : c ∈ n.children) : c.Settled T (n.inner procedure) := by
  cases h with | mk _ _ hchildren =>
  exact hchildren c hc

theorem Expr.slot_toNode (e : Expr) : e.toNode.slot = e.slot := by cases e <;> rfl

namespace Expr.Checked

variable {Γ : Scope} {T : Tables} {procedure : Option String} {ty : Ty} {slot : Slot}

theorem index {target position : Expr} {opening : Token}
    (h : (Expr.index target opening position slot).Checked Γ T procedure ty) :
    ∃ whole, target.Checked Γ T procedure whole ∧ position.Checked Γ T procedure .int ∧
      whole.elementType? = some ty := by
  obtain ⟨⟨htarget, -, hposition⟩, htype, hsettled⟩ := h
  cases htype with | index hwhole hint helement =>
  exact ⟨_, ⟨htarget, hwhole, hsettled.child (by simp [toNode])⟩,
    ⟨hposition, hint, hsettled.child (by simp [toNode])⟩, helement⟩

theorem binary {op : BinaryOp} {symbol : Token} {lhs rhs : Expr}
    (h : (Expr.binary op symbol lhs rhs slot).Checked Γ T procedure ty) :
    ∃ a b, lhs.Checked Γ T procedure a ∧ rhs.Checked Γ T procedure b ∧ op.HasTypes a b ty := by
  obtain ⟨⟨-, hlhs, hrhs⟩, htype, hsettled⟩ := h
  cases htype with | binary ha hb htypes =>
  exact ⟨_, _, ⟨hlhs, ha, hsettled.child (by simp [toNode])⟩,
    ⟨hrhs, hb, hsettled.child (by simp [toNode])⟩, htypes⟩

theorem unary {op : UnaryOp} {symbol : Token} {operand : Expr}
    (h : (Expr.unary op symbol operand slot).Checked Γ T procedure ty) :
    ∃ a, operand.Checked Γ T procedure a ∧ op.HasTypes a ty := by
  obtain ⟨⟨-, hoperand⟩, htype, hsettled⟩ := h
  cases htype with | unary ha htypes =>
  exact ⟨_, ⟨hoperand, ha, hsettled.child (by simp [toNode])⟩, htypes⟩

end Expr.Checked

section

variable {Γ : Scope} {T : Tables} {procedure : Option String}

theorem Literal.slot_eq {l : Literal} (h : l.toNode.Settled T procedure) :
    l.slot = some l.value.ty := by
  cases h with | mk hslot hholds =>
  obtain ⟨token, value, slot⟩ := l
  rcases value with _ | _ | (_ | _) <;> exact hslot.trans (congrArg some hholds)

theorem ListLiteral.slot_eq {l : ListLiteral} (h : l.toNode.Settled T procedure) :
    l.slot = some l.ty := by
  have hparts : ∀ e ∈ l.elements, e.slot = some e.value.ty :=
    fun e he => Literal.slot_eq (h.child (List.mem_map_of_mem he))
  cases h with | mk hslot hholds =>
  refine hslot.trans (congrArg some ?_)
  rcases hholds with ⟨hnil, rfl⟩ | ⟨element, hne, hall, hlist⟩
  · rw [ty, List.map_eq_nil_iff.1 hnil]
  · obtain ⟨e, es, helements⟩ : ∃ e es, l.elements = e :: es :=
      List.exists_cons_of_ne_nil fun hnil => hne (by rw [toNode, hnil, List.map_nil])
    have he : e ∈ l.elements := helements ▸ List.mem_cons_self
    have hslot : some e.value.ty = some element :=
      (hparts e he).symm.trans (hall e.toNode (List.mem_map_of_mem he))
    rw [← Option.some.inj hslot, e.value.toListType?_ty] at hlist
    rw [ty, helements]
    exact (Option.some.inj hlist).symm

/-- The slot of an expression holds the type that the rules give it. -/
theorem Expr.Checked.slot_eq (hT : Γ.FoundIn T procedure) (e : Expr) {ty : Ty}
    (h : e.Checked Γ T procedure ty) : e.slot = some ty := by
  cases e with
  | name i =>
    obtain ⟨hi, htype, hsettled⟩ := h
    cases htype with | name hb =>
    cases hsettled with | mk hslot hholds =>
    obtain ⟨token, htoken, hty⟩ := hholds
    cases htoken
    -- A name that can be written is not that of a hidden counter, so that the tables agree on it.
    have hname := hT.names i.name _ (not_isCounter_of_writes hi) hb
    exact hslot.trans (hty.symm.trans hname)
  | call callee args slot =>
    obtain ⟨-, htype, hsettled⟩ := h
    cases htype with | call hs =>
    cases hsettled with | mk hslot hholds =>
    obtain ⟨token, htoken, hty⟩ := hholds
    cases htoken
    exact hslot.trans (hty.symm.trans (hT.returns callee.text _ hs))
  | index target opening position slot =>
    obtain ⟨whole, htarget, -, helement⟩ := h.index
    cases h.settled with | mk hslot hholds =>
    obtain ⟨t, p, whole', hparts, hwhole, helement'⟩ := hholds
    cases hparts
    rw [Expr.slot_toNode, Expr.Checked.slot_eq hT target htarget] at hwhole
    cases hwhole
    exact hslot.trans (helement'.symm.trans helement)
  | literal l =>
    obtain ⟨-, htype, hsettled⟩ := h
    cases htype
    exact Literal.slot_eq hsettled
  | list l =>
    obtain ⟨-, htype, hsettled⟩ := h
    cases htype
    exact ListLiteral.slot_eq hsettled
  | binary op symbol lhs rhs slot =>
    obtain ⟨a, b, hlhs, hrhs, htypes⟩ := h.binary
    cases h.settled with | mk hslot hholds =>
    obtain ⟨l, r, a', b', hparts, ha, hb, htypes'⟩ := hholds
    cases hparts
    rw [Expr.slot_toNode, Expr.Checked.slot_eq hT lhs hlhs] at ha
    rw [Expr.slot_toNode, Expr.Checked.slot_eq hT rhs hrhs] at hb
    cases ha
    cases hb
    have hcheck := (op.check_eq_ok_iff symbol a b _).2 htypes
    have hcheck' := (op.check_eq_ok_iff symbol a b _).2 htypes'
    exact hslot.trans (congrArg some (Except.ok.inj (hcheck'.symm.trans hcheck)))
  | unary op symbol operand slot =>
    obtain ⟨a, hoperand, htypes⟩ := h.unary
    cases h.settled with | mk hslot hholds =>
    obtain ⟨o, a', hparts, ha, htypes'⟩ := hholds
    cases hparts
    rw [Expr.slot_toNode, Expr.Checked.slot_eq hT operand hoperand] at ha
    cases ha
    have hcheck := (op.check_eq_ok_iff symbol a _).2 htypes
    have hcheck' := (op.check_eq_ok_iff symbol a _).2 htypes'
    exact hslot.trans (congrArg some (Except.ok.inj (hcheck'.symm.trans hcheck)))
termination_by structural e

end

end TeachLang
