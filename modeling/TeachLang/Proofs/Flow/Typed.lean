import TeachLang.Proofs.Check.Statement
import TeachLang.Proofs.Flow.Slot

/-! # Flow of types

The types in the slots of a checked tree, beside the types that the declarations around them ask
for.  The generic type of the empty list and the type of a call without a result get no further
than to the places that admit them, and everywhere else a value has the type of its context.
-/

namespace TeachLang

section

variable {Γ : Scope} {T : Tables} {procedure : Option String}

/-! ## Expressions at their places -/

variable {u : Use} {ty context : Ty}

/-- Where no value flows into a context, the type only has to be a concrete one. -/
theorem Use.Typed.of_concrete (hplace : u.place.isFlow = false) (hslot : u.expr.slot = some ty)
    (hty : ty.Concrete) : u.Typed Γ ty where
  slot := hslot
  generic h := absurd h hty.ne_list
  void h := absurd h hty.ne_void
  flow h := by rw [hplace] at h; cases h

/-- Where a value flows into a context, the context is of a concrete type, or a procedure without a
result returns. -/
theorem Use.Typed.of_flows (hΓ : Γ.Concrete) (htype : u.expr.HasType Γ ty)
    (hslot : u.expr.slot = some ty) (hplace : u.place.isFlow)
    (hcontext : u.place.context? Γ = some context) (hflows : ty.Flows context)
    (hdeclared : context.Concrete ∨ u.place = .returned) : u.Typed Γ ty where
  slot := hslot
  generic h := by
    subst h
    refine ⟨htype.eq_empty hΓ, hplace, context, hcontext, ?_⟩
    cases hflows with
    | refl =>
      rcases hdeclared with hconcrete | hreturned
      · exact absurd rfl hconcrete.ne_list
      · rw [hreturned] at hcontext
        exact absurd hcontext hΓ.result
    | list hlist =>
      rw [(Ty.elementType?_eq_some_iff _ _).2 hlist]
      rfl
  void h := by
    subst h
    cases hflows
    have hreturned := hdeclared.resolve_left fun hconcrete => hconcrete.ne_void rfl
    rw [hreturned] at hcontext
    exact ⟨htype.eq_call hΓ, hreturned, hcontext⟩
  flow _ := by
    refine ⟨context, hcontext, ?_⟩
    cases hflows with
    | refl => exact .inl rfl
    | list => exact .inr rfl

mutual

/-- The parts of an expression are typed. -/
theorem Expr.parts_typed (hΓ : Γ.Concrete) (hT : Γ.FoundIn T procedure) (e : Expr) {ty : Ty}
    (h : e.Checked Γ T procedure ty) : ∀ u ∈ e.parts, ∃ ty, u.Typed Γ ty := by
  cases e with
  | name | literal | list => simp [Expr.parts]
  | call callee args slot =>
    obtain ⟨⟨-, hargs⟩, htype, hsettled⟩ := h
    cases htype with | call hs hfit =>
    exact Expr.arguments_typed hΓ hT args hs hargs hfit fun n hn => hsettled.child hn
  | index target opening position slot =>
    obtain ⟨whole, htarget, hposition, helement⟩ := h.index
    rw [Expr.parts, List.forall_mem_cons, List.forall_mem_append, List.forall_mem_cons]
    refine ⟨⟨whole, .of_concrete rfl (htarget.slot_eq hT) ?_⟩,
      Expr.parts_typed hΓ hT target htarget,
      ⟨.int, .of_concrete rfl (hposition.slot_eq hT) (by decide)⟩,
      Expr.parts_typed hΓ hT position hposition⟩
    exact (Ty.concrete_of_elementType? helement).1
  | binary op symbol lhs rhs slot =>
    obtain ⟨a, b, hlhs, hrhs, htypes⟩ := h.binary
    obtain ⟨ha, hb, -⟩ := htypes.concrete
    rw [Expr.parts, List.forall_mem_cons, List.forall_mem_append, List.forall_mem_cons]
    exact ⟨⟨a, .of_concrete rfl (hlhs.slot_eq hT) ha⟩, Expr.parts_typed hΓ hT lhs hlhs,
      ⟨b, .of_concrete rfl (hrhs.slot_eq hT) hb⟩, Expr.parts_typed hΓ hT rhs hrhs⟩
  | unary op symbol operand slot =>
    obtain ⟨a, hoperand, htypes⟩ := h.unary
    rw [Expr.parts, List.forall_mem_cons]
    exact ⟨⟨a, .of_concrete rfl (hoperand.slot_eq hT) htypes.concrete.1⟩,
      Expr.parts_typed hΓ hT operand hoperand⟩
termination_by structural e

/-- The arguments of a call flow into the parameters from a given one on. -/
theorem Expr.arguments_typed (hΓ : Γ.Concrete) (hT : Γ.FoundIn T procedure) {callee : Token}
    {s : Signature} (es : List Expr) (hs : Γ.procedure? callee.text = some s)
    (hes : Expr.AllGrammatical es) {ordinal : Nat}
    (hfit : Expr.Fit Γ es (s.parameters.drop ordinal))
    (hsettled : ∀ n ∈ Expr.toNodes es, n.Settled T procedure) :
    ∀ u ∈ Expr.argumentUses callee es ordinal, ∃ ty, u.Typed Γ ty := by
  cases es with
  | nil => simp [Expr.argumentUses]
  | cons e es =>
    -- The first of the parameters that are left is the one with the number of the argument.
    generalize hdrop : s.parameters.drop ordinal = parameters at hfit
    cases hfit with | @cons _ _ ty parameter parameters htype hflows hfit =>
    have hparameter : s.parameters[ordinal]? = some parameter := by
      rw [← List.head?_drop, hdrop, List.head?_cons]
    have hrest : s.parameters.drop (ordinal + 1) = parameters := by
      rw [← List.tail_drop, hdrop, List.tail_cons]
    obtain ⟨hhead, htail⟩ := List.forall_mem_cons.1 hsettled
    have he : e.Checked Γ T procedure ty := ⟨hes.1, htype, hhead⟩
    have hcontext : (Place.argument callee ordinal).context? Γ = some parameter := by
      rw [Place.context?, hs, Option.bind_some, hparameter]
    have hconcrete : parameter.Concrete := hΓ.parameters s (List.mem_of_find?_eq_some hs) _
      (List.mem_of_getElem? hparameter)
    rw [Expr.argumentUses, List.forall_mem_cons, List.forall_mem_append]
    exact ⟨⟨ty, .of_flows hΓ htype (he.slot_eq hT) rfl hcontext hflows (.inl hconcrete)⟩,
      Expr.parts_typed hΓ hT e he, Expr.arguments_typed hΓ hT es hs hes.2 (hrest ▸ hfit) htail⟩
termination_by structural es

end

/-- An expression of a concrete type, where no value flows into a context, and its parts. -/
theorem Expr.Checked.usesAt (hΓ : Γ.Concrete) (hT : Γ.FoundIn T procedure) {e : Expr}
    (h : e.Checked Γ T procedure ty) (hty : ty.Concrete) {place : Place}
    (hplace : place.isFlow = false) : ∀ u ∈ e.usesAt place, ∃ ty, u.Typed Γ ty :=
  List.forall_mem_cons.2
    ⟨⟨ty, .of_concrete hplace (h.slot_eq hT) hty⟩, Expr.parts_typed hΓ hT e h⟩

/-- An expression that flows into a context, and its parts. -/
theorem Expr.Checked.usesAt_flow (hΓ : Γ.Concrete) (hT : Γ.FoundIn T procedure) {e : Expr}
    (h : e.Checked Γ T procedure ty) {place : Place} (hplace : place.isFlow)
    (hcontext : place.context? Γ = some context) (hflows : ty.Flows context)
    (hdeclared : context.Concrete ∨ place = .returned) :
    ∀ u ∈ e.usesAt place, ∃ ty, u.Typed Γ ty :=
  List.forall_mem_cons.2
    ⟨⟨ty, .of_flows hΓ h.typed (h.slot_eq hT) hplace hcontext hflows hdeclared⟩,
      Expr.parts_typed hΓ hT e h⟩

/-! ## Statements -/

theorem Target.toNode_toExpr (target : Target) : target.toExpr.toNode = target.toNode := by
  cases target <;> rfl

mutual

/-- The expressions of a checked statement are typed. -/
theorem Statement.uses_typed (hΓ : Γ.Concrete) (hT : Γ.FoundIn T procedure) {loop : Bool}
    (s : Statement) (hs : s.Grammatical) (h : Statement.WellTyped Γ loop s)
    (hsettled : s.toNode.Settled T procedure) : ∀ u ∈ s.uses, ∃ ty, u.Typed Γ ty := by
  cases s with
  | assignment target symbol value slot =>
    obtain ⟨a, b, htarget, hvalue, hflows⟩ := Statement.wellTyped_assignment_iff.1 h
    obtain ⟨htype, hdeclared⟩ := htarget.toExpr
    have htarget' : target.toExpr.Checked Γ T procedure a := by
      refine ⟨hs.1.toExpr, htype, ?_⟩
      rw [target.toNode_toExpr]
      exact hsettled.child (by simp [Statement.toNode])
    have hvalue' : value.Checked Γ T procedure b :=
      ⟨hs.2.2, hvalue, hsettled.child (by simp [Statement.toNode])⟩
    have ha := htarget.concrete hΓ
    rw [Statement.uses, List.forall_mem_append]
    exact ⟨htarget'.usesAt hΓ hT ha rfl,
      hvalue'.usesAt_flow hΓ hT rfl hdeclared hflows (.inl ha)⟩
  | call callee args slot =>
    cases h with | call hdeclared hfit =>
    exact Expr.arguments_typed hΓ hT args hdeclared hs.2 hfit fun n hn => hsettled.child hn
  | conditional keyword condition body elseIfs elseIfsSlot otherwise slot =>
    obtain ⟨-, hcondition, hbody, helseIfs, hotherwise⟩ := hs
    obtain ⟨htype, hbody', helseIfs', hotherwise'⟩ := Statement.wellTyped_conditional_iff.1 h
    have hcondition' : condition.Checked Γ T procedure .bool :=
      ⟨hcondition, htype, hsettled.child (by simp [Statement.toNode])⟩
    have hlist : Node.Settled T procedure
        ⟨.elseIfList, none, elseIfsSlot, none, elseIfs.toNodes⟩ :=
      hsettled.child (by simp [Statement.toNode])
    rw [Statement.uses, List.forall_mem_append, List.forall_mem_append, List.forall_mem_append]
    refine ⟨hcondition'.usesAt hΓ hT (by decide) rfl,
      Block.uses_typed hΓ hT body hbody hbody' (hsettled.child (by simp [Statement.toNode])),
      ElseIfs.uses_typed hΓ hT elseIfs helseIfs helseIfs' fun n hn => hlist.child hn,
      Else.uses_typed hΓ hT otherwise hotherwise hotherwise' fun n hn => ?_⟩
    exact hsettled.child (by simp [Statement.toNode, hn])
  | loop keyword body slot =>
    exact Block.uses_typed hΓ hT body hs.2 (Statement.wellTyped_loop_iff.1 h)
      (hsettled.child (by simp [Statement.toNode]))
  | forEach keyword item iterable body slot =>
    obtain ⟨-, hitem, hiterable, hbody⟩ := hs
    obtain ⟨⟨b, whole, hb, hlist, htype⟩, hbody'⟩ := Statement.wellTyped_forEach_iff.1 h
    obtain ⟨helement, hwhole⟩ := Ty.concrete_of_toListType? hlist
    have hitem' : (Expr.name item).Checked Γ T procedure b.ty :=
      ⟨hitem, .name hb, hsettled.child (by simp [Statement.toNode, Expr.toNode])⟩
    have hiterable' : iterable.Checked Γ T procedure whole :=
      ⟨hiterable, htype, hsettled.child (by simp [Statement.toNode])⟩
    rw [Statement.uses, List.forall_mem_append, List.forall_mem_append]
    exact ⟨hitem'.usesAt hΓ hT helement rfl, hiterable'.usesAt hΓ hT hwhole rfl,
      Block.uses_typed hΓ hT body hbody hbody' (hsettled.child (by simp [Statement.toNode]))⟩
  | returning keyword value slot =>
    cases h with
    | returnNothing => simp [Statement.uses]
    | returnValue hresult hvalue hflows =>
      have hvalue' : Expr.Checked Γ T procedure _ _ :=
        ⟨hs.2 _ rfl, hvalue, hsettled.child (by simp [Statement.toNode])⟩
      exact hvalue'.usesAt_flow hΓ hT rfl hresult hflows (.inr rfl)
  | exit => simp [Statement.uses]

theorem Block.uses_typed (hΓ : Γ.Concrete) (hT : Γ.FoundIn T procedure) {loop : Bool} (b : Block)
    (hb : b.Grammatical) (h : Block.WellTyped Γ loop b) (hsettled : b.toNode.Settled T procedure) :
    ∀ u ∈ b.uses, ∃ ty, u.Typed Γ ty := by
  cases b with
  | mk statements slot =>
    exact Statement.allUses_typed hΓ hT statements hb (Block.wellTyped_iff.1 h) fun n hn =>
      hsettled.child hn

theorem Statement.allUses_typed (hΓ : Γ.Concrete) (hT : Γ.FoundIn T procedure) {loop : Bool}
    (ss : List Statement) (hss : Statement.AllGrammatical ss)
    (h : Statement.AllWellTyped Γ loop ss)
    (hsettled : ∀ n ∈ Statement.toNodes ss, n.Settled T procedure) :
    ∀ u ∈ Statement.allUses ss, ∃ ty, u.Typed Γ ty := by
  cases ss with
  | nil => simp [Statement.allUses]
  | cons s ss =>
    obtain ⟨hs, hrest⟩ := Statement.allWellTyped_cons_iff.1 h
    obtain ⟨hhead, htail⟩ := List.forall_mem_cons.1 hsettled
    rw [Statement.allUses, List.forall_mem_append]
    exact ⟨Statement.uses_typed hΓ hT s hss.1 hs hhead,
      Statement.allUses_typed hΓ hT ss hss.2 hrest htail⟩

theorem ElseIfs.uses_typed (hΓ : Γ.Concrete) (hT : Γ.FoundIn T procedure) {loop : Bool}
    (b : ElseIfs) (hb : b.Grammatical) (h : ElseIfs.WellTyped Γ loop b)
    (hsettled : ∀ n ∈ b.toNodes, n.Settled T procedure) : ∀ u ∈ b.uses, ∃ ty, u.Typed Γ ty := by
  cases b with
  | nil => simp [ElseIfs.uses]
  | cons keyword condition body slot rest =>
    obtain ⟨-, hcondition, hbody, hrest⟩ := hb
    obtain ⟨htype, hbody', hrest'⟩ := ElseIfs.wellTyped_cons_iff.1 h
    obtain ⟨hhead, htail⟩ := List.forall_mem_cons.1 hsettled
    have hcondition' : condition.Checked Γ T procedure .bool :=
      ⟨hcondition, htype, hhead.child (by simp)⟩
    rw [ElseIfs.uses, List.forall_mem_append, List.forall_mem_append]
    exact ⟨hcondition'.usesAt hΓ hT (by decide) rfl,
      Block.uses_typed hΓ hT body hbody hbody' (hhead.child (by simp)),
      ElseIfs.uses_typed hΓ hT rest hrest hrest' htail⟩

theorem Else.uses_typed (hΓ : Γ.Concrete) (hT : Γ.FoundIn T procedure) {loop : Bool} (b : Else)
    (hb : b.Grammatical) (h : Else.WellTyped Γ loop b)
    (hsettled : ∀ n ∈ b.toNodes, n.Settled T procedure) : ∀ u ∈ b.uses, ∃ ty, u.Typed Γ ty := by
  cases b with
  | absent => simp [Else.uses]
  | present keyword body slot =>
    have hbranch := hsettled _ List.mem_cons_self
    exact Block.uses_typed hΓ hT body hb.2 (Else.wellTyped_present_iff.1 h) (hbranch.child (by simp))

end

end

end TeachLang
