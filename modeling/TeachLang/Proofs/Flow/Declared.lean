import TeachLang.Proofs.Check.Denoted
import TeachLang.Proofs.Check.Values
import TeachLang.Proofs.Tree.Grammatical
import TeachLang.Proofs.Tree.Uses

/-! # Declared types

The types that the declarations around a place ask for.  No declaration gives the generic type of
the empty list to anything, and none but that of a procedure says that there is no value.  So only
an empty list is of the generic type, and only a call is of none.
-/

namespace TeachLang

/-! ## Contexts -/

def Target.declared? (Γ : Scope) : Target → Option Ty
  | name i => (Γ.resolve? i.name).map (·.ty)
  | element (.name base) _ _ _ => (Γ.resolve? base.name).bind (·.ty.elementType?)
  | element _ _ _ _ => none

namespace Place

/-- Whether a value flows from a place into something declared: into the target of an assignment,
into a parameter, or out of a procedure. -/
def isFlow : Place → Bool
  | assigned _ | argument _ _ | returned => true
  | _ => false

/-- The declared type that a value flows into. -/
def context? (Γ : Scope) : Place → Option Ty
  | assigned written => written.declared? Γ
  | argument callee ordinal => (Γ.procedure? callee.text).bind (·.parameters[ordinal]?)
  | returned => Γ.result
  | _ => none

end Place

/-- What the type in the slot of an expression has to do with the place of the expression. -/
structure Use.Typed (Γ : Scope) (u : Use) (ty : Ty) : Prop where
  slot : u.expr.slot = some ty
  /-- Only an empty list is of the generic type, and only where a concrete list is asked for. -/
  generic : ty = .list → (∃ l : ListLiteral, u.expr = .list l ∧ l.elements = []) ∧
    u.place.isFlow ∧ ∃ context, u.place.context? Γ = some context ∧ context.elementType?.isSome
  /-- Only a call has no value, and only where a procedure without a result returns. -/
  void : ty = .void → (∃ callee args slot, u.expr = .call callee args slot) ∧
    u.place = .returned ∧ Γ.result = some .void
  flow : u.place.isFlow →
    ∃ context, u.place.context? Γ = some context ∧ (ty = context ∨ ty = .list)

/-! ## Declared types -/

namespace Ty.Concrete

variable {ty : Ty}

theorem ne_list (h : ty.Concrete) : ty ≠ .list := by
  rintro rfl
  revert h
  decide

theorem ne_void (h : ty.Concrete) : ty ≠ .void := by
  rintro rfl
  revert h
  decide

end Ty.Concrete

theorem Ty.concrete_of_elementType? {whole element : Ty} (h : whole.elementType? = some element) :
    whole.Concrete ∧ element.Concrete := by
  revert h
  cases whole <;> cases element <;> decide

theorem Ty.concrete_of_toListType? {element whole : Ty} (h : element.toListType? = some whole) :
    element.Concrete ∧ whole.Concrete :=
  (concrete_of_elementType? ((elementType?_eq_some_iff whole element).2 h)).symm

theorem BinaryOp.HasTypes.concrete {op : BinaryOp} {a b ty : Ty} (h : op.HasTypes a b ty) :
    a.Concrete ∧ b.Concrete ∧ ty.Concrete := by
  cases h with
  | logic | order | arithmetic => decide
  | equality _ hoperands =>
    simp only [List.mem_cons, List.not_mem_nil, or_false] at hoperands
    rcases hoperands with rfl | rfl <;> decide

theorem UnaryOp.HasTypes.concrete {op : UnaryOp} {a ty : Ty} (h : op.HasTypes a ty) :
    a.Concrete ∧ ty.Concrete := by
  cases h <;> decide

theorem LiteralValue.concrete_ty (v : LiteralValue) : v.ty.Concrete := by
  cases v <;> simp [ty, Ty.Concrete]

/-- A list with elements is of a concrete type. -/
theorem ListLiteral.concrete_ty {l : ListLiteral} (h : l.elements ≠ []) : l.ty.Concrete := by
  obtain ⟨e, es, helements⟩ := List.exists_cons_of_ne_nil h
  rw [ty, helements]
  cases h : e.value <;> simp [h, LiteralValue.listTy, Ty.Concrete]

theorem ConstantValue.WellTyped.concrete_ty {v : ConstantValue} (h : v.WellTyped) :
    v.ty.Concrete := by
  cases v with
  | simple l => exact l.value.concrete_ty
  | list l => exact ListLiteral.concrete_ty h.2

/-- Declarations give no name and no parameter the generic type or no type, and no procedure the
generic type. -/
structure Scope.Concrete (Γ : Scope) : Prop where
  locals : ∀ b ∈ Γ.locals, b.ty.Concrete
  globals : ∀ b ∈ Γ.globals, b.ty.Concrete
  parameters : ∀ s ∈ Γ.procedures, ∀ ty ∈ s.parameters, ty.Concrete
  results : ∀ s ∈ Γ.procedures, s.returnType ≠ .list
  result : Γ.result ≠ some .list

theorem Scope.Concrete.resolve? {Γ : Scope} (h : Γ.Concrete) {x : String} {b : Binding}
    (hb : Γ.resolve? x = some b) : b.ty.Concrete := by
  rcases Option.or_eq_some_iff.1 hb with hlocal | ⟨-, hglobal⟩
  · exact h.locals b (List.mem_of_find?_eq_some hlocal)
  · exact h.globals b (List.mem_of_find?_eq_some hglobal)

section

variable {constants : Option ConstantList} {vars : Option VariableList}

theorem BindingDecl.Grammatical.concrete {d : BindingDecl} (h : d.Grammatical) (kind : SymbolKind) :
    ∀ b ∈ d.bindings kind, b.ty.Concrete := by
  intro b hb
  obtain ⟨i, -, rfl⟩ := List.mem_map.1 hb
  exact TypeExpr.concrete_denoted h.written

theorem concrete_of_mem_locals (hconstants : ∀ l ∈ constants, l.WellTyped)
    (hvars : ∀ l ∈ vars, l.Grammatical) :
    ∀ b ∈ constants.toList.flatMap (·.bindings) ++ vars.toList.flatMap (·.bindings),
      b.ty.Concrete := by
  intro b hb
  rcases List.mem_append.1 hb with hb | hb
  · obtain ⟨l, hl, hb⟩ := List.mem_flatMap.1 hb
    obtain ⟨d, hd, rfl⟩ := List.mem_map.1 hb
    exact (hconstants l (Option.mem_toList.1 hl) d hd).concrete_ty
  · obtain ⟨l, hl, hb⟩ := List.mem_flatMap.1 hb
    obtain ⟨d, hd, hb⟩ := List.mem_flatMap.1 hb
    exact ((hvars l (Option.mem_toList.1 hl)).declarations d hd).concrete .var b hb

end

theorem ProcedureDecl.Grammatical.concrete_parameters {d : ProcedureDecl} (h : d.Grammatical) :
    ∀ b ∈ d.parameters.bindings, b.ty.Concrete := by
  intro b hb
  obtain ⟨group, hgroup, hb⟩ := List.mem_flatMap.1 hb
  exact (h.parameters group hgroup).concrete .param b hb

theorem TypeExpr.denoted_ne_list (e : TypeExpr) : e.denoted ≠ .list := by
  cases e with
  | simple _ s _ => cases s <;> exact Ty.noConfusion
  | list _ _ element _ => cases element <;> exact Ty.noConfusion
  | void => exact Ty.noConfusion

theorem builtinSignatures_concrete : ∀ s ∈ builtinSignatures,
    (∀ ty ∈ s.parameters, ty.Concrete) ∧ s.returnType ≠ .list := by
  simp only [builtinSignatures, List.forall_mem_map]
  decide

theorem ProcedureDecl.Grammatical.concrete_signature {d : ProcedureDecl} (h : d.Grammatical) :
    (∀ ty ∈ d.signature.parameters, ty.Concrete) ∧ d.signature.returnType ≠ .list :=
  ⟨List.forall_mem_map.2 h.concrete_parameters, d.returnType.denoted_ne_list⟩

/-! ## Types of expressions -/

namespace Expr.HasType

variable {Γ : Scope} {e : Expr}

/-- Nothing but an empty list is of the generic type. -/
theorem eq_empty (h : e.HasType Γ .list) (hΓ : Γ.Concrete) :
    ∃ l : ListLiteral, e = .list l ∧ l.elements = [] := by
  generalize hty : Ty.list = ty at h
  cases h with
  | name hb => exact absurd hty.symm (hΓ.resolve? hb).ne_list
  | call hs => exact absurd hty.symm (hΓ.results _ (List.mem_of_find?_eq_some hs))
  | index _ _ helement =>
    exact absurd hty.symm (Ty.concrete_of_elementType? helement).2.ne_list
  | literal => exact absurd hty.symm (LiteralValue.concrete_ty _).ne_list
  | @list l =>
    by_cases hempty : l.elements = []
    · exact ⟨l, rfl, hempty⟩
    · exact absurd hty.symm (ListLiteral.concrete_ty hempty).ne_list
  | binary _ _ htypes => exact absurd hty.symm htypes.concrete.2.2.ne_list
  | unary _ htypes => exact absurd hty.symm htypes.concrete.2.ne_list

/-- Nothing but a call has no value. -/
theorem eq_call (h : e.HasType Γ .void) (hΓ : Γ.Concrete) :
    ∃ callee args slot, e = .call callee args slot := by
  generalize hty : Ty.void = ty at h
  cases h with
  | name hb => exact absurd hty.symm (hΓ.resolve? hb).ne_void
  | call => exact ⟨_, _, _, rfl⟩
  | index _ _ helement =>
    exact absurd hty.symm (Ty.concrete_of_elementType? helement).2.ne_void
  | literal => exact absurd hty.symm (LiteralValue.concrete_ty _).ne_void
  | @list l =>
    by_cases hempty : l.elements = []
    · simp [ListLiteral.ty, hempty] at hty
    · exact absurd hty.symm (ListLiteral.concrete_ty hempty).ne_void
  | binary _ _ htypes => exact absurd hty.symm htypes.concrete.2.2.ne_void
  | unary _ htypes => exact absurd hty.symm htypes.concrete.2.ne_void

end Expr.HasType

theorem Target.HasType.toExpr {Γ : Scope} {target : Target} {ty : Ty} (h : target.HasType Γ ty) :
    target.toExpr.HasType Γ ty ∧ target.declared? Γ = some ty := by
  cases h with
  | name hb => exact ⟨.name hb, by rw [declared?, hb, Option.map_some]⟩
  | element hb _ hposition helement =>
    exact ⟨.index (.name hb) hposition helement, by rw [declared?, hb, Option.bind_some, helement]⟩

theorem Target.HasType.concrete {Γ : Scope} {target : Target} {ty : Ty} (h : target.HasType Γ ty)
    (hΓ : Γ.Concrete) : ty.Concrete := by
  cases h with
  | name hb => exact hΓ.resolve? hb
  | element _ _ _ helement => exact (Ty.concrete_of_elementType? helement).2

end TeachLang
