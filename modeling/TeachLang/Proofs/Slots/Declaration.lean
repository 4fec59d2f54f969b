import TeachLang.Proofs.Check.Declaration
import TeachLang.Proofs.Slots.Statement

/-! # Slots of declarations

A check of declarations can be traced back: names that tables know after it are known
before it or declared by it.  So tables that keep the names of a scope tell the types of
its declarations.
-/

namespace TeachLang

/-- Successful checks of fine items go back from what holds of the tables after them to what
holds of the tables before them, and leave their items settled. -/
def Traces {α : Type} (holds : Tables → Prop) (check : Tables → α → Visited α) (fine : α → Prop)
    (settled : α → Prop) : Prop :=
  ∀ t a a' t', fine a → check t a = (a', t', .ok ()) → holds t' → holds t ∧ settled a'

namespace Traces

variable {α : Type} {holds : Tables → Prop} {check : Tables → α → Visited α}
  {fine settled : α → Prop}

theorem each (h : Traces holds check fine settled) :
    Traces holds (checkEach check) (fun as => ∀ a ∈ as, fine a) (fun as => ∀ a ∈ as, settled a) := by
  intro t as
  induction as generalizing t with
  | nil =>
    rintro as' t' - hcheck ht'
    cases hcheck
    exact ⟨ht', by simp⟩
  | cons a as ih =>
    intro as' t' hfine hcheck ht'
    obtain ⟨ha, has⟩ := List.forall_mem_cons.1 hfine
    rw [checkEach] at hcheck
    rcases hfirst : check t a with ⟨a', t₁, e | _⟩
    · simp [hfirst] at hcheck
    rcases hrest : checkEach check t₁ as with ⟨rest, t₂, result⟩
    simp only [hfirst, hrest, Prod.mk.injEq] at hcheck
    obtain ⟨rfl, rfl, rfl⟩ := hcheck
    obtain ⟨ht₁, hsettled⟩ := ih t₁ rest t₂ has hrest ht'
    obtain ⟨ht, ha'⟩ := h t a a' t₁ ha hfirst ht₁
    exact ⟨ht, List.forall_mem_cons.2 ⟨ha', hsettled⟩⟩

theorem option (h : Traces holds check fine settled) :
    Traces holds (checkOption check) (fun o => ∀ a ∈ o, fine a) (fun o => ∀ a ∈ o, settled a) := by
  rintro t (_ | a) o t' hfine hcheck ht'
  · cases hcheck
    exact ⟨ht', by simp⟩
  · rw [checkOption] at hcheck
    rcases ha : check t a with ⟨a', t₁, result⟩
    rw [ha] at hcheck
    cases hcheck
    obtain ⟨ht, hsettled⟩ := h t a a' _ (hfine a rfl) ha ht'
    exact ⟨ht, by simpa using hsettled⟩

end Traces

/-- Tables that keep the names of a scope, and the return types of procedures. -/
structure Tables.ScopeKeptBy (t : Tables) (ctx : Context) (T : Tables) : Prop where
  names : ∀ x r, ¬ IsCounter x → (t.scope ctx).get? x = some r →
    T.typeOf? ctx.procedure x = some r.ty
  returns : ∀ x ty, t.returnType? x = some ty → T.returnType? x = some ty

section

variable {t T : Tables} {ctx : Context}

namespace Tables

theorem lookup?_of_scope {x : String} {r : Register} (h : (t.scope ctx).get? x = some r) :
    t.lookup? ctx x = some r := by
  unfold scope at h
  unfold lookup?
  split at h
  next p hp => rw [hp, Option.bind_some, h, Option.some_or]
  next hnone => rw [hnone, Option.bind_none, Option.none_or, h]

theorem KeptBy.scope (h : t.KeptBy ctx T) : t.ScopeKeptBy ctx T :=
  ⟨fun x r hx hr => h.names x r hx (lookup?_of_scope hr), h.returns⟩

/-- A new name and the names before it are kept. -/
theorem ScopeKeptBy.of_declare {name : String} {r : Register} (hname : ¬ IsCounter name)
    (hnew : (t.scope ctx).contains name = false) (h : (t.declare ctx name r).ScopeKeptBy ctx T) :
    t.ScopeKeptBy ctx T ∧ T.typeOf? ctx.procedure name = some r.ty := by
  have hget : ∀ x, ((t.declare ctx name r).scope ctx).get? x =
      if x = name then some r else (t.scope ctx).get? x := by
    intro x
    rw [scope_declare, NameMap.get?_insert]
  have hreturn := t.returnType?_declareAll ctx [(name, r)]
  refine ⟨⟨fun x s hx hs => ?_, fun x ty hty => h.returns x ty ((hreturn x).trans hty)⟩,
    h.names name r hname (by rw [hget, if_pos rfl])⟩
  -- The new name hides none of its own scope, or else the check would have refused it.
  have hne : x ≠ name := by
    rintro rfl
    rw [(NameMap.contains_eq_false_iff _ _).1 hnew] at hs
    cases hs
  exact h.names x s hx (by rw [hget, if_neg hne, hs])

end Tables

/-! The types of declarations. -/

theorem TypeExpr.settledAs {e : TypeExpr} (he : e.Grammatical) (procedure : Option String) :
    (e.withSlot (some e.denoted)).toNode.SettledAs T procedure e.denoted := by
  cases e with
  | simple token s slot => cases s <;> exact Node.settledAs_leaf rfl rfl rfl
  | list keyword token element slot =>
    have helement := (SimpleType.ofKind?_eq_some_iff token.kind element).2 he.2.1
    exact Node.settledAs_leaf rfl ⟨token, element, rfl, helement, rfl⟩ rfl
  | void slot => exact Node.settledAs_leaf rfl rfl rfl

theorem ConstantValue.settledAs {procedure : Option String} {v v' : ConstantValue} {ty : Ty}
    (h : v.check = (v', .ok ty)) : v'.toNode.SettledAs T procedure ty := by
  cases v with
  | simple l =>
    rw [ConstantValue.check] at h
    rcases hl : l.check with ⟨l', result⟩
    rw [hl] at h
    cases h
    exact Literal.settledAs hl
  | list l =>
    rw [ConstantValue.check] at h
    rcases hl : l.check with ⟨l', result⟩
    rw [hl] at h
    cases h
    exact ListLiteral.settledAs hl

theorem ConstantDecl.traces : Traces (·.ScopeKeptBy ctx T) (ConstantDecl.check ctx) Grammatical
    (·.toNode.Settled T ctx.procedure) := by
  intro t d d' t' hd h hkept
  rw [ConstantDecl.check] at h
  by_cases hnew : (t.scope ctx).contains d.name.text = true
  · simp [hnew] at h
  rcases hvalue : d.value.check with ⟨value, e | ty⟩
  · simp [hnew, hvalue] at h
  by_cases hlist : ty = .list
  · simp [hnew, hvalue, hlist] at h
  simp only [if_neg hnew, hvalue, if_neg hlist, Prod.mk.injEq, and_true] at h
  obtain ⟨rfl, rfl⟩ := h
  have hname := not_isCounter_of_writes hd.1
  obtain ⟨hbefore, htype⟩ := hkept.of_declare hname (Bool.eq_false_iff.2 hnew)
  have hvalue : value.toNode.SettledAs T ctx.procedure ty := ConstantValue.settledAs hvalue
  have hholds : Node.Holds T ctx.procedure
      (ConstantDecl.toNode ⟨d.name, value, some ty⟩) ty :=
    ⟨d.name, value.toNode, rfl, htype, rfl, hvalue.slot⟩
  refine ⟨hbefore, (Node.settledAs_mk rfl hholds rfl ?_).settled⟩
  simpa [ConstantDecl.toNode] using hvalue.settled

theorem ConstantList.traces : Traces (·.ScopeKeptBy ctx T) (ConstantList.check ctx) Grammatical
    (·.toNode.Settled T ctx.procedure) := by
  intro t l l' t' hl h hkept
  rw [ConstantList.check] at h
  rcases hall : checkEach (ConstantDecl.check ctx) t l.declarations with ⟨declarations, t₁, e | _⟩
  · simp [hall] at h
  simp only [hall, Prod.mk.injEq, and_true] at h
  obtain ⟨rfl, rfl⟩ := h
  obtain ⟨hbefore, hsettled⟩ := ConstantDecl.traces.each t _ _ _ hl.declarations hall hkept
  exact ⟨hbefore, Node.settled_void rfl rfl rfl (List.forall_mem_map.2 hsettled)⟩

theorem Identifier.traces (kind : BindingKind) (ty : Ty) :
    Traces (·.ScopeKeptBy ctx T) (fun t => Identifier.declare ctx t kind ty) Grammatical
      (·.toNode.SettledAs T ctx.procedure ty) := by
  intro t i i' t' hi (h : Identifier.declare ctx t kind ty i = _) hkept
  rw [Identifier.declare] at h
  by_cases hnew : (t.scope ctx).contains i.name = true
  · simp [hnew] at h
  simp only [if_neg hnew, Prod.mk.injEq, and_true] at h
  obtain ⟨rfl, rfl⟩ := h
  obtain ⟨hbefore, htype⟩ := hkept.of_declare (not_isCounter_of_writes hi) (Bool.eq_false_iff.2 hnew)
  have hty : (kind.register ctx t ty).ty = ty := by cases kind <;> rfl
  rw [hty] at htype
  exact ⟨hbefore, Node.settledAs_leaf rfl ⟨i.token, rfl, htype⟩ rfl⟩

/-- Variables and parameters, each as nodes of their own kind. -/
theorem BindingDecl.traces (kind : BindingKind) {nodeKind : NodeKind}
    (hkind : nodeKind = .variableDecl ∨ nodeKind = .parameterDecl) :
    Traces (·.ScopeKeptBy ctx T) (fun t => BindingDecl.check ctx t kind) Grammatical
      (fun d => (d.toNode nodeKind).Settled T ctx.procedure) := by
  intro t d d' t' hd (h : BindingDecl.check ctx t kind d = _) hkept
  rw [BindingDecl.check] at h
  rcases hall : checkEach (fun t => Identifier.declare ctx t kind d.type.denoted) t d.names with
    ⟨names, t₁, e | _⟩
  · simp [hall] at h
  simp only [hall, Prod.mk.injEq, and_true] at h
  obtain ⟨rfl, rfl⟩ := h
  set ty := d.type.denoted with hty
  obtain ⟨hbefore, hnames⟩ := (Identifier.traces kind ty).each t _ _ _ hd.names hall hkept
  have htype : (d.type.withSlot (some ty)).toNode.SettledAs T ctx.procedure ty :=
    TypeExpr.settledAs hd.type ctx.procedure
  have hholds : Node.Holds T ctx.procedure
      (BindingDecl.toNode nodeKind ⟨names, d.type.withSlot (some ty), some ty⟩) ty := by
    have hparts : ∃ parts type, names.map Identifier.toNode ++
        [(d.type.withSlot (some ty)).toNode] = parts ++ [type] ∧ type.slot = some ty ∧
          ∀ name ∈ parts, name.kind = .identifier ∧ name.slot = some ty :=
      ⟨_, _, rfl, htype.slot, List.forall_mem_map.2 fun i hi => ⟨rfl, (hnames i hi).slot⟩⟩
    rcases hkind with rfl | rfl <;> exact hparts
  have hinner : (BindingDecl.toNode nodeKind
      ⟨names, d.type.withSlot (some ty), some ty⟩).inner ctx.procedure = ctx.procedure := by
    rcases hkind with rfl | rfl <;> rfl
  refine ⟨hbefore, (Node.settledAs_mk rfl hholds hinner ?_).settled⟩
  refine List.forall_mem_append.2 ⟨List.forall_mem_map.2 fun i hi => (hnames i hi).settled, ?_⟩
  exact List.forall_mem_singleton.2 htype.settled

theorem VariableList.traces : Traces (·.ScopeKeptBy ctx T) (VariableList.check ctx) Grammatical
    (·.toNode.Settled T ctx.procedure) := by
  intro t l l' t' hl h hkept
  rw [VariableList.check] at h
  rcases hall : checkEach (fun t => BindingDecl.check ctx t .var) t l.declarations with
    ⟨declarations, t₁, e | _⟩
  · simp [hall] at h
  simp only [hall, Prod.mk.injEq, and_true] at h
  obtain ⟨rfl, rfl⟩ := h
  obtain ⟨hbefore, hsettled⟩ :=
    (BindingDecl.traces .var (.inl rfl)).each t _ _ _ hl.declarations hall hkept
  exact ⟨hbefore, Node.settled_void rfl rfl rfl (List.forall_mem_map.2 hsettled)⟩

theorem ParameterList.traces : Traces (·.ScopeKeptBy ctx T) (ParameterList.check ctx)
    (fun l => ∀ d ∈ l.declarations, d.Grammatical) (·.toNode.Settled T ctx.procedure) := by
  intro t l l' t' hl h hkept
  rw [ParameterList.check] at h
  rcases hall : checkEach (fun t => BindingDecl.check ctx t .param) t l.declarations with
    ⟨declarations, t₁, e | _⟩
  · simp [hall] at h
  simp only [hall, Prod.mk.injEq, and_true] at h
  obtain ⟨rfl, rfl⟩ := h
  obtain ⟨hbefore, hsettled⟩ :=
    (BindingDecl.traces .param (.inr rfl)).each t _ _ _ hl hall hkept
  exact ⟨hbefore, Node.settled_void rfl rfl rfl (List.forall_mem_map.2 hsettled)⟩

end

end TeachLang
