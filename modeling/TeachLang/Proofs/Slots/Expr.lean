import TeachLang.Proofs.Check.Counters
import TeachLang.Proofs.Slots.Settled

/-! # Slots of expressions

A check of an expression that succeeds leaves settled slots behind, in view of any tables
that keep what the check has looked up.
-/

namespace TeachLang

open Node (SettledAs)

theorem Tables.returnType?_declareAll (T : Tables) (ctx : Context) (rows : List (String × Register))
    (name : String) : (T.declareAll ctx rows).returnType? name = T.returnType? name := by
  rw [returnType?, returnType?, get?_procedures_declareAll]
  split
  · rw [Option.map_map]
    rfl
  · rfl

/-- Tables that keep what a context finds in others: the types of names and of calls. -/
structure Tables.KeptBy (t : Tables) (ctx : Context) (T : Tables) : Prop where
  names : ∀ x r, ¬ IsCounter x → t.lookup? ctx x = some r → T.typeOf? ctx.procedure x = some r.ty
  returns : ∀ x ty, t.returnType? x = some ty → T.returnType? x = some ty

namespace Node

variable {T : Tables} {procedure : Option String} {n : Node} {ty : Ty}

/-- A node whose parts stand in the same procedure as the node itself. -/
theorem settledAs_mk (hslot : n.slot = some ty) (hholds : n.Holds T procedure ty)
    (hinner : n.inner procedure = procedure)
    (hparts : ∀ c ∈ n.children, c.Settled T procedure) : n.SettledAs T procedure ty := by
  refine ⟨hslot, .mk hslot hholds ?_⟩
  rw [hinner]
  exact hparts

/-- A node without parts. -/
theorem settledAs_leaf (hslot : n.slot = some ty) (hholds : n.Holds T procedure ty)
    (hleaf : n.children = []) : n.SettledAs T procedure ty :=
  ⟨hslot, .mk hslot hholds (by simp [hleaf])⟩

end Node

section

variable {T : Tables} {procedure : Option String}

theorem LiteralValue.holds_ty (v : LiteralValue) (n : Node) (h : n.kind = v.nodeKind) :
    n.Holds T procedure v.ty := by
  unfold Node.Holds
  rw [h]
  rcases v with _ | _ | (_ | _) <;> rfl

theorem Literal.settledAs {l l' : Literal} {ty : Ty} (h : l.check = (l', .ok ty)) :
    l'.toNode.SettledAs T procedure ty := by
  have htype := (l.check_eq_ok_iff ty).1 (by rw [h])
  unfold Literal.check at h
  split at h
  next found _ =>
    cases h
    obtain ⟨-, rfl⟩ := htype
    exact Node.settledAs_leaf rfl (l.value.holds_ty _ rfl) rfl
  next => cases h

theorem Literal.all_settledAs {expected : Ty} {ls ls' : List Literal}
    (h : Literal.checkAll expected ls = (ls', .ok ())) :
    ∀ n ∈ ls'.map Literal.toNode, n.SettledAs T procedure expected := by
  induction ls generalizing ls' with
  | nil =>
    cases h
    simp
  | cons l ls ih =>
    rw [Literal.checkAll] at h
    rcases hl : l.check with ⟨l', e | found⟩
    · simp [hl] at h
    by_cases hfound : found = expected
    · rcases hls : Literal.checkAll expected ls with ⟨rest, result⟩
      simp only [hl, if_pos hfound, hls, Prod.mk.injEq] at h
      obtain ⟨rfl, rfl⟩ := h
      rw [hfound] at hl
      exact List.forall_mem_cons.2 ⟨Literal.settledAs hl, ih hls⟩
    · simp [hl, hfound] at h

theorem ListLiteral.settledAs {l l' : ListLiteral} {ty : Ty} (h : l.check = (l', .ok ty)) :
    l'.toNode.SettledAs T procedure ty := by
  unfold ListLiteral.check at h
  split at h
  next helements =>
    cases h
    exact Node.settledAs_leaf rfl (.inl ⟨by simp [toNode, helements], rfl⟩)
      (by simp [toNode, helements])
  next first rest helements =>
    rcases hfirst : first.check with ⟨first', e | element⟩
    · simp [hfirst] at h
    rcases hrest : Literal.checkAll element rest with ⟨rest', e | _⟩
    · simp [hfirst, hrest] at h
    simp only [hfirst, hrest, Prod.mk.injEq, Except.ok.injEq] at h
    obtain ⟨rfl, rfl⟩ := h
    have hall : ∀ n ∈ (first' :: rest').map Literal.toNode, n.SettledAs T procedure element :=
      List.forall_mem_cons.2 ⟨Literal.settledAs hfirst, Literal.all_settledAs hrest⟩
    obtain ⟨listTy, hlist⟩ : ∃ listTy, element.toListType? = some listTy := by
      obtain ⟨-, rfl⟩ := (first.check_eq_ok_iff element).1 (by rw [hfirst])
      exact ⟨_, first.value.toListType?_ty⟩
    rw [hlist, Option.getD_some]
    have hholds : Node.Holds T procedure (ListLiteral.toNode
        ⟨l.opening, first' :: rest', some listTy⟩) listTy :=
      .inr ⟨element, by simp [toNode], fun n hn => (hall n hn).slot, hlist⟩
    exact Node.settledAs_mk rfl hholds rfl fun n hn => (hall n hn).settled

end

section

variable {t T : Tables} {ctx : Context}

theorem Identifier.settledAs (hkept : t.KeptBy ctx T) {i i' : Identifier} {ty : Ty}
    (hi : i.Grammatical) (h : i.check t ctx = (i', .ok ty)) :
    i'.toNode.SettledAs T ctx.procedure ty := by
  unfold Identifier.check at h
  split at h
  next r hr =>
    cases h
    have htype := hkept.names i.name r (not_isCounter_of_writes hi) hr
    exact Node.settledAs_leaf rfl ⟨i.token, rfl, htype⟩ rfl
  next => cases h

theorem elementType_cases {opening : Token} {whole found ty : Ty} {position : Expr}
    (h : elementType opening whole position found = .ok ty) : whole.elementType? = some ty :=
  ((elementType_eq_ok_iff opening whole position found ty).1 h).2

/-- An index into a list, as an expression or as a target. -/
theorem Node.settledAs_index {procedure : Option String} {target position : Node}
    {whole found ty : Ty} (opening : Token) (htarget : target.SettledAs T procedure whole)
    (hposition : position.SettledAs T procedure found) (helement : whole.elementType? = some ty) :
    Node.SettledAs T procedure
      ⟨.listIndex, some opening, some ty, none, [target, position]⟩ ty := by
  have hholds : Node.Holds T procedure
      ⟨.listIndex, some opening, some ty, none, [target, position]⟩ ty :=
    ⟨target, position, whole, rfl, htarget.slot, helement⟩
  exact Node.settledAs_mk rfl hholds rfl
    (by simpa using ⟨htarget.settled, hposition.settled⟩)

namespace Expr

/-- Checks of an expression that succeed settle it. -/
def Settles (T t : Tables) (ctx : Context) (e : Expr) : Prop :=
  ∀ {e' : Expr} {ty : Ty}, e.check t ctx = (e', .ok ty) →
    e'.toNode.SettledAs T ctx.procedure ty

variable {e' : Expr} {ty : Ty} {slot : Slot}

theorem call_settledAs (hkept : t.KeptBy ctx T) {callee : Token} {args : List Expr}
    (hargs : ∀ {parameters : List (String × Ty)} {args' : List Expr},
      args.length ≤ parameters.length → Expr.checkArgs t ctx parameters args = (args', .ok ()) →
        ∀ n ∈ Expr.toNodes args', n.Settled T ctx.procedure)
    (h : (Expr.call callee args slot).check t ctx = (e', .ok ty)) :
    e'.toNode.SettledAs T ctx.procedure ty := by
  rw [Expr.check] at h
  rcases hcallee : t.callee callee args.length with e | p
  · simp [hcallee] at h
  rcases hall : Expr.checkArgs t ctx p.parameters args with ⟨args', e | _⟩
  · simp [hcallee, hall] at h
  simp only [hcallee, hall, Prod.mk.injEq, Except.ok.injEq] at h
  obtain ⟨rfl, rfl⟩ := h
  obtain ⟨hget, hlength⟩ := (callee_eq_ok_iff callee args.length p).1 hcallee
  have hreturns := hkept.returns callee.text p.returnType (by
    rw [Tables.returnType?, hget, Option.map_some])
  exact Node.settledAs_mk rfl ⟨callee, rfl, hreturns⟩ rfl (hargs (Nat.le_of_eq hlength) hall)

theorem index_settledAs {target position : Expr} {opening : Token}
    (htarget : target.Settles T t ctx) (hposition : position.Settles T t ctx)
    (h : (Expr.index target opening position slot).check t ctx = (e', .ok ty)) :
    e'.toNode.SettledAs T ctx.procedure ty := by
  rw [Expr.check] at h
  rcases hleft : target.check t ctx with ⟨target', e | whole⟩
  · simp [hleft] at h
  rcases hright : position.check t ctx with ⟨position', e | found⟩
  · simp [hleft, hright] at h
  rcases helement : elementType opening whole position' found with e | element
  · simp [hleft, hright, helement] at h
  simp only [hleft, hright, helement, Prod.mk.injEq, Except.ok.injEq] at h
  obtain ⟨rfl, rfl⟩ := h
  exact Node.settledAs_index opening (htarget hleft) (hposition hright)
    (elementType_cases helement)

theorem binary_settledAs {op : BinaryOp} {symbol : Token} {lhs rhs : Expr}
    (hlhs : lhs.Settles T t ctx) (hrhs : rhs.Settles T t ctx)
    (h : (Expr.binary op symbol lhs rhs slot).check t ctx = (e', .ok ty)) :
    e'.toNode.SettledAs T ctx.procedure ty := by
  rw [Expr.check] at h
  rcases hleft : lhs.check t ctx with ⟨lhs', e | a⟩
  · simp [hleft] at h
  rcases hright : rhs.check t ctx with ⟨rhs', e | b⟩
  · simp [hleft, hright] at h
  rcases hop : op.check symbol a b with e | result
  · simp [hleft, hright, hop] at h
  simp only [hleft, hright, hop, Prod.mk.injEq, Except.ok.injEq] at h
  obtain ⟨rfl, rfl⟩ := h
  have hlhs := hlhs hleft
  have hrhs := hrhs hright
  have htypes := (op.check_eq_ok_iff symbol a b result).1 hop
  have hholds : Node.Holds T ctx.procedure
      (Expr.toNode (.binary op symbol lhs' rhs' (some result))) result :=
    ⟨_, _, a, b, rfl, hlhs.slot, hrhs.slot, htypes⟩
  exact Node.settledAs_mk rfl hholds rfl (by simpa [toNode] using ⟨hlhs.settled, hrhs.settled⟩)

theorem unary_settledAs {op : UnaryOp} {symbol : Token} {operand : Expr}
    (hoperand : operand.Settles T t ctx)
    (h : (Expr.unary op symbol operand slot).check t ctx = (e', .ok ty)) :
    e'.toNode.SettledAs T ctx.procedure ty := by
  rw [Expr.check] at h
  rcases hright : operand.check t ctx with ⟨operand', e | a⟩
  · simp [hright] at h
  rcases hop : op.check symbol a with e | result
  · simp [hright, hop] at h
  simp only [hright, hop, Prod.mk.injEq, Except.ok.injEq] at h
  obtain ⟨rfl, rfl⟩ := h
  have hoperand := hoperand hright
  have htypes := (op.check_eq_ok_iff symbol a result).1 hop
  have hholds : Node.Holds T ctx.procedure
      (Expr.toNode (.unary op symbol operand' (some result))) result :=
    ⟨_, a, rfl, hoperand.slot, htypes⟩
  exact Node.settledAs_mk rfl hholds rfl (by simpa [toNode] using hoperand.settled)

end Expr

mutual

theorem Expr.settledAs (hkept : t.KeptBy ctx T) (e : Expr) (he : e.Grammatical) {e' : Expr}
    {ty : Ty} (h : e.check t ctx = (e', .ok ty)) : e'.toNode.SettledAs T ctx.procedure ty := by
  cases e with
  | name i =>
    rw [Expr.check] at h
    rcases hi : i.check t ctx with ⟨i', result⟩
    rw [hi] at h
    cases h
    exact Identifier.settledAs hkept he hi
  | call callee args slot =>
    refine Expr.call_settledAs hkept ?_ h
    exact fun hlength hcheck => Expr.args_settled hkept args he.2 hlength hcheck
  | index target opening position slot =>
    refine Expr.index_settledAs ?_ ?_ h
    · exact fun hcheck => Expr.settledAs hkept target he.1 hcheck
    · exact fun hcheck => Expr.settledAs hkept position he.2.2 hcheck
  | literal l =>
    rw [Expr.check] at h
    rcases hl : l.check with ⟨l', result⟩
    rw [hl] at h
    cases h
    exact Literal.settledAs hl
  | list l =>
    rw [Expr.check] at h
    rcases hl : l.check with ⟨l', result⟩
    rw [hl] at h
    cases h
    exact ListLiteral.settledAs hl
  | binary op symbol lhs rhs slot =>
    refine Expr.binary_settledAs ?_ ?_ h
    · exact fun hcheck => Expr.settledAs hkept lhs he.2.1 hcheck
    · exact fun hcheck => Expr.settledAs hkept rhs he.2.2 hcheck
  | unary op symbol operand slot =>
    refine Expr.unary_settledAs ?_ h
    exact fun hcheck => Expr.settledAs hkept operand he.2 hcheck
termination_by structural e

theorem Expr.args_settled (hkept : t.KeptBy ctx T) (es : List Expr)
    (hes : Expr.AllGrammatical es) {parameters : List (String × Ty)} {es' : List Expr}
    (hlength : es.length ≤ parameters.length)
    (h : Expr.checkArgs t ctx parameters es = (es', .ok ())) :
    ∀ n ∈ Expr.toNodes es', n.Settled T ctx.procedure := by
  cases es with
  | nil =>
    cases h
    simp [toNodes]
  | cons e es =>
    cases parameters with
    | nil => simp at hlength
    | cons p ps =>
      rw [Expr.checkArgs] at h
      rcases he : e.check t ctx with ⟨e', error | found⟩
      · simp [he] at h
      by_cases haccepts : p.2.accepts found = true
      · rcases hrest : Expr.checkArgs t ctx ps es with ⟨rest, result⟩
        simp only [he, if_pos haccepts, hrest, Prod.mk.injEq] at h
        obtain ⟨rfl, rfl⟩ := h
        exact List.forall_mem_cons.2 ⟨(Expr.settledAs hkept e hes.1 he).settled,
          Expr.args_settled hkept es hes.2 (Nat.le_of_succ_le_succ hlength) hrest⟩
      · simp [he, haccepts] at h
termination_by structural es

end

end

end TeachLang
