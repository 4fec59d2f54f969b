import TeachLang.Proofs.Check.Statement
import TeachLang.Proofs.Likeness.Basic

/-! # Likeness of expressions

On tables that are alike, the check of an expression and the check of the changed expression go
alike: literals do not depend on the tables, names and calls find what the likeness says, and all
else depends on the types of the parts only.
-/

namespace TeachLang

open Likeness

variable {L : Likeness}

theorem Literal.check_alike {l : Literal} (h : l.Grammatical) :
    L.Answers (Literal.map L.token id) l.check (l.map L.token id).check := by
  obtain ⟨⟨kind, hmem, hkind, -⟩, -⟩ := h
  obtain ⟨token, value, slot⟩ := l
  have htext : (L.token token).text = token.text := by
    refine text_of_ne hkind ?_
    rintro rfl
    exact absurd hmem (by decide)
  cases value with
  | int n =>
    simp only [check, type, Literal.map]
    by_cases hn : n ≤ maxInt
    · simp only [if_pos hn]
      exact .ok _ _
    · simp only [if_neg hn]
      exact .error _ (fails (congrArg _ htext))
  | string s => exact .ok _ _
  | bool b => exact .ok _ _

theorem Literal.checkAll_alike (expected : Ty) {ls : List Literal} (h : ∀ l ∈ ls, l.Grammatical) :
    L.Answers (List.map (Literal.map L.token id)) (Literal.checkAll expected ls)
      (Literal.checkAll expected (ls.map (·.map L.token id))) := by
  induction ls with
  | nil => exact .ok _ _
  | cons l ls ih =>
    obtain ⟨hl, hls⟩ := List.forall_mem_cons.1 h
    have hhead := Literal.check_alike (L := L) hl
    have htail := ih hls
    rw [List.map_cons, checkAll, checkAll]
    generalize l.check = c, (l.map L.token id).check = c' at hhead ⊢
    generalize checkAll expected ls = cs, checkAll expected (ls.map (·.map L.token id)) = cs'
      at htail ⊢
    cases hhead with
    | error l he => exact .error (l :: ls) he
    | ok l found =>
      by_cases hfound : found = expected
      · simp only [if_pos hfound]
        cases htail with
        | ok ls _ => exact .ok (l :: ls) ()
        | error ls he => exact .error (l :: ls) he
      · simp only [if_neg hfound]
        exact .error (l :: ls) (fails rfl)

theorem ListLiteral.check_alike {l : ListLiteral} (h : l.Grammatical) :
    L.Answers (ListLiteral.map L.token id) l.check (l.map L.token id).check := by
  obtain ⟨-, helements⟩ := h
  obtain ⟨opening, elements, slot⟩ := l
  cases elements with
  | nil => exact .ok _ _
  | cons first rest =>
    obtain ⟨hfirst, hrest⟩ := List.forall_mem_cons.1 helements
    have hhead := Literal.check_alike (L := L) hfirst
    have htail (ty : Ty) := Literal.checkAll_alike (L := L) ty hrest
    simp only [check, ListLiteral.map, List.map_cons]
    generalize first.check = c, (first.map L.token id).check = c' at hhead ⊢
    cases hhead with
    | error first he => exact .error (ListLiteral.mk opening (first :: rest) slot) he
    | ok first ty =>
      have htail := htail ty
      dsimp only
      generalize Literal.checkAll ty rest = c,
        Literal.checkAll ty (rest.map (·.map L.token id)) = c' at htail ⊢
      cases htail with
      | error rest he => exact .error (ListLiteral.mk opening (first :: rest) slot) he
      | ok rest _ => exact .ok (ListLiteral.mk opening (first :: rest) _) _

theorem BinaryOp.check_alike (op : BinaryOp) {symbol : Token} (h : symbol.Writes op.kind)
    (lhs rhs : Ty) :
    L.Yields Eq (op.check symbol lhs rhs) (op.check (L.token symbol) lhs rhs) := by
  have htext : (L.token symbol).text = symbol.text := text_of_ne h.1 (by cases op <;> decide)
  unfold check
  rw [htext]
  cases op.operandType? with
  | some ty =>
    dsimp only
    split
    · exact .ok rfl
    · exact .error (fails rfl)
  | none =>
    dsimp only
    split
    · split
      · exact .ok rfl
      · exact .error (fails rfl)
    · exact .error (fails rfl)

theorem UnaryOp.check_alike (op : UnaryOp) {symbol : Token} (h : symbol.Writes op.kind)
    (operand : Ty) :
    L.Yields Eq (op.check symbol operand) (op.check (L.token symbol) operand) := by
  have htext : (L.token symbol).text = symbol.text := text_of_ne h.1 (by cases op <;> decide)
  unfold check
  rw [htext]
  split
  · exact .ok rfl
  · exact .error (fails rfl)

theorem Expr.anchor_map (g : Token → Token) (s : Slot → Slot) (e : Expr) :
    (e.map g s).anchor = g e.anchor := by
  cases e <;> rfl

theorem elementType_alike (opening : Token) (target : Ty) (position : Expr) (found : Ty) :
    L.Yields Eq (elementType opening target position found)
      (elementType (L.token opening) target (position.map L.token id) found) := by
  unfold elementType
  rw [Expr.anchor_map]
  split
  · cases target.elementType? with
    | some ty => exact .ok rfl
    | none => exact .error (fails rfl)
  · exact .error (fails rfl)

theorem Expr.length_mapAll (g : Token → Token) (s : Slot → Slot) (es : List Expr) :
    (Expr.mapAll g s es).length = es.length := by
  rw [mapAll_eq_map, List.length_map]

section

variable {ctx : Context} {t t' : Tables}

theorem Identifier.check_alike (ht : L.alike ctx.procedure t t') {i : Identifier}
    (h : i.Grammatical) :
    L.Answers (Identifier.map L.token id) (i.check t ctx)
      ((i.map L.token id).check t' (ctx.rename L.name)) := by
  have hname : (i.map L.token id).name = L.name i.name := text_of_writes h
  unfold check
  rw [hname, L.lookup? ht h.isName]
  cases t.lookup? ctx i.name with
  | some register => exact .ok _ _
  | none => exact .error _ (fails rfl)

theorem Tables.callee_alike (ht : L.alike ctx.procedure t t') {name : Token}
    (h : name.Writes .identifier) (count : Nat) :
    L.Yields (Procedure.Callable L.name) (t.callee name count) (t'.callee (L.token name) count) := by
  have hcallable := L.callable ht h.isName
  unfold callee
  rw [text_of_writes h]
  generalize t.procedures.get? name.text = p?, t'.procedures.get? (L.name name.text) = p?'
    at hcallable ⊢
  cases hcallable with
  | none => exact .error (fails rfl)
  | some hp =>
    dsimp only
    rw [hp.arity]
    split
    · exact .ok hp
    · exact .error (fails rfl)

/-! Every kind of expression goes alike where its parts do. -/

theorem checkCall_alike_of_args (ht : L.alike ctx.procedure t t') {callee : Token}
    (h : callee.Writes .identifier) {args : List Expr}
    (hargs : ∀ ps, L.Answers (Expr.mapAll L.token id) (Expr.checkArgs t ctx ps args)
      (Expr.checkArgs t' (ctx.rename L.name) (ps.map (Prod.map L.name id))
        (Expr.mapAll L.token id args))) :
    L.Answers (Expr.mapAll L.token id) (checkCall t ctx callee args)
      (checkCall t' (ctx.rename L.name) (L.token callee) (Expr.mapAll L.token id args)) := by
  have hcallee := Tables.callee_alike ht h args.length
  rw [checkCall, checkCall, Expr.length_mapAll]
  generalize t.callee callee _ = c, t'.callee _ _ = c' at hcallee ⊢
  cases hcallee with
  | error he => exact .error args he
  | @ok p p' hp =>
    have hargs := hargs p.parameters
    dsimp only
    rw [hp.parameters]
    generalize Expr.checkArgs t ctx p.parameters args = c, Expr.checkArgs t' _ _ _ = c'
      at hargs ⊢
    cases hargs with
    | error args he => exact .error args he
    | ok args _ =>
      rw [hp.returnType]
      exact .ok args _

theorem Expr.call_alike {callee : Token} {args : List Expr} (slot : Slot)
    (hcall : L.Answers (Expr.mapAll L.token id) (checkCall t ctx callee args)
      (checkCall t' (ctx.rename L.name) (L.token callee) (Expr.mapAll L.token id args))) :
    L.Answers (Expr.map L.token id) ((Expr.call callee args slot).check t ctx)
      (((Expr.call callee args slot).map L.token id).check t' (ctx.rename L.name)) := by
  rw [Expr.map, check_call, check_call]
  generalize checkCall t ctx callee args = c, checkCall t' _ _ _ = c' at hcall ⊢
  cases hcall with
  | error args he => exact .error (Expr.call callee args slot) he
  | ok args ty => exact .ok (Expr.call callee args _) ty

theorem Expr.index_alike {target position : Expr} (opening : Token) (slot : Slot)
    (htarget : L.Answers (Expr.map L.token id) (target.check t ctx)
      ((target.map L.token id).check t' (ctx.rename L.name)))
    (hposition : L.Answers (Expr.map L.token id) (position.check t ctx)
      ((position.map L.token id).check t' (ctx.rename L.name))) :
    L.Answers (Expr.map L.token id) ((Expr.index target opening position slot).check t ctx)
      (((Expr.index target opening position slot).map L.token id).check t' (ctx.rename L.name)) := by
  rw [Expr.map, check, check]
  generalize target.check t ctx = c, (target.map L.token id).check _ _ = c' at htarget ⊢
  cases htarget with
  | error target he => exact .error (Expr.index target opening position slot) he
  | ok target targetTy =>
    dsimp only
    generalize position.check t ctx = c, (position.map L.token id).check _ _ = c' at hposition ⊢
    cases hposition with
    | error position he => exact .error (Expr.index target opening position slot) he
    | ok position found =>
      have helement := elementType_alike (L := L) opening targetTy position found
      dsimp only
      generalize elementType opening targetTy position found = c,
        elementType (L.token opening) targetTy _ found = c' at helement ⊢
      cases helement with
      | error he => exact .error (Expr.index target opening position slot) he
      | ok hty =>
        subst hty
        exact .ok (Expr.index target opening position _) _

theorem Expr.binary_alike {op : BinaryOp} {symbol : Token} (h : symbol.Writes op.kind)
    {lhs rhs : Expr} (slot : Slot)
    (hlhs : L.Answers (Expr.map L.token id) (lhs.check t ctx)
      ((lhs.map L.token id).check t' (ctx.rename L.name)))
    (hrhs : L.Answers (Expr.map L.token id) (rhs.check t ctx)
      ((rhs.map L.token id).check t' (ctx.rename L.name))) :
    L.Answers (Expr.map L.token id) ((Expr.binary op symbol lhs rhs slot).check t ctx)
      (((Expr.binary op symbol lhs rhs slot).map L.token id).check t' (ctx.rename L.name)) := by
  rw [Expr.map, check, check]
  generalize lhs.check t ctx = c, (lhs.map L.token id).check _ _ = c' at hlhs ⊢
  cases hlhs with
  | error lhs he => exact .error (Expr.binary op symbol lhs rhs slot) he
  | ok lhs lhsTy =>
    dsimp only
    generalize rhs.check t ctx = c, (rhs.map L.token id).check _ _ = c' at hrhs ⊢
    cases hrhs with
    | error rhs he => exact .error (Expr.binary op symbol lhs rhs slot) he
    | ok rhs rhsTy =>
      have hop := BinaryOp.check_alike (L := L) op h lhsTy rhsTy
      dsimp only
      generalize op.check symbol lhsTy rhsTy = c, op.check (L.token symbol) lhsTy rhsTy = c'
        at hop ⊢
      cases hop with
      | error he => exact .error (Expr.binary op symbol lhs rhs slot) he
      | ok hty =>
        subst hty
        exact .ok (Expr.binary op symbol lhs rhs _) _

theorem Expr.unary_alike {op : UnaryOp} {symbol : Token} (h : symbol.Writes op.kind)
    {operand : Expr} (slot : Slot)
    (hoperand : L.Answers (Expr.map L.token id) (operand.check t ctx)
      ((operand.map L.token id).check t' (ctx.rename L.name))) :
    L.Answers (Expr.map L.token id) ((Expr.unary op symbol operand slot).check t ctx)
      (((Expr.unary op symbol operand slot).map L.token id).check t' (ctx.rename L.name)) := by
  rw [Expr.map, check, check]
  generalize operand.check t ctx = c, (operand.map L.token id).check _ _ = c' at hoperand ⊢
  cases hoperand with
  | error operand he => exact .error (Expr.unary op symbol operand slot) he
  | ok operand operandTy =>
    have hop := UnaryOp.check_alike (L := L) op h operandTy
    dsimp only
    generalize op.check symbol operandTy = c, op.check (L.token symbol) operandTy = c' at hop ⊢
    cases hop with
    | error he => exact .error (Expr.unary op symbol operand slot) he
    | ok hty =>
      subst hty
      exact .ok (Expr.unary op symbol operand _) _

mutual

theorem Expr.check_alike (ht : L.alike ctx.procedure t t') (e : Expr) (h : e.Grammatical) :
    L.Answers (Expr.map L.token id) (e.check t ctx)
      ((e.map L.token id).check t' (ctx.rename L.name)) := by
  cases e with
  | name i =>
    have hi := Identifier.check_alike ht h
    rw [Expr.map, check, check]
    generalize i.check t ctx = c, (i.map L.token id).check _ _ = c' at hi ⊢
    cases hi with
    | ok i ty => exact .ok (Expr.name i) ty
    | error i he => exact .error (Expr.name i) he
  | call callee args slot =>
    have hargs (ps) := Expr.checkArgs_alike ht args h.2 ps
    exact Expr.call_alike slot (checkCall_alike_of_args ht h.1 hargs)
  | index target opening position slot =>
    exact Expr.index_alike opening slot (Expr.check_alike ht target h.1)
      (Expr.check_alike ht position h.2.2)
  | literal l =>
    have hl := Literal.check_alike (L := L) h
    rw [Expr.map, check, check]
    generalize l.check = c, (l.map L.token id).check = c' at hl ⊢
    cases hl with
    | ok l ty => exact .ok (Expr.literal l) ty
    | error l he => exact .error (Expr.literal l) he
  | list l =>
    have hl := ListLiteral.check_alike (L := L) h
    rw [Expr.map, check, check]
    generalize l.check = c, (l.map L.token id).check = c' at hl ⊢
    cases hl with
    | ok l ty => exact .ok (Expr.list l) ty
    | error l he => exact .error (Expr.list l) he
  | binary op symbol lhs rhs slot =>
    exact Expr.binary_alike h.1 slot (Expr.check_alike ht lhs h.2.1)
      (Expr.check_alike ht rhs h.2.2)
  | unary op symbol operand slot =>
    exact Expr.unary_alike h.1 slot (Expr.check_alike ht operand h.2)

theorem Expr.checkArgs_alike (ht : L.alike ctx.procedure t t') (es : List Expr)
    (h : Expr.AllGrammatical es) (ps : List (String × Ty)) :
    L.Answers (Expr.mapAll L.token id) (Expr.checkArgs t ctx ps es)
      (Expr.checkArgs t' (ctx.rename L.name) (ps.map (Prod.map L.name id))
        (Expr.mapAll L.token id es)) := by
  cases es with
  | nil => exact .ok [] ()
  | cons e es =>
    cases ps with
    | nil => exact .ok (e :: es) ()
    | cons p ps =>
      have hhead := Expr.check_alike ht e h.1
      have htail := Expr.checkArgs_alike ht es h.2 ps
      obtain ⟨parameter, expected⟩ := p
      rw [Expr.mapAll, List.map_cons, checkArgs, Prod.map, checkArgs]
      generalize e.check t ctx = c, (e.map L.token id).check _ _ = c' at hhead ⊢
      cases hhead with
      | error e he => exact .error (e :: es) he
      | ok e found =>
        dsimp only [id]
        split
        · generalize checkArgs t ctx ps es = c, checkArgs t' _ _ _ = c' at htail ⊢
          cases htail with
          | ok es _ => exact .ok (e :: es) ()
          | error es he => exact .error (e :: es) he
        · exact .error (e :: es) ⟨rfl, e.anchor_map L.token id⟩

end

theorem checkCall_alike (ht : L.alike ctx.procedure t t') {callee : Token}
    (h : callee.Writes .identifier) {args : List Expr} (hargs : Expr.AllGrammatical args) :
    L.Answers (Expr.mapAll L.token id) (checkCall t ctx callee args)
      (checkCall t' (ctx.rename L.name) (L.token callee) (Expr.mapAll L.token id args)) :=
  checkCall_alike_of_args ht h (Expr.checkArgs_alike ht args hargs)

end
end TeachLang
