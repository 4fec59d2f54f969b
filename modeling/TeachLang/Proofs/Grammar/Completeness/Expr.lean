import TeachLang.Proofs.Grammar.Soundness.Expr

/-! # Completeness of the parsers of expressions

Every parser of an expression yields the tree that the tokens in sight write, where the
token behind them cannot go on with the tree.  One token of lookahead is enough, because
the parts of an expression begin with different kinds of tokens than what may follow them.
-/

namespace TeachLang.Grammar

open TeachLang.Parser
open TokenStream (Reads reads_append reads_advance)

/-- The kinds of tokens that go on with an expression of a rank. -/
def goesOn : Rank → List TokenKind
  | .atom => [.parenthesisOpen]
  | .primary | .unary => [.bracketOpen, .parenthesisOpen]
  | .level .mul => First.mulOperator ++ [.bracketOpen, .parenthesisOpen]
  | .level .sum =>
    First.sumOperator ++ (First.mulOperator ++ [.bracketOpen, .parenthesisOpen])
  | .level .relational =>
    First.relationalOperator ++
      (First.sumOperator ++ (First.mulOperator ++ [.bracketOpen, .parenthesisOpen]))
  | .level .logic =>
    First.logicOperator ++ (First.relationalOperator ++
      (First.sumOperator ++ (First.mulOperator ++ [.bracketOpen, .parenthesisOpen])))

def first : Rank → List TokenKind
  | .atom | .primary => First.primary
  | .unary | .level _ => First.expr

theorem goesOn_operand (level : Level) :
    ∀ k ∈ goesOn level.operand, k ∈ goesOn (.level level) := by
  cases level <;> decide

theorem kind_not_mem_goesOn_operand (op : BinaryOp) : op.kind ∉ goesOn op.level.operand := by
  cases op <;> decide

theorem kind_mem_goesOn (op : BinaryOp) : op.kind ∈ goesOn (.level op.level) := by
  cases op <;> decide

theorem operator?_eq_none {level : Level} {kind : TokenKind} (h : kind ∉ goesOn (.level level)) :
    level.operator? kind = none := by
  rw [Option.eq_none_iff_forall_ne_some]
  intro op hop
  obtain ⟨rfl, rfl⟩ := (Level.operator?_eq_some_iff _ _ _).1 hop
  exact h (kind_mem_goesOn op)

theorem first_operand (level : Level) : first level.operand = First.expr := by
  cases level <;> rfl

theorem begins_literal : Begins First.simpleLiteral Literal.Written := by
  rintro _ _ ⟨hkind⟩
  exact ⟨_, _, rfl, hkind⟩

theorem begins_layer (E : Writing Expr) (r : Rank) : Begins (first r) (Expr.Layer E r) := by
  intro w e h
  induction h with
  | name hkind => exact ⟨_, _, rfl, by rw [hkind]; decide⟩
  | call hkind _ => exact ⟨_, _, rfl, by rw [hkind]; decide⟩
  | parentheses hkind _ _ => exact ⟨_, _, rfl, by rw [hkind]; decide⟩
  | literal h =>
    have hmem : ∀ k ∈ First.simpleLiteral, k ∈ First.primary := by decide
    obtain ⟨t, v, rfl, hkind⟩ := begins_literal h
    exact ⟨t, v, rfl, hmem _ hkind⟩
  | list h =>
    have hmem : ∀ k ∈ First.listLiteral, k ∈ First.primary := by decide
    cases h with | mk hkind _ _ =>
    exact ⟨_, _, rfl, hmem _ hkind⟩
  | atom _ ih => exact ih
  | index _ _ _ _ ih =>
    obtain ⟨t, v, rfl, hkind⟩ := ih
    exact ⟨t, _, rfl, hkind⟩
  | primary _ ih =>
    have hmem : ∀ k ∈ First.primary, k ∈ First.expr := by decide
    obtain ⟨t, v, rfl, hkind⟩ := ih
    exact ⟨t, v, rfl, hmem _ hkind⟩
  | @unary _ op _ _ hsymbol _ _ =>
    refine ⟨_, _, rfl, ?_⟩
    rw [hsymbol]
    cases op <;> decide
  | @operand level _ _ _ ih =>
    obtain ⟨t, v, rfl, hkind⟩ := ih
    rw [first_operand] at hkind
    exact ⟨t, v, rfl, hkind⟩
  | binary _ _ _ ih =>
    obtain ⟨t, v, rfl, hkind⟩ := ih
    exact ⟨t, _, rfl, hkind⟩

theorem begins_expr : Begins First.expr Expr.Written := by
  rintro w e ⟨h⟩
  exact begins_layer _ _ h

variable {σ : Type} [TokenStream σ]

theorem literal_complete (bound : Nat) :
    Complete (literal : Parser σ Literal) bound Literal.Written [] := by
  rintro s _ left _ ⟨hkind, hlegible⟩ - hreads -
  simp only [literal, bind_eq_ok, expectAny_eq_ok]
  exact ⟨_, left, ⟨hkind, hreads⟩, by rw [if_pos hlegible]; rfl⟩

theorem closing_not_mem {kind : TokenKind} (h : kind ∈ First.listLiteral) :
    closing kind ∉ First.simpleLiteral ++ [.comma] := by
  revert kind
  decide

theorem listLiteral_complete {bound fuel : Nat} (hfuel : bound ≤ fuel) :
    Complete (listLiteral fuel : Parser σ ListLiteral) bound ListLiteral.Written [] := by
  rintro s _ left _ ⟨hopening, hw, hclosing⟩ hlength hreads -
  obtain ⟨m₁, h₁, hreads⟩ := reads_append (v := [_]).1 hreads
  obtain ⟨m₂, h₂, h₃⟩ := reads_append.1 hreads
  simp only [List.length_cons, List.length_append] at hlength
  have helements := commaSeparated_complete (literal_complete bound) begins_literal
    (List.not_mem_nil) hfuel hw (by omega) h₂ (by rw [h₃.1, hclosing]; exact closing_not_mem hopening)
  simp only [listLiteral, bind_eq_ok, expectAny_eq_ok, expect_eq_ok, pure_eq_ok]
  exact ⟨_, m₁, ⟨hopening, h₁⟩, _, m₂, helements, _, left, ⟨hclosing, h₃⟩, rfl, rfl⟩

section

variable {E : Writing Expr} {expr : Parser σ Expr} {bound fuel : Nat}

theorem arguments_complete (hE : Complete expr bound E (goesOn (.level .logic)))
    (hfirst : Begins First.expr E) (hfuel : bound ≤ fuel) :
    Complete (arguments expr fuel) (bound + 1) (Expr.Arguments E) [] := by
  rintro s _ left _ ⟨hopening, hw, hclosing⟩ hlength hreads -
  obtain ⟨m₁, h₁, hreads⟩ := reads_append (v := [_]).1 hreads
  obtain ⟨m₂, h₂, h₃⟩ := reads_append.1 hreads
  simp only [List.length_cons, List.length_append] at hlength
  have hargs := commaSeparated_complete hE hfirst (by decide) hfuel hw (by omega) h₂
    (by rw [h₃.1, hclosing]; decide)
  simp only [arguments, bind_eq_ok, expect_eq_ok, pure_eq_ok]
  exact ⟨_, m₁, ⟨hopening, h₁⟩, _, m₂, hargs, _, left, ⟨hclosing, h₃⟩, rfl, rfl⟩

theorem atom_complete (hE : Complete expr bound E (goesOn (.level .logic)))
    (hfirst : Begins First.expr E) (hfuel : bound + 1 ≤ fuel) :
    Complete (atom expr fuel) (bound + 1) (Expr.Layer E .atom) (goesOn .atom) := by
  intro s w left e h hlength hreads hleft
  rw [atom, current_bind]
  cases h with
  | @name t hkind =>
    rw [hreads.1, hkind]
    simp only [bind_eq_ok, advance_eq_ok, has_eq_ok]
    refine ⟨t, left, hreads, false, left, ⟨?_, rfl⟩, rfl⟩
    simpa [goesOn] using hleft
  | @call t w args hkind hargs =>
    obtain ⟨m, h₁, h₂⟩ := reads_append (v := [_]).1 hreads
    have hcall := arguments_complete hE hfirst (Nat.le_of_succ_le hfuel) hargs
      (Nat.le_of_succ_le hlength) h₂ List.not_mem_nil
    rw [h₁.1, hkind]
    simp only [bind_eq_ok, advance_eq_ok, has_eq_ok]
    refine ⟨t, m, h₁, true, m, ⟨?_, rfl⟩, ?_⟩
    · cases hargs with | mk hopening _ _ =>
      rw [h₂.1, hopening]
      rfl
    · simp only [if_true, bind_eq_ok, pure_eq_ok]
      exact ⟨args, left, hcall, rfl, rfl⟩
  | @parentheses opening closing w e hopening hinner hclosing =>
    obtain ⟨m₁, h₁, hreads⟩ := reads_append (v := [_]).1 hreads
    obtain ⟨m₂, h₂, h₃⟩ := reads_append.1 hreads
    simp only [List.length_cons, List.length_append] at hlength
    have he := hE hinner (by omega) h₂ (by rw [h₃.1, hclosing]; decide)
    rw [h₁.1, hopening]
    simp only [bind_eq_ok, advance_eq_ok, expect_eq_ok, pure_eq_ok]
    exact ⟨opening, m₁, h₁, e, m₂, he, closing, left, ⟨hclosing, h₃⟩, rfl, rfl⟩
  | @literal w l hliteral =>
    have hl := literal_complete (bound + 1) hliteral hlength hreads List.not_mem_nil
    have hresult : (literal >>= fun l => pure (Expr.literal l)) s = (.ok (.literal l), left) :=
      bind_eq_ok.2 ⟨l, left, hl, rfl⟩
    cases hliteral with | mk hkind =>
    rw [hreads.1]
    simp only [First.simpleLiteral, List.mem_cons, List.not_mem_nil, or_false] at hkind
    rcases hkind with hkind | hkind | hkind | hkind <;> rw [hkind] <;> exact hresult
  | @list w l hlist =>
    have hl := listLiteral_complete hfuel hlist hlength hreads List.not_mem_nil
    have hresult : (listLiteral fuel >>= fun l => pure (Expr.list l)) s = (.ok (.list l), left) :=
      bind_eq_ok.2 ⟨l, left, hl, rfl⟩
    cases hlist with | mk hkind _ _ =>
    rw [hreads.1]
    simp only [First.listLiteral, List.mem_cons, List.not_mem_nil, or_false] at hkind
    rcases hkind with hkind | hkind <;> rw [hkind] <;> exact hresult

theorem primary_complete (hE : Complete expr bound E (goesOn (.level .logic)))
    (hfirst : Begins First.expr E) (hfuel : bound + 1 ≤ fuel) :
    Complete (primary expr fuel) (bound + 1) (Expr.Layer E .primary) (goesOn .primary) := by
  have hatom := atom_complete hE hfirst hfuel
  intro s w left e h hlength hreads hleft
  simp only [goesOn, List.mem_cons, List.not_mem_nil, or_false, not_or] at hleft
  simp only [primary, bind_eq_ok]
  cases h with
  | atom h =>
    refine ⟨e, left, hatom h hlength hreads (by simpa [goesOn] using hleft.2), none, left, ?_, rfl⟩
    exact take?_none_eq_ok.2 ⟨hleft.1, rfl⟩
  | @index v w opening closing target position htarget hopening hposition hclosing =>
    obtain ⟨m₁, h₁, hreads⟩ := reads_append.1 hreads
    obtain ⟨m₂, h₂, hreads⟩ := reads_append (v := [_]).1 hreads
    obtain ⟨m₃, h₃, h₄⟩ := reads_append.1 hreads
    simp only [List.length_cons, List.length_append] at hlength
    refine ⟨target, m₁, hatom htarget (by omega) h₁ (by rw [h₂.1, hopening]; decide), some opening,
      m₂, take?_some_eq_ok.2 ⟨hopening, h₂⟩, ?_⟩
    have hinner := hE hposition (by omega) h₃ (by rw [h₄.1, hclosing]; decide)
    simp only [bind_eq_ok, expect_eq_ok, pure_eq_ok]
    exact ⟨position, m₃, hinner, closing, left, ⟨hclosing, h₄⟩, rfl, rfl⟩

theorem unary_complete {p : Parser σ Expr}
    (hp : Complete p bound (Expr.Layer E .primary) (goesOn .primary)) (hfuel : bound ≤ fuel) :
    Complete (unary p fuel) bound (Expr.Layer E .unary) (goesOn .unary) := by
  intro s w left e h hlength hreads hleft
  have hcount := Nat.le_trans hlength hfuel
  clear hfuel
  generalize hr : Rank.unary = r at h
  induction h generalizing s fuel with
  | @primary w e h =>
    cases fuel with
    | zero => exact hp h hlength hreads hleft
    | succ fuel =>
      have hnone : ∀ k ∈ First.primary, UnaryOp.ofKind? k = none := by decide
      obtain ⟨t, v, rfl, hkind⟩ := begins_layer E .primary h
      rw [unary_succ, takeAs?_bind, hreads.1, hnone _ hkind]
      exact hp h hlength hreads hleft
  | @unary symbol op w operand hsymbol h ih =>
    obtain ⟨m, h₁, h₂⟩ := reads_append (v := [_]).1 hreads
    cases fuel with
    | zero => simp at hcount
    | succ fuel =>
      simp only [List.length_cons] at hlength hcount
      have hrest : Grammar.unary p fuel m = (.ok operand, left) :=
        ih (by omega) h₂ (by omega) rfl
      simp only [unary_succ, bind_eq_ok]
      exact ⟨some (op, symbol), m,
        takeAs?_some_eq_ok.2 ⟨(UnaryOp.ofKind?_eq_some_iff _ _).2 hsymbol, h₁⟩,
        bind_eq_ok.2 ⟨operand, left, hrest, rfl⟩⟩
  | _ => cases hr

/-- Operands with operators between are read from the left: what is in front of some operators of a
level leads to the point behind them. -/
theorem operation_eq_moreOperands {level : Level} {p : Parser σ Expr}
    (hp : Complete p bound (Expr.Layer E level.operand) (goesOn level.operand)) {s left : σ}
    {w : List Token} {e : Expr} (h : Expr.Layer E (.level level) w e) (hlength : w.length ≤ bound)
    (hfuel : bound ≤ fuel) (hreads : Reads s w left)
    (hleft : (TokenStream.current left).kind ∉ goesOn level.operand) :
    ∃ count, count < w.length ∧
      operation level p fuel s = moreOperands level p (fuel - count) e left := by
  generalize hr : Rank.level level = r at h
  induction h generalizing left with
  | @operand l w e h =>
    obtain rfl : level = l := Rank.level.inj hr
    have hpos := (begins_layer E _).length_pos h
    refine ⟨0, hpos, ?_⟩
    rw [operation, bind_apply, hp h hlength hreads hleft, Nat.sub_zero]
  | @binary v w symbol op lhs rhs _ hsymbol hrhs ih _ =>
    obtain rfl : level = op.level := Rank.level.inj hr
    obtain ⟨m₁, h₁, hreads⟩ := reads_append.1 hreads
    obtain ⟨m₂, h₂, h₃⟩ := reads_append (v := [_]).1 hreads
    have hpos := (begins_layer E _).length_pos hrhs
    simp only [List.length_append, List.length_cons] at hlength ⊢
    have hkind : (TokenStream.current m₁).kind = op.kind := by rw [h₂.1, hsymbol]
    obtain ⟨count, hcount, heq⟩ := ih (by omega) h₁
      (by rw [hkind]; exact kind_not_mem_goesOn_operand op) rfl
    have hright := hp hrhs (by omega) h₃ hleft
    refine ⟨count + 1, by omega, ?_⟩
    obtain ⟨fewer, hfewer⟩ : ∃ fewer, fuel - count = fewer + 1 := ⟨fuel - count - 1, by omega⟩
    have hoperator : op.level.operator? (TokenStream.current m₁).kind = some op :=
      (Level.operator?_eq_some_iff _ _ _).2 ⟨hkind, rfl⟩
    rw [heq, hfewer, moreOperands_succ, takeAs?_bind, hoperator]
    dsimp only
    rw [bind_apply, h₂.1, h₂.2, hright, show fuel - (count + 1) = fewer by omega]
  | _ => cases hr

theorem operation_complete {level : Level} {p : Parser σ Expr}
    (hp : Complete p bound (Expr.Layer E level.operand) (goesOn level.operand))
    (hfuel : bound ≤ fuel) :
    Complete (operation level p fuel) bound (Expr.Layer E (.level level)) (goesOn (.level level)) := by
  intro s w left e h hlength hreads hleft
  obtain ⟨count, hcount, heq⟩ := operation_eq_moreOperands hp h hlength hfuel hreads
    fun hk => hleft (goesOn_operand level _ hk)
  obtain ⟨fewer, hfewer⟩ : ∃ fewer, fuel - count = fewer + 1 := ⟨fuel - count - 1, by omega⟩
  rw [heq, hfewer, moreOperands_succ, takeAs?_bind, operator?_eq_none hleft]
  rfl

end

theorem expr_complete (fuel : Nat) :
    Complete (expr fuel : Parser σ Expr) fuel Expr.Written (goesOn (.level .logic)) := by
  induction fuel with
  | zero =>
    intro s w left e h hlength
    exact absurd (begins_expr.length_pos h) (by omega)
  | succ fuel ih =>
    rintro s w left e ⟨h⟩
    have hprimary := primary_complete ih begins_expr (Nat.le_refl (fuel + 1))
    have hunary := unary_complete hprimary (Nat.le_refl (fuel + 1))
    have hterm : Complete _ _ (Expr.Layer _ (.level .mul)) _ :=
      operation_complete hunary (Nat.le_refl (fuel + 1))
    have hsum : Complete _ _ (Expr.Layer _ (.level .sum)) _ :=
      operation_complete hterm (Nat.le_refl (fuel + 1))
    have hrelation : Complete _ _ (Expr.Layer _ (.level .relational)) _ :=
      operation_complete hsum (Nat.le_refl (fuel + 1))
    have hlogic : Complete _ _ (Expr.Layer _ (.level .logic)) _ :=
      operation_complete hrelation (Nat.le_refl (fuel + 1))
    exact hlogic h

end TeachLang.Grammar
