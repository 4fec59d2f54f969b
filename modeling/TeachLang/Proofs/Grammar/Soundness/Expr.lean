import TeachLang.Proofs.Grammar.Written

/-! # Soundness of the parsers of expressions

Every parser of an expression yields a tree that is written by the tokens that it went
past.
-/

namespace TeachLang.Grammar

open TeachLang.Parser
open TokenStream (Reads reads_append reads_advance)

variable {σ : Type} [TokenStream σ]

theorem literal_sound : Sound (literal : Parser σ Literal) Literal.Written := by
  intro s l left h
  simp only [literal, bind_eq_ok, expectAny_eq_ok] at h
  obtain ⟨t, m, ⟨hkind, hreads⟩, h⟩ := h
  by_cases hlegible : t.isLegible
  · rw [if_pos hlegible] at h
    obtain ⟨rfl, rfl⟩ := pure_eq_ok.1 h
    exact ⟨[t], hreads, .mk hkind hlegible⟩
  · rw [if_neg hlegible] at h
    exact (failAt_eq_ok.1 h).elim

theorem listLiteral_sound (fuel : Nat) :
    Sound (listLiteral fuel : Parser σ ListLiteral) ListLiteral.Written := by
  intro s l left h
  simp only [listLiteral, bind_eq_ok, expectAny_eq_ok, expect_eq_ok, pure_eq_ok] at h
  obtain ⟨opening, m₁, ⟨hopening, h₁⟩, es, m₂, hes, closing, m₃, ⟨hclosing, h₃⟩, rfl, rfl⟩ := h
  obtain ⟨w, h₂, hw⟩ := commaSeparated_sound literal_sound fuel hes
  exact ⟨opening :: (w ++ [closing]), reads_append.2 ⟨m₁, h₁, reads_append.2 ⟨m₂, h₂, h₃⟩⟩,
    .mk hopening hw hclosing⟩

section

variable {E : Writing Expr} {expr : Parser σ Expr}

theorem arguments_sound (hE : Sound expr E) (fuel : Nat) :
    Sound (arguments expr fuel) (Expr.Arguments E) := by
  intro s args left h
  simp only [arguments, bind_eq_ok, expect_eq_ok, pure_eq_ok] at h
  obtain ⟨opening, m₁, ⟨hopening, h₁⟩, args, m₂, hargs, closing, m₃, ⟨hclosing, h₃⟩, rfl, rfl⟩ := h
  obtain ⟨w, h₂, hw⟩ := commaSeparated_sound hE fuel hargs
  exact ⟨opening :: (w ++ [closing]), reads_append.2 ⟨m₁, h₁, reads_append.2 ⟨m₂, h₂, h₃⟩⟩,
    .mk hopening hw hclosing⟩

theorem atom_sound (hE : Sound expr E) (fuel : Nat) :
    Sound (atom expr fuel) (Expr.Layer E .atom) := by
  have hlist : Sound (listLiteral fuel >>= fun l => pure (Expr.list l) : Parser σ Expr)
      (Expr.Layer E .atom) := (listLiteral_sound fuel).map fun _ _ => .list
  have hliteral : Sound (literal >>= fun l => pure (Expr.literal l) : Parser σ Expr)
      (Expr.Layer E .atom) := literal_sound.map fun _ _ => .literal
  intro s e left h
  rw [atom, current_bind] at h
  generalize hkind : (TokenStream.current s).kind = kind at h
  split at h
  case h_1 =>
    simp only [bind_eq_ok, advance_eq_ok, expect_eq_ok, pure_eq_ok] at h
    obtain ⟨opening, m₁, ⟨rfl, rfl⟩, inner, m₂, hinner, closing, m₃, ⟨hclosing, h₃⟩, rfl, rfl⟩ := h
    obtain ⟨w, h₂, hw⟩ := hE hinner
    exact ⟨TokenStream.current s :: (w ++ [closing]),
      reads_append.2 ⟨_, reads_advance s, reads_append.2 ⟨m₂, h₂, h₃⟩⟩,
      .parentheses hkind hw hclosing⟩
  case h_2 =>
    simp only [bind_eq_ok, advance_eq_ok, has_eq_ok] at h
    obtain ⟨name, m, ⟨rfl, rfl⟩, isCall, m, ⟨hisCall, rfl⟩, h⟩ := h
    cases isCall with
    | false =>
      obtain ⟨rfl, rfl⟩ := pure_eq_ok.1 h
      exact ⟨[TokenStream.current s], reads_advance s, .name hkind⟩
    | true =>
      obtain ⟨args, m, hargs, hpure⟩ := bind_eq_ok.1 h
      obtain ⟨rfl, rfl⟩ := pure_eq_ok.1 hpure
      obtain ⟨w, hreads, hw⟩ := arguments_sound hE fuel hargs
      exact ⟨TokenStream.current s :: w, reads_append.2 ⟨_, reads_advance s, hreads⟩,
        .call hkind hw⟩
  case h_3 => exact hlist h
  case h_4 => exact hlist h
  case h_9 => exact (fail_eq_ok.1 h).elim
  all_goals exact hliteral h

theorem primary_sound (hE : Sound expr E) (fuel : Nat) :
    Sound (primary expr fuel) (Expr.Layer E .primary) := by
  intro s e left h
  simp only [primary, bind_eq_ok] at h
  obtain ⟨target, m₁, htarget, found, m₂, hfound, h⟩ := h
  obtain ⟨v, h₁, hv⟩ := atom_sound hE fuel htarget
  cases found with
  | none =>
    obtain ⟨-, rfl⟩ := take?_none_eq_ok.1 hfound
    obtain ⟨rfl, rfl⟩ := pure_eq_ok.1 h
    exact ⟨v, h₁, .atom hv⟩
  | some opening =>
    simp only [bind_eq_ok, expect_eq_ok, pure_eq_ok] at h
    obtain ⟨position, m₃, hposition, closing, m₄, ⟨hclosing, h₄⟩, rfl, rfl⟩ := h
    obtain ⟨hopening, h₂⟩ := take?_some_eq_ok.1 hfound
    obtain ⟨w, h₃, hw⟩ := hE hposition
    exact ⟨v ++ opening :: (w ++ [closing]),
      reads_append.2 ⟨m₁, h₁, reads_append.2 ⟨m₂, h₂, reads_append.2 ⟨m₃, h₃, h₄⟩⟩⟩,
      .index hv hopening hw hclosing⟩

theorem unary_sound {operand : Parser σ Expr} (hoperand : Sound operand (Expr.Layer E .primary))
    (fuel : Nat) : Sound (unary operand fuel) (Expr.Layer E .unary) := by
  induction fuel with
  | zero =>
    intro s e left h
    obtain ⟨w, hreads, hw⟩ := hoperand h
    exact ⟨w, hreads, .primary hw⟩
  | succ fuel ih =>
    intro s e left h
    simp only [unary_succ, bind_eq_ok] at h
    obtain ⟨found, m, hfound, h⟩ := h
    rcases found with _ | ⟨op, symbol⟩
    · obtain ⟨-, rfl⟩ := takeAs?_none_eq_ok.1 hfound
      obtain ⟨w, hreads, hw⟩ := hoperand h
      exact ⟨w, hreads, .primary hw⟩
    · simp only [bind_eq_ok, pure_eq_ok] at h
      obtain ⟨operand, m', hrest, rfl, rfl⟩ := h
      obtain ⟨hsymbol, h₁⟩ := takeAs?_some_eq_ok.1 hfound
      obtain ⟨w, h₂, hw⟩ := ih hrest
      exact ⟨symbol :: w, reads_append.2 ⟨m, h₁, h₂⟩,
        .unary ((UnaryOp.ofKind?_eq_some_iff _ _).1 hsymbol) hw⟩

/-- Further operands go to the right of what has been read. -/
theorem moreOperands_sound {level : Level} {operand : Parser σ Expr}
    (hoperand : Sound operand (Expr.Layer E level.operand)) {fuel : Nat} {lhs e : Expr}
    {v : List Token} (hlhs : Expr.Layer E (.level level) v lhs) {s left : σ}
    (h : moreOperands level operand fuel lhs s = (.ok e, left)) :
    ∃ w, Reads s w left ∧ Expr.Layer E (.level level) (v ++ w) e := by
  induction fuel generalizing s lhs v with
  | zero =>
    obtain ⟨rfl, rfl⟩ := pure_eq_ok.1 h
    exact ⟨[], rfl, by rwa [List.append_nil]⟩
  | succ fuel ih =>
    simp only [moreOperands_succ, bind_eq_ok] at h
    obtain ⟨found, m, hfound, h⟩ := h
    rcases found with _ | ⟨op, symbol⟩
    · obtain ⟨-, rfl⟩ := takeAs?_none_eq_ok.1 hfound
      obtain ⟨rfl, rfl⟩ := pure_eq_ok.1 h
      exact ⟨[], rfl, by rwa [List.append_nil]⟩
    · obtain ⟨rhs, m', hrhs, hmore⟩ := bind_eq_ok.1 h
      obtain ⟨hsymbol, h₁⟩ := takeAs?_some_eq_ok.1 hfound
      obtain ⟨hkind, rfl⟩ := (Level.operator?_eq_some_iff _ _ _).1 hsymbol
      obtain ⟨w, h₂, hw⟩ := hoperand hrhs
      obtain ⟨rest, h₃, hrest⟩ := ih (.binary hlhs hkind hw) hmore
      refine ⟨symbol :: (w ++ rest), reads_append.2 ⟨m, h₁, reads_append.2 ⟨m', h₂, h₃⟩⟩, ?_⟩
      simpa using hrest

theorem operation_sound {level : Level} {operand : Parser σ Expr}
    (hoperand : Sound operand (Expr.Layer E level.operand)) (fuel : Nat) :
    Sound (operation level operand fuel) (Expr.Layer E (.level level)) := by
  intro s e left h
  obtain ⟨lhs, m, hlhs, hmore⟩ := bind_eq_ok.1 h
  obtain ⟨v, h₁, hv⟩ := hoperand hlhs
  obtain ⟨w, h₂, hw⟩ := moreOperands_sound hoperand (.operand hv) hmore
  exact ⟨v ++ w, reads_append.2 ⟨m, h₁, h₂⟩, hw⟩

end

theorem expr_sound (fuel : Nat) : Sound (expr fuel : Parser σ Expr) Expr.Written := by
  induction fuel with
  | zero =>
    intro s e left h
    exact (fail_eq_ok.1 h).elim
  | succ fuel ih =>
    intro s e left h
    have hunary := unary_sound (primary_sound ih (fuel + 1)) (fuel + 1)
    have hterm : Sound _ (Expr.Layer _ (.level .mul)) := operation_sound hunary (fuel + 1)
    have hsum : Sound _ (Expr.Layer _ (.level .sum)) := operation_sound hterm (fuel + 1)
    have hrelation : Sound _ (Expr.Layer _ (.level .relational)) :=
      operation_sound hsum (fuel + 1)
    have hlogic : Sound _ (Expr.Layer _ (.level .logic)) := operation_sound hrelation (fuel + 1)
    obtain ⟨w, hreads, hw⟩ := hlogic h
    exact ⟨w, hreads, .mk hw⟩

end TeachLang.Grammar
