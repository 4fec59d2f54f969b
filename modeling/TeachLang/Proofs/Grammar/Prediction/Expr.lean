import TeachLang.Proofs.Grammar.Meaning
import TeachLang.Proofs.Grammar.Predictive

/-! # Prediction of expressions

Every parser of expressions is predictive for its part of the documented grammar, if the parser
of the expressions inside is.
-/

namespace TeachLang.Grammar

open TeachLang.Parser Ebnf

variable {σ τ : Type} [TokenStream σ] [TokenStream τ] {n fuel more : Nat}

/-- A literal that can be converted is read and nothing else happens. -/
theorem literal_apply {s : σ} (h : (TokenStream.current s).isLegible) :
    literal s = (do
      let token ← expectAny First.simpleLiteral
      return ⟨token, .ofToken token, none⟩ : Parser σ Literal) s := by
  rw [literal, bind_apply, bind_apply]
  rcases hresult : expectAny First.simpleLiteral s with ⟨e | t, m⟩
  · rfl
  · obtain ⟨-, rfl, -⟩ := expectAny_eq_ok.1 hresult
    dsimp only
    rw [if_pos h]

theorem literal_predictive (s : σ) :
    Predictive n (literal : Parser σ Literal) (literal : Parser τ Literal)
      (part .simpleLiteral) s := by
  intro hlegible
  have hread : Predictive n (do
      let token ← expectAny First.simpleLiteral
      return ⟨token, .ofToken token, none⟩ : Parser σ Literal) (do
      let token ← expectAny First.simpleLiteral
      return ⟨token, .ofToken token, none⟩ : Parser τ Literal) (part .simpleLiteral) s :=
    .part (.map (.expectAny (by decide)) _)
  refine hread.congr (literal_apply hlegible.current) (fun s' hs' => literal_apply ?_) hlegible
  rw [hs']
  exact hlegible.current

def listForm (opening : TokenKind) : Ebnf :=
  seq [token opening, optional (commas (part .simpleLiteral)), token (closing opening)]

def argumentsForm : Ebnf :=
  seq [token .parenthesisOpen, optional (commas (part .expr)), token .parenthesisClose]

theorem listLiteral_predictive {opening : TokenKind} (hopening : opening ∈ First.listLiteral)
    (hn : n ≤ fuel) (hfuel : fuel ≤ more) {s : σ} (hs : (TokenStream.current s).kind = opening) :
    Predictive n (listLiteral fuel : Parser σ ListLiteral)
      (listLiteral more : Parser τ ListLiteral) (listForm opening) s := by
  refine .expectAny_bind hs hopening fun t m ht => ?_
  refine .bind (.commaSeparated _ rfl (by omega) hfuel literal_predictive m) rfl
    fun elements m => ?_
  rw [ht]
  exact .expect_bind rfl fun _ _ => .pure .empty

/-- A list literal with either sort of brackets. -/
theorem anyList_predictive (hn : n ≤ fuel) (hfuel : fuel ≤ more) (s : σ) :
    Predictive n (listLiteral fuel : Parser σ ListLiteral)
      (listLiteral more : Parser τ ListLiteral)
      (.either (listForm .curlyOpen) (listForm .bracketOpen)) s := by
  by_cases hs : (TokenStream.current s).kind ∈ First.listLiteral
  · have hkind : (TokenStream.current s).kind = .curlyOpen ∨
        (TokenStream.current s).kind = .bracketOpen := by simpa [First.listLiteral] using hs
    rcases hkind with hcurly | hbracket
    · exact .left (listLiteral_predictive (by decide) hn hfuel hcurly)
    · exact .right (listLiteral_predictive (by decide) hn hfuel hbracket)
  · have hfail : Predictive n (fail (.anyOf First.listLiteral) : Parser σ ListLiteral)
        (fail (.anyOf First.listLiteral) : Parser τ ListLiteral)
        (.either (listForm .curlyOpen) (listForm .bracketOpen)) s := .failAny (by decide) (by decide)
    refine hfail.congr ?_ fun s' hs' => ?_
    · rw [listLiteral, bind_apply, expectAny_of_not_mem hs]
      rfl
    · rw [listLiteral, bind_apply, expectAny_of_not_mem (by rwa [hs'])]
      rfl

section

variable {e : Parser σ Expr} {e' : Parser τ Expr}
  (he : ∀ m, Predictive (n - 1) e e' (part .expr) m)

include he

theorem arguments_predictive (hn : n ≤ fuel) (hfuel : fuel ≤ more) (s : σ) :
    Predictive n (arguments e fuel) (arguments e' more)
      argumentsForm s := by
  refine .expect_bind rfl fun _ m => ?_
  refine .bind (.commaSeparated _ rfl (by omega) hfuel he m) rfl fun args m => ?_
  exact .expect_bind rfl fun _ _ => .pure .empty

theorem atom_predictive (hn : n ≤ fuel) (hfuel : fuel ≤ more) (s : σ) :
    Predictive n (atom e fuel) (atom e' more) (part .atom) s := by
  refine .current_bind ?_
  cases hs : (TokenStream.current s).kind
  case parenthesisOpen =>
    refine .part (.left (.advance_bind hs fun _ m => ?_))
    exact .bind (he m) rfl fun _ m => .expect_bind rfl fun _ _ => .pure .empty
  case identifier =>
    have hbehind : n - 1 ≤ fuel := Nat.le_trans (Nat.sub_le n 1) hn
    have he' (m : σ) := (he m).mono (Nat.sub_le _ 1)
    have hcall (m : σ) := arguments_predictive he' hbehind hfuel m
    refine .imp (x := seq [token .identifier, optional argumentsForm])
      (.advance_bind hs fun name m => .last (.has_bind fun b _ => ?_)) fun ks hks => ?_
    · cases b with
      | false => exact .pure (.left .empty)
      | true => exact .right (.map (hcall m) _)
    · obtain ⟨js, ls, rfl, hname, hrest⟩ := hks.seq_cons
      cases hrest.seq_singleton with
      | left hnone =>
        cases hnone
        rw [List.append_nil]
        exact .part (.right (.left hname))
      | right hargs => exact .part (.right (.right (.left (.next hname hargs))))
  case curlyOpen =>
    exact .part (.right (.right (.right (.right (.left
      (.map (listLiteral_predictive (by decide) hn hfuel hs) _))))))
  case bracketOpen =>
    exact .part (.right (.right (.right (.right (.right (.left
      (.map (listLiteral_predictive (by decide) hn hfuel hs) _)))))))
  case intLiteral | stringLiteral | kwTrue | kwFalse =>
    exact .part (.right (.right (.right (.left (.map (literal_predictive s) _)))))
  all_goals exact .failAny (by decide) (by decide)

theorem primary_predictive (hn : n ≤ fuel) (hfuel : fuel ≤ more) (s : σ) :
    Predictive n (primary e fuel) (primary e' more) (part .primary) s := by
  refine .part (.bind (atom_predictive he hn hfuel s) rfl fun target m => ?_)
  refine .last (.take?_optional (fun opening m => ?_) (.pure .empty))
  exact .bind (he m) rfl fun _ m => .expect_bind rfl fun _ _ => .pure .empty

end

/-- Signs in front of an operand, each of which uses up one unit of fuel. -/
theorem unary_predictive {e : Parser σ Expr} {e' : Parser τ Expr} (hn : n ≤ fuel)
    (hfuel : fuel ≤ more) (he : ∀ m, Predictive n e e' (part .primary) m) (s : σ) :
    Predictive n (unary e fuel) (unary e' more) (part .unary) s := by
  refine fuel_induction (T := fun n fuel more => (∀ m, Predictive n e e' (part .primary) m) →
    ∀ s, Predictive n (unary e fuel) (unary e' more) (part .unary) s) ?_ ?_ hn hfuel he s
  · intro more he s
    exact .of_zero (.part (.right (.left (he s))))
  · intro n fuel more _ _ ih he s
    have hoperand (m : σ) := ih (fun m => (he m).mono (Nat.sub_le _ _)) m
    rw [unary_succ, unary_succ]
    refine .takeAs?_bind (y := part .unary) ?_ (fun op t m => .map (hoperand m) _) ?_
    · intro kind op hop ks hks
      have hkind : kind ∈ First.unaryOperator := by
        rw [(UnaryOp.ofKind?_eq_some_iff _ _).1 hop]
        cases op <;> decide
      exact .part (.left (.next (.oneOf hkind) (.last hks)))
    · exact .part (.right (.left (he s)))

section

variable (level : Level) {e : Parser σ Expr} {e' : Parser τ Expr}

theorem moreOperands_predictive (hn : n ≤ fuel) (hfuel : fuel ≤ more)
    (he : ∀ m, Predictive n e e' (part level.operand.nonterminal) m) (lhs : Expr) (s : σ) :
    Predictive n (moreOperands level e fuel lhs) (moreOperands level e' more lhs)
      (repeated level.more) s := by
  refine fuel_induction (T := fun n fuel more =>
    (∀ m, Predictive n e e' (part level.operand.nonterminal) m) → ∀ lhs s,
      Predictive n (moreOperands level e fuel lhs) (moreOperands level e' more lhs)
        (repeated level.more) s) ?_ ?_ hn hfuel he lhs s
  · intro more _ lhs s
    exact .of_zero (q := pure lhs) (.pure .stop)
  · intro n fuel more _ _ ih he lhs s
    have he' (m : σ) := (he m).mono (Nat.sub_le _ 1)
    rw [moreOperands_succ, moreOperands_succ]
    refine .takeAs?_bind (y := .andThen (part level.operand.nonterminal) (repeated level.more))
      ?_ (fun op t m => .bind (he' m) rfl fun rhs m => ih he' _ m) (.pure .stop)
    intro kind op hop ks hks
    cases hks with | @andThen _ _ js ls hrhs hrest =>
    obtain ⟨rfl, hlevel⟩ := (Level.operator?_eq_some_iff _ _ _).1 hop
    have hkind := (level.mem_operators_iff _).2 ⟨op, rfl, hlevel⟩
    have hmore : Derives level.more (op.kind :: js) := .next (.oneOf hkind) (.last hrhs)
    exact .again hmore hrest

theorem operation_predictive (hn : n ≤ fuel) (hfuel : fuel ≤ more)
    (he : ∀ m, Predictive n e e' (part level.operand.nonterminal) m) (s : σ) :
    Predictive n (operation level e fuel) (operation level e' more)
      (part (Rank.level level).nonterminal) s := by
  refine .part ?_
  rw [level.rule_eq]
  exact .bind (he s) rfl fun lhs m => .last (moreOperands_predictive level hn hfuel he lhs m)

end

theorem expr_predictive (hn : n ≤ fuel) (hfuel : fuel ≤ more) (s : σ) :
    Predictive n (expr fuel : Parser σ Expr) (expr more : Parser τ Expr) (part .expr) s := by
  refine fuel_induction (T := fun n fuel more => ∀ s, Predictive n (expr fuel : Parser σ Expr)
    (expr more : Parser τ Expr) (part .expr) s) ?_ ?_ hn hfuel s
  · intro more s
    exact .of_zero (q := fail (.anyOf First.primary)) (.failAny (by decide) (by decide))
  · intro n fuel more hn hfuel ih s
    have hfuel := Nat.succ_le_succ hfuel
    have hprimary (m : σ) := primary_predictive ih hn hfuel m
    have hfactor (m : σ) := unary_predictive hn hfuel hprimary m
    have hterm (m : σ) := operation_predictive .mul hn hfuel hfactor m
    have hsum (m : σ) := operation_predictive .sum hn hfuel hterm m
    have hrelation (m : σ) := operation_predictive .relational hn hfuel hsum m
    exact operation_predictive .logic hn hfuel hrelation s

end TeachLang.Grammar
