import TeachLang.Grammar.Statement
import TeachLang.Proofs.Grammar.Prediction.Expr

/-! # Prediction of statements

Every parser of statements is predictive for its part of the documented grammar, if the parser
of the blocks inside is.
-/

namespace TeachLang.Grammar

open TeachLang.Parser Ebnf

def afterNameForm : Ebnf :=
  anyOf [
    seq [token .colonEqual, part .expr],
    seq [token .bracketOpen, part .expr, token .bracketClose, token .colonEqual, part .expr],
    argumentsForm]

def elseForm : Ebnf := seq [token .kwElse, repeated (part .statement)]

def statementForms : List (List Ebnf) := [
  [token .identifier, token .colonEqual, part .expr],
  [token .identifier, token .bracketOpen, part .expr, token .bracketClose, token .colonEqual,
    part .expr],
  [token .identifier, token .parenthesisOpen, optional (commas (part .expr)),
    token .parenthesisClose],
  [token .kwIf, part .expr, token .kwThen, repeated (part .statement), repeated elseIfForm,
    optional elseForm, token .kwEnd],
  [token .kwLoop, repeated (part .statement), token .kwEnd],
  [token .kwFor, token .identifier, token .kwIn, part .expr, token .kwDo,
    repeated (part .statement), token .kwEnd],
  [token .kwReturn, optional (part .expr)],
  [token .kwExit]]

theorem statement_rule : Nonterminal.statement.rule =
    anyOf (statementForms.map fun xs => seq (xs ++ [token .semicolon])) := rfl

theorem derives_anyOf_append {xss : List (List Ebnf)} {ys : List Ebnf} {js ks : List TokenKind}
    (h : Derives (anyOf (xss.map seq)) js) (hys : Derives (seq ys) ks) :
    Derives (anyOf (xss.map fun xs => seq (xs ++ ys))) (js ++ ks) := by
  induction xss with
  | nil => cases h with | oneOf hmem => cases hmem
  | cons xs xss ih =>
    cases h with
    | left h => exact .left (Derives.seq_append_iff.2 ⟨js, ks, rfl, h, hys⟩)
    | right h => exact .right (ih h)

/-- A statement that starts with a name. -/
theorem derives_afterName {ks : List TokenKind}
    (h : Derives (seq [token .identifier, afterNameForm]) ks) :
    Derives (anyOf (statementForms.map seq)) ks := by
  obtain ⟨js, ls, rfl, hname, hrest⟩ := h.seq_cons
  cases hrest.seq_singleton with
  | left h => exact .left (.next hname h)
  | right h =>
    cases h with
    | left h => exact .right (.left (.next hname h))
    | right h =>
      cases h with
      | left h => exact .right (.right (.left (.next hname h)))
      | right h => cases h with | oneOf hmem => cases hmem

variable {σ τ : Type} [TokenStream σ] [TokenStream τ] {n fuel more : Nat}

theorem nameStatement_predictive (hn : n ≤ fuel) (hfuel : fuel ≤ more) (s : σ) :
    Predictive n (nameStatement fuel : Parser σ Statement) (nameStatement more : Parser τ Statement)
      (anyOf (statementForms.map seq)) s := by
  have he (m : σ) := expr_predictive (τ := τ) (n := n - 1 - 1) (by omega) hfuel m
  refine .imp (x := seq [token .identifier, afterNameForm])
    (.expect_bind rfl fun name m => .last (.current_bind ?_)) fun ks => derives_afterName
  cases hm : (TokenStream.current m).kind
  case colonEqual =>
    exact .left (.advance_bind hm fun symbol m => .last (.map (he m) _))
  case bracketOpen =>
    refine .right (.left (.advance_bind hm fun opening m => .bind (he m) rfl fun position m => ?_))
    refine .expect_bind rfl fun _ m => .expect_bind rfl fun symbol m => .last (.map ?_ _)
    exact (he m).mono (by omega)
  case parenthesisOpen =>
    exact .right (.right (.left (.map (arguments_predictive he (by omega) hfuel m) _)))
  all_goals exact .failAny (by decide) (by decide)

section

variable {b : Parser σ Block} {b' : Parser τ Block}
  (hb : ∀ m, Predictive (n - 1) b b' (repeated (part .statement)) m)

include hb

theorem elseIfs_predictive {e : Parser σ Expr} {e' : Parser τ Expr} (hn : n ≤ fuel)
    (hfuel : fuel ≤ more) (he : ∀ m, Predictive (n - 1) e e' (part .expr) m) (s : σ) :
    Predictive n (elseIfs e b fuel) (elseIfs e' b' more) (repeated elseIfForm) s := by
  refine fuel_induction (T := fun n fuel more => (∀ m, Predictive (n - 1) e e' (part .expr) m) →
    (∀ m, Predictive (n - 1) b b' (repeated (part .statement)) m) → ∀ s,
      Predictive n (elseIfs e b fuel) (elseIfs e' b' more) (repeated elseIfForm) s)
    ?_ ?_ hn hfuel he hb s
  · intro more _ _ s
    exact .of_zero (q := pure .nil) (.pure .stop)
  · intro n fuel more _ _ ih he hb s
    have hrest (m : σ) := ih (fun m => (he m).mono (Nat.sub_le _ _))
      (fun m => (hb m).mono (Nat.sub_le _ _)) m
    refine .take?_bind (y := seq ([part .expr, token .kwThen, repeated (part .statement)] ++
      [repeated elseIfForm])) ?_ (fun keyword m => ?_) (.pure .stop)
    · intro ks hks
      obtain ⟨ls, ms, rfl, hbranch, hrest⟩ := Derives.seq_append_iff.1 hks
      have hform : Derives elseIfForm (.kwElseif :: ls) := .cons hbranch
      exact .again hform hrest.seq_singleton
    · refine .bind (he m) rfl fun condition m => .expect_bind rfl fun _ m => ?_
      refine .bind ((hb m).mono (Nat.sub_le _ _)) rfl fun body m => .last (.map ?_ _)
      exact (hrest m).mono (Nat.sub_le _ _)

theorem otherwise_predictive (s : σ) :
    Predictive n (otherwise b) (otherwise b') (optional elseForm) s :=
  .take?_optional (fun _ m => .last (.map (hb m) _)) (.pure .empty)

theorem conditional_predictive (hn : n ≤ fuel) (hfuel : fuel ≤ more) (s : σ) :
    Predictive n (conditional b fuel) (conditional b' more)
      (seq [token .kwIf, part .expr, token .kwThen, repeated (part .statement),
        repeated elseIfForm, optional elseForm, token .kwEnd]) s := by
  have he (m : σ) := expr_predictive (τ := τ) (n := n - 1) (by omega) hfuel m
  have hbehind (m : σ) := (hb m).mono (Nat.sub_le _ 1)
  refine .expect_bind rfl fun keyword m => .bind (he m) rfl fun condition m => ?_
  refine .expect_bind rfl fun _ m => .bind (hbehind m) rfl fun body m => ?_
  refine .bind (elseIfs_predictive (fun m => (hbehind m).mono (Nat.sub_le _ _)) (by omega) hfuel
    (fun m => (he m).mono (by omega)) m) rfl fun branches m => ?_
  refine .bind (otherwise_predictive (fun m => (hbehind m).mono (Nat.sub_le _ _)) m) rfl
    fun last m => ?_
  exact .expect_bind rfl fun _ _ => .pure .empty

theorem loop_predictive {s : σ} (hs : (TokenStream.current s).kind = .kwLoop) :
    Predictive n (loop b) (loop b')
      (seq [token .kwLoop, repeated (part .statement), token .kwEnd]) s := by
  refine .advance_bind hs fun keyword m => .bind (hb m) rfl fun body m => ?_
  exact .expect_bind rfl fun _ _ => .pure .empty

theorem forEach_predictive (hn : n ≤ fuel) (hfuel : fuel ≤ more) {s : σ}
    (hs : (TokenStream.current s).kind = .kwFor) :
    Predictive n (forEach b fuel) (forEach b' more)
      (seq [token .kwFor, token .identifier, token .kwIn, part .expr, token .kwDo,
        repeated (part .statement), token .kwEnd]) s := by
  refine .advance_bind hs fun keyword m => .expect_bind rfl fun item m => ?_
  refine .expect_bind rfl fun _ m => ?_
  refine .bind (expr_predictive (by omega) hfuel m) rfl fun iterable m => ?_
  refine .expect_bind rfl fun _ m => .bind ((hb m).mono (by omega)) rfl fun body m => ?_
  exact .expect_bind rfl fun _ _ => .pure .empty

theorem statementBody_predictive (hn : n ≤ fuel) (hfuel : fuel ≤ more) (s : σ) :
    Predictive n (statementBody b fuel) (statementBody b' more)
      (anyOf (statementForms.map seq)) s := by
  refine .current_bind ?_
  cases hs : (TokenStream.current s).kind
  case identifier => exact nameStatement_predictive hn hfuel s
  case kwIf => exact .right (.right (.right (.left (conditional_predictive hb hn hfuel s))))
  case kwLoop => exact .right (.right (.right (.right (.left (loop_predictive hb hs)))))
  case kwFor =>
    exact .right (.right (.right (.right (.right (.left (forEach_predictive hb hn hfuel hs))))))
  case kwReturn =>
    refine .right (.right (.right (.right (.right (.right (.left (.advance_bind hs ?_)))))))
    intro keyword m
    exact .last (.map (.opt _ (expr_predictive (by omega) hfuel m)) _)
  case kwExit =>
    have hexit : Predictive n (do return .exit (← advance) none : Parser σ Statement)
        (do return .exit (← advance) none : Parser τ Statement) (seq [token .kwExit]) s :=
      .advance_bind hs fun _ _ => .pure .empty
    exact .right (.right (.right (.right (.right (.right (.right (.left hexit)))))))
  all_goals exact .failAny (by decide) (by decide)

end

theorem blockOf_predictive {p : Parser σ Statement} {q : Parser τ Statement} (hn : n ≤ fuel)
    (hfuel : fuel ≤ more) (hp : ∀ m, Predictive n p q (part .statement) m) (s : σ) :
    Predictive n (blockOf p fuel) (blockOf q more) (repeated (part .statement)) s :=
  .map (.many _ rfl hn hfuel hp s) _

theorem statement_predictive (hn : n ≤ fuel) (hfuel : fuel ≤ more) (s : σ) :
    Predictive n (statement fuel : Parser σ Statement) (statement more : Parser τ Statement)
      (part .statement) s := by
  refine fuel_induction (T := fun n fuel more => ∀ s, Predictive n
    (statement fuel : Parser σ Statement) (statement more : Parser τ Statement) (part .statement) s)
    ?_ ?_ hn hfuel s
  · intro more s
    exact .of_zero (q := fail (.anyOf First.statement)) (.failAny (by decide) (by decide))
  · intro n fuel more hn hfuel ih s
    have hblock (m : σ) := blockOf_predictive (by omega) hfuel ih m
    have hbody := statementBody_predictive hblock hn (Nat.succ_le_succ hfuel) s
    refine .part (.imp (.bind (y := seq [token .semicolon]) hbody rfl fun statement m =>
      .expect_bind rfl fun _ _ => .pure .empty) fun ks hks => ?_)
    cases hks with | andThen hform hsemicolon =>
    rw [statement_rule]
    exact derives_anyOf_append hform hsemicolon

theorem block_predictive (hn : n ≤ fuel) (hfuel : fuel ≤ more) (s : σ) :
    Predictive n (block fuel : Parser σ Block) (block more : Parser τ Block)
      (repeated (part .statement)) s :=
  blockOf_predictive hn hfuel (statement_predictive hn hfuel) s

end TeachLang.Grammar
