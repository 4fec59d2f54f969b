import TeachLang.Grammar.Declaration
import TeachLang.Proofs.Grammar.Prediction.Statement

/-! # Prediction of declarations and programs

Every parser of declarations is predictive for its part of the documented grammar, and so is the
parser of programs.
-/

namespace TeachLang.Grammar

open TeachLang.Parser Ebnf

variable {σ τ : Type} [TokenStream σ] [TokenStream τ] {n fuel more : Nat}

theorem constantValue_predictive (hn : n ≤ fuel) (hfuel : fuel ≤ more) (s : σ) :
    Predictive n (constantValue fuel : Parser σ ConstantValue)
      (constantValue more : Parser τ ConstantValue) (part .constantValue) s := by
  refine .has_bind fun curly hcurly => ?_
  cases curly with
  | true =>
    have hlist := listLiteral_predictive (τ := τ) (by decide) hn hfuel (hcurly.2 rfl)
    exact .part (.right (.left (.map hlist _)))
  | false =>
    refine .hasAny_bind fun simple => ?_
    cases simple with
    | true => exact .part (.left (.map (literal_predictive s) _))
    | false => exact .failAny (by decide) (by decide)

theorem constantDecl_predictive (hn : n ≤ fuel) (hfuel : fuel ≤ more) (s : σ) :
    Predictive n (constantDecl fuel : Parser σ ConstantDecl)
      (constantDecl more : Parser τ ConstantDecl) constantForm s := by
  refine .expect_bind rfl fun name m => .expect_bind rfl fun _ m => ?_
  refine .bind (constantValue_predictive (by omega) hfuel m) rfl fun value m => ?_
  exact .expect_bind rfl fun _ _ => .pure .empty

theorem constantList_predictive (hn : n ≤ fuel) (hfuel : fuel ≤ more) (s : σ) :
    Predictive n (constantList fuel : Parser σ ConstantList)
      (constantList more : Parser τ ConstantList) (part .constBlock) s := by
  have hitem (m : σ) := constantDecl_predictive (τ := τ) (n := n - 1) (by omega) hfuel m
  refine .part (.expect_bind rfl fun keyword m => ?_)
  refine .last (.bind (hitem m) rfl fun declaration m => ?_)
  exact .map (.many _ rfl (by omega) hfuel hitem m) _

/-- A type where the kinds that begin a form are expected. -/
theorem simpleTypeName_predictive {x : Ebnf} {expected : List TokenKind}
    (hsome : ∃ k ∈ expected, x.begins k)
    (hbegins : ∀ k ∈ expected, k ∉ First.declaration → x.begins k)
    (htype : ∀ ks, Derives (part .simpleType) ks → Derives x ks) (s : σ) :
    Predictive n (simpleTypeName expected : Parser σ (SimpleType × Token))
      (simpleTypeName expected : Parser τ (SimpleType × Token)) x s := by
  refine .takeAs?_bind (y := .empty) ?_ (fun type t m => .pure .empty) (.failAny hsome hbegins)
  rintro kind type hkind ks ⟨⟩
  exact htype _ (derives_simpleType (t := ⟨kind, "", ⟨"", 0, 0⟩, 0, 0⟩)
    ((SimpleType.ofKind?_eq_some_iff kind type).1 hkind))

theorem typeExpr_predictive (s : σ) :
    Predictive n (typeExpr : Parser σ TypeExpr) (typeExpr : Parser τ TypeExpr) (part .type) s := by
  rw [typeExpr_eq, typeExpr_eq]
  refine .take?_bind (y := seq [token .kwOf, part .simpleType]) ?_ (fun keyword m => ?_) ?_
  · exact fun ks hks => .part (.right (.left (.cons hks)))
  · refine .expect_bind rfl fun _ m => .last (.map ?_ _)
    exact simpleTypeName_predictive (by decide) (by decide) (fun _ hks => hks) m
  · refine .map ?_ _
    exact simpleTypeName_predictive (x := part .type) (by decide) (by decide)
      (fun _ hks => .part (.left hks)) s

theorem identifier_predictive (s : σ) :
    Predictive n (identifier : Parser σ Identifier) (identifier : Parser τ Identifier)
      (token .identifier) s :=
  .map (.expect .identifier) _

theorem bindingDecl_predictive (hn : n ≤ fuel) (hfuel : fuel ≤ more) (s : σ) :
    Predictive n (bindingDecl fuel : Parser σ BindingDecl)
      (bindingDecl more : Parser τ BindingDecl)
      (seq [commas (token .identifier), token .colon, part .type]) s := by
  refine .imp (.bind (y := seq [repeated (.andThen (token .comma) (token .identifier)),
    token .colon, part .type]) (identifier_predictive s) rfl fun name m => ?_) fun ks hks => ?_
  · refine .bind (.afterCommas rfl hn hfuel identifier_predictive m) rfl fun names m => ?_
    exact .expect_bind rfl fun _ m => .last (.map (typeExpr_predictive m) _)
  · cases hks with | andThen hname hrest =>
    obtain ⟨js, ls, rfl, hnames, htype⟩ := hrest.seq_cons
    rw [← List.append_assoc]
    exact .next (.andThen hname hnames) htype

theorem closedBinding_predictive (hn : n ≤ fuel) (hfuel : fuel ≤ more) (s : σ) :
    Predictive n (closedBinding fuel : Parser σ BindingDecl)
      (closedBinding more : Parser τ BindingDecl) (part .binding) s := by
  refine .part (.imp (.bind (y := seq [token .semicolon]) (bindingDecl_predictive hn hfuel s) rfl
    fun binding m => .expect_bind rfl fun _ _ => .pure .empty) fun ks hks => ?_)
  cases hks with | andThen hbinding hsemicolon =>
  exact Derives.seq_append_iff.2 ⟨_, _, rfl, hbinding, hsemicolon⟩

theorem variableList_predictive (hn : n ≤ fuel) (hfuel : fuel ≤ more) (s : σ) :
    Predictive n (variableList fuel : Parser σ VariableList)
      (variableList more : Parser τ VariableList) (part .varBlock) s := by
  have hitem (m : σ) := closedBinding_predictive (τ := τ) (n := n - 1) (by omega) hfuel m
  refine .part (.expect_bind rfl fun keyword m => ?_)
  refine .last (.bind (hitem m) rfl fun declaration m => ?_)
  exact .map (.many _ rfl (by omega) hfuel hitem m) _

theorem returnType_predictive (s : σ) :
    Predictive n (returnType : Parser σ TypeExpr) (returnType : Parser τ TypeExpr)
      (optional (seq [token .colon, part .type])) s :=
  .take?_optional (fun _ m => .last (typeExpr_predictive m)) (.pure .empty)

theorem procedureDecl_predictive (hn : n ≤ fuel) (hfuel : fuel ≤ more) (s : σ) :
    Predictive n (procedureDecl fuel : Parser σ ProcedureDecl)
      (procedureDecl more : Parser τ ProcedureDecl) (part .procedure) s := by
  have hitem (m : σ) := closedBinding_predictive (τ := τ) (n := n - 1 - 1 - 1) (by omega) hfuel m
  refine .part (.expect_bind rfl fun keyword m => .expect_bind rfl fun name m => ?_)
  refine .expect_bind rfl fun _ m => ?_
  refine .bind (.many _ rfl (by omega) hfuel hitem m) rfl fun parameters m => ?_
  refine .expect_bind rfl fun _ m => .bind (returnType_predictive m) rfl fun type m => ?_
  refine .expect_bind rfl fun _ m => ?_
  refine .bind (.opt _ (constantList_predictive (by omega) hfuel m)) rfl fun constants m => ?_
  refine .bind (.opt _ (variableList_predictive (by omega) hfuel m)) rfl fun vars m => ?_
  refine .expect_bind rfl fun _ m => ?_
  refine .bind (block_predictive (by omega) hfuel m) rfl fun body m => ?_
  exact .expect_bind rfl fun _ _ => .expect_bind rfl fun _ _ => .pure .empty

theorem procedureList_predictive (hn : n ≤ fuel) (hfuel : fuel ≤ more) (s : σ) :
    Predictive n (procedureList fuel : Parser σ ProcedureList)
      (procedureList more : Parser τ ProcedureList) (repeated (part .procedure)) s :=
  .map (.many _ rfl hn hfuel (procedureDecl_predictive hn hfuel) s) _

theorem programKeyword_predictive (s : σ) :
    Predictive n (programKeyword : Parser σ Token) (programKeyword : Parser τ Token)
      (token .kwProgram) s := by
  refine .take?_bind (y := .empty) ?_ (fun keyword m => .pure .empty) ?_
  · rintro ks ⟨⟩
    exact .token .kwProgram
  · exact .failAny (by decide) (by decide)

/-- The parser of programs never looks further than the token in sight. -/
theorem program_predictive (hn : n ≤ fuel) (hfuel : fuel ≤ more) (s : σ) :
    Predictive n (program fuel : Parser σ Program) (program more : Parser τ Program)
      (part .program) s := by
  refine .part (.bind (.opt _ (constantList_predictive hn hfuel s)) rfl fun constants m => ?_)
  refine .bind (.opt _ (variableList_predictive hn hfuel m)) rfl fun vars m => ?_
  refine .bind (procedureList_predictive hn hfuel m) rfl fun procedures m => ?_
  refine .bind (programKeyword_predictive m) rfl fun keyword m => ?_
  refine .bind (block_predictive hn hfuel m) rfl fun statements m => ?_
  exact .expect_bind rfl fun _ _ => .expect_bind rfl fun _ _ => .expect_bind rfl fun _ _ =>
    .pure .empty

end TeachLang.Grammar
