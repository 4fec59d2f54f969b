import TeachLang.Proofs.Grammar.Meaning

/-! # What syntax errors expect

Each step of the parsers that can fail names what it expects.  Collected here is all that a row of
tokens can be told to have missed: a keyword that is asked for only where it is in sight is not
among it, and the keywords that begin declarations are expected at one place, in front of a
program's own keyword.
-/

namespace TeachLang

namespace Expected

/-- What is expected in front of a program's keyword. -/
def beforeProgram : Expected := .anyOf (First.declaration ++ [.kwProgram])

/-- All that errors in programs expect. -/
def catalogue : List Expected :=
  [.one .identifier, .one .colonEqual, .one .colon, .one .semicolon, .one .parenthesisOpen,
    .one .parenthesisClose, .one .bracketClose, .one .curlyClose, .one .kwOf, .one .kwThen,
    .one .kwIn, .one .kwDo, .one .kwBegin, .one .kwEnd, .one .eof, .one .intLiteral,
    .anyOf First.simpleLiteral, .anyOf First.constantValue, .anyOf First.simpleType,
    .anyOf First.type, .anyOf First.primary, .anyOf First.afterName, .anyOf First.statement,
    beforeProgram]

/-- The keywords of declarations are expected nowhere else than in front of a program's keyword. -/
theorem eq_beforeProgram {expected : Expected} (h : expected ∈ catalogue) {kind : TokenKind}
    (hkind : kind ∈ First.declaration) (haccepts : expected.accepts kind) :
    expected = beforeProgram := by
  have hall : ∀ expected ∈ catalogue, ∀ kind ∈ First.declaration, expected.accepts kind →
      expected = beforeProgram := by decide
  exact hall expected h kind hkind haccepts

end Expected

namespace Parser

variable {σ α β : Type}

/-- If a parser fails on a stream, then what it expects there is in the catalogue. -/
def Catalogued (p : Parser σ α) (s : σ) : Prop :=
  ∀ e, (p s).1 = .error e → e.expected ∈ Expected.catalogue

namespace Catalogued

variable {p : Parser σ α} {f : α → Parser σ β} {kinds : List TokenKind} {kind : TokenKind} {s : σ}

theorem of_eq_ok {a : α} {left : σ} (h : p s = (.ok a, left)) : Catalogued p s := by
  intro e he
  rw [h] at he
  cases he

protected theorem pure {a : α} : Catalogued (pure a) s := of_eq_ok rfl

protected theorem bind (hp : Catalogued p s) (hf : ∀ a m, Catalogued (f a) m) :
    Catalogued (p >>= f) s := by
  intro e
  rw [bind_apply]
  rcases hps : p s with ⟨e' | a, m⟩
  · rintro ⟨⟩
    exact hp e (by rw [hps])
  · exact hf a m e

theorem map (hp : Catalogued p s) (g : α → β) : Catalogued (do return g (← p)) s :=
  hp.bind fun _ _ => .pure

theorem failAt {expected : Expected} {token : Token} (h : expected ∈ Expected.catalogue) :
    Catalogued (failAt expected token : Parser σ α) s := by
  rintro e ⟨⟩
  exact h

variable [TokenStream σ]

protected theorem fail {expected : Expected} (h : expected ∈ Expected.catalogue) :
    Catalogued (fail expected : Parser σ α) s := failAt h

theorem current_bind {f : Token → Parser σ β} (h : Catalogued (f (TokenStream.current s)) s) :
    Catalogued (current >>= f) s := h

theorem advance_bind {f : Token → Parser σ β} (h : ∀ t m, Catalogued (f t) m) :
    Catalogued (advance >>= f) s := h _ _

theorem take?_bind {f : Option Token → Parser σ β} (hsome : ∀ t m, Catalogued (f (some t)) m)
    (hnone : Catalogued (f none) s) : Catalogued (take? kind >>= f) s := by
  rw [Catalogued, Parser.take?_bind]
  split
  · exact hsome _ _
  · exact hnone

theorem takeAs?_bind {γ : Type} {meaning? : TokenKind → Option γ}
    {f : Option (γ × Token) → Parser σ β} (hsome : ∀ c t m, Catalogued (f (some (c, t))) m)
    (hnone : Catalogued (f none) s) : Catalogued (takeAs? meaning? >>= f) s := by
  rw [Catalogued, Parser.takeAs?_bind]
  split
  · exact hsome _ _ _
  · exact hnone

theorem has_bind {f : Bool → Parser σ β}
    (h : ∀ b, ((TokenStream.current s).kind = kind ↔ b = true) → Catalogued (f b) s) :
    Catalogued (has kind >>= f) s :=
  h _ beq_iff_eq.symm

theorem hasAny_bind {f : Bool → Parser σ β}
    (h : ∀ b, ((TokenStream.current s).kind ∈ kinds ↔ b = true) → Catalogued (f b) s) :
    Catalogued (hasAny kinds >>= f) s :=
  h _ List.contains_iff_mem.symm

protected theorem expect (h : .one kind ∈ Expected.catalogue) :
    Catalogued (expect kind : Parser σ Token) s :=
  take?_bind (fun _ _ => .pure) (.fail h)

/-- A token that is in sight is not missed. -/
theorem expect_of_kind (hs : (TokenStream.current s).kind = kind) :
    Catalogued (expect kind : Parser σ Token) s :=
  of_eq_ok (expect_eq_ok.2 ⟨hs, TokenStream.reads_advance s⟩)

theorem expectAny_of_mem (hs : (TokenStream.current s).kind ∈ kinds) :
    Catalogued (expectAny kinds : Parser σ Token) s :=
  of_eq_ok (expectAny_eq_ok.2 ⟨hs, TokenStream.reads_advance s⟩)

protected theorem expectAny (h : .anyOf kinds ∈ Expected.catalogue) :
    Catalogued (expectAny kinds : Parser σ Token) s := by
  by_cases hs : (TokenStream.current s).kind ∈ kinds
  · exact expectAny_of_mem hs
  · rw [Catalogued, expectAny_of_not_mem hs]
    exact Catalogued.fail h

/-! Optional and repeated parts are read only where they can begin. -/

protected theorem opt (hp : (TokenStream.current s).kind ∈ kinds → Catalogued p s) :
    Catalogued (opt kinds p) s := by
  refine hasAny_bind fun b hb => ?_
  cases b with
  | false => exact .pure
  | true => exact (hp (hb.2 rfl)).map some

protected theorem many (hp : ∀ m, (TokenStream.current m).kind ∈ kinds → Catalogued p m)
    (fuel : Nat) (s : σ) : Catalogued (many kinds p fuel) s := by
  induction fuel generalizing s with
  | zero => exact .pure
  | succ fuel ih =>
    refine hasAny_bind fun b hb => ?_
    cases b with
    | false => exact .pure
    | true => exact (hp s (hb.2 rfl)).bind fun a m => (ih m).map (a :: ·)

protected theorem afterCommas (hp : ∀ m, Catalogued p m) (fuel : Nat) (s : σ) :
    Catalogued (afterCommas p fuel) s := by
  induction fuel generalizing s with
  | zero => exact .pure
  | succ fuel ih => exact take?_bind (fun _ m => (hp m).bind fun a m => (ih m).map (a :: ·)) .pure

protected theorem commaSeparated (hp : ∀ m, Catalogued p m) (fuel : Nat) :
    Catalogued (commaSeparated kinds p fuel) s := by
  refine hasAny_bind fun b _ => ?_
  cases b with
  | false => exact .pure
  | true => exact (hp s).bind fun a m => (Catalogued.afterCommas hp fuel m).map (a :: ·)

end Catalogued

end Parser

namespace Grammar

open TeachLang.Parser

variable {σ : Type} [TokenStream σ] {fuel : Nat} {s : σ}

/-! Expressions. -/

theorem literal_catalogued (s : σ) : Catalogued literal s :=
  (Catalogued.expectAny (by decide)).bind fun token m => by
    split
    · exact .pure
    · exact .failAt (by decide)

theorem listLiteral_catalogued (hs : (TokenStream.current s).kind ∈ First.listLiteral) :
    Catalogued (listLiteral fuel) s := by
  refine (Catalogued.expectAny_of_mem hs).bind fun opening m => ?_
  refine (Catalogued.commaSeparated literal_catalogued fuel).bind fun elements m => ?_
  refine (Catalogued.expect ?_).bind fun _ _ => .pure
  rw [closing]
  split <;> decide

section

variable {e : Parser σ Expr} (he : ∀ m, Catalogued e m)

include he

theorem arguments_catalogued (s : σ) : Catalogued (arguments e fuel) s :=
  (Catalogued.expect (by decide)).bind fun _ _ =>
    (Catalogued.commaSeparated he fuel).bind fun _ _ => (Catalogued.expect (by decide)).map _

theorem atom_catalogued (s : σ) : Catalogued (atom e fuel) s := by
  refine .current_bind ?_
  cases hs : (TokenStream.current s).kind
  case parenthesisOpen =>
    exact .advance_bind fun _ m => (he m).bind fun _ _ => (Catalogued.expect (by decide)).map _
  case identifier =>
    refine .advance_bind fun name m => .has_bind fun b _ => ?_
    cases b with
    | false => exact .pure
    | true => exact (arguments_catalogued he m).map _
  case curlyOpen => exact (listLiteral_catalogued (by rw [hs]; decide)).map _
  case bracketOpen => exact (listLiteral_catalogued (by rw [hs]; decide)).map _
  case intLiteral | stringLiteral | kwTrue | kwFalse => exact (literal_catalogued s).map _
  all_goals exact .fail (by decide)

theorem primary_catalogued (fuel : Nat) (s : σ) : Catalogued (primary e fuel) s :=
  (atom_catalogued he s).bind fun _ _ => .take?_bind
    (fun _ m => (he m).bind fun _ _ => (Catalogued.expect (by decide)).map _) .pure

theorem unary_catalogued (fuel : Nat) (s : σ) : Catalogued (unary e fuel) s := by
  induction fuel generalizing s with
  | zero => exact he s
  | succ fuel ih =>
    rw [unary_succ]
    exact .takeAs?_bind (fun _ _ m => (ih m).map _) (he s)

theorem moreOperands_catalogued (level : Level) (fuel : Nat) (lhs : Expr) (s : σ) :
    Catalogued (moreOperands level e fuel lhs) s := by
  induction fuel generalizing lhs s with
  | zero => exact .pure
  | succ fuel ih =>
    rw [moreOperands_succ]
    exact .takeAs?_bind (fun _ _ m => (he m).bind fun _ m => ih _ m) .pure

theorem operation_catalogued (level : Level) (fuel : Nat) (s : σ) :
    Catalogued (operation level e fuel) s :=
  (he s).bind fun lhs m => moreOperands_catalogued he level fuel lhs m

end

theorem expr_catalogued (fuel : Nat) (s : σ) : Catalogued (expr fuel) s := by
  induction fuel generalizing s with
  | zero => exact .fail (by decide)
  | succ fuel ih =>
    have hfactor := unary_catalogued (primary_catalogued ih (fuel + 1)) (fuel + 1)
    have hterm := operation_catalogued hfactor .mul (fuel + 1)
    have hsum := operation_catalogued hterm .sum (fuel + 1)
    have hrelation := operation_catalogued hsum .relational (fuel + 1)
    exact operation_catalogued hrelation .logic (fuel + 1) s

/-! Statements. -/

theorem nameStatement_catalogued (s : σ) : Catalogued (nameStatement fuel) s := by
  refine (Catalogued.expect (by decide)).bind fun name m => .current_bind ?_
  cases (TokenStream.current m).kind
  case colonEqual => exact .advance_bind fun symbol m => (expr_catalogued fuel m).map _
  case bracketOpen =>
    refine .advance_bind fun opening m => (expr_catalogued fuel m).bind fun position m => ?_
    refine (Catalogued.expect (by decide)).bind fun _ m => ?_
    exact (Catalogued.expect (by decide)).bind fun symbol m => (expr_catalogued fuel m).map _
  case parenthesisOpen => exact (arguments_catalogued (expr_catalogued fuel) m).map _
  all_goals exact .fail (by decide)

section

variable {b : Parser σ Block} (hb : ∀ m, Catalogued b m)

include hb

theorem elseIfs_catalogued {e : Parser σ Expr} (he : ∀ m, Catalogued e m) (fuel : Nat) (s : σ) :
    Catalogued (elseIfs e b fuel) s := by
  induction fuel generalizing s with
  | zero => exact .pure
  | succ fuel ih =>
    refine .take?_bind (fun keyword m => (he m).bind fun condition m => ?_) .pure
    exact (Catalogued.expect (by decide)).bind fun _ m => (hb m).bind fun body m => (ih m).map _

theorem otherwise_catalogued (s : σ) : Catalogued (otherwise b) s :=
  .take?_bind (fun _ m => (hb m).map _) .pure

theorem conditional_catalogued (hs : (TokenStream.current s).kind = .kwIf) :
    Catalogued (conditional b fuel) s := by
  refine (Catalogued.expect_of_kind hs).bind fun keyword m => ?_
  refine (expr_catalogued fuel m).bind fun condition m => ?_
  refine (Catalogued.expect (by decide)).bind fun _ m => (hb m).bind fun body m => ?_
  refine (elseIfs_catalogued hb (expr_catalogued fuel) fuel m).bind fun branches m => ?_
  exact (otherwise_catalogued hb m).bind fun last m => (Catalogued.expect (by decide)).map _

theorem loop_catalogued (s : σ) : Catalogued (loop b) s :=
  .advance_bind fun _ m => (hb m).bind fun _ _ => (Catalogued.expect (by decide)).map _

theorem forEach_catalogued (s : σ) : Catalogued (forEach b fuel) s := by
  refine .advance_bind fun keyword m => (Catalogued.expect (by decide)).bind fun item m => ?_
  refine (Catalogued.expect (by decide)).bind fun _ m => ?_
  refine (expr_catalogued fuel m).bind fun iterable m => ?_
  refine (Catalogued.expect (by decide)).bind fun _ m => (hb m).bind fun body m => ?_
  exact (Catalogued.expect (by decide)).map _

theorem statementBody_catalogued (s : σ) : Catalogued (statementBody b fuel) s := by
  refine .current_bind ?_
  cases hs : (TokenStream.current s).kind
  case identifier => exact nameStatement_catalogued s
  case kwIf => exact conditional_catalogued hb hs
  case kwLoop => exact loop_catalogued hb s
  case kwFor => exact forEach_catalogued hb s
  case kwReturn =>
    exact .advance_bind fun keyword m => (Catalogued.opt fun _ => expr_catalogued fuel m).map _
  case kwExit => exact .advance_bind fun _ _ => .pure
  all_goals exact .fail (by decide)

end

theorem blockOf_catalogued {p : Parser σ Statement} (hp : ∀ m, Catalogued p m) (s : σ) :
    Catalogued (blockOf p fuel) s :=
  (Catalogued.many (fun m _ => hp m) fuel s).map _

theorem statement_catalogued (fuel : Nat) (s : σ) : Catalogued (statement fuel) s := by
  induction fuel generalizing s with
  | zero => exact .fail (by decide)
  | succ fuel ih =>
    refine (statementBody_catalogued (fun m => blockOf_catalogued ih m) s).bind fun _ m => ?_
    exact (Catalogued.expect (by decide)).map _

theorem block_catalogued (s : σ) : Catalogued (block fuel) s :=
  blockOf_catalogued (statement_catalogued fuel) s

/-! Declarations and programs. -/

theorem constantValue_catalogued (s : σ) : Catalogued (constantValue fuel) s := by
  refine .has_bind fun curly hcurly => ?_
  cases curly with
  | true =>
    exact (listLiteral_catalogued (by rw [hcurly.2 rfl]; decide)).map _
  | false =>
    refine .hasAny_bind fun simple _ => ?_
    cases simple with
    | true => exact (literal_catalogued s).map _
    | false => exact .fail (by decide)

theorem constantDecl_catalogued (s : σ) : Catalogued (constantDecl fuel) s := by
  refine (Catalogued.expect (by decide)).bind fun name m => ?_
  refine (Catalogued.expect (by decide)).bind fun _ m => ?_
  exact (constantValue_catalogued m).bind fun value m => (Catalogued.expect (by decide)).map _

theorem constantList_catalogued (hs : (TokenStream.current s).kind ∈ First.constantList) :
    Catalogued (constantList fuel) s := by
  refine (Catalogued.expect_of_kind (List.mem_singleton.1 hs)).bind fun keyword m => ?_
  refine (constantDecl_catalogued m).bind fun declaration m => ?_
  exact (Catalogued.many (fun m _ => constantDecl_catalogued m) fuel m).map _

theorem simpleTypeName_catalogued {kinds : List TokenKind}
    (h : .anyOf kinds ∈ Expected.catalogue) (s : σ) : Catalogued (simpleTypeName kinds) s :=
  .takeAs?_bind (fun _ _ _ => .pure) (.fail h)

theorem typeExpr_catalogued (s : σ) : Catalogued typeExpr s := by
  rw [typeExpr_eq]
  refine .take?_bind (fun keyword m => ?_) ((simpleTypeName_catalogued (by decide) s).map _)
  exact (Catalogued.expect (by decide)).bind fun _ m =>
    (simpleTypeName_catalogued (by decide) m).map _

theorem closedBinding_catalogued (s : σ) : Catalogued (closedBinding fuel) s := by
  have hname (m : σ) : Catalogued identifier m := (Catalogued.expect (by decide)).map _
  have hbinding : Catalogued (bindingDecl fuel) s := by
    refine (hname s).bind fun name m => (Catalogued.afterCommas hname fuel m).bind fun names m => ?_
    exact (Catalogued.expect (by decide)).bind fun _ m => (typeExpr_catalogued m).map _
  exact hbinding.bind fun binding m => (Catalogued.expect (by decide)).map _

theorem bindings_catalogued (s : σ) :
    Catalogued (many First.name (closedBinding fuel) fuel) s :=
  Catalogued.many (fun m _ => closedBinding_catalogued m) fuel s

theorem variableList_catalogued (hs : (TokenStream.current s).kind ∈ First.variableList) :
    Catalogued (variableList fuel) s := by
  refine (Catalogued.expect_of_kind (List.mem_singleton.1 hs)).bind fun keyword m => ?_
  refine (closedBinding_catalogued m).bind fun declaration m => ?_
  exact (bindings_catalogued m).map _

theorem returnType_catalogued (s : σ) : Catalogued returnType s :=
  .take?_bind (fun _ m => typeExpr_catalogued m) .pure

theorem procedureDecl_catalogued (hs : (TokenStream.current s).kind ∈ First.procedure) :
    Catalogued (procedureDecl fuel) s := by
  refine (Catalogued.expect_of_kind (List.mem_singleton.1 hs)).bind fun keyword m => ?_
  refine (Catalogued.expect (by decide)).bind fun name m => ?_
  refine (Catalogued.expect (by decide)).bind fun _ m => ?_
  refine (bindings_catalogued m).bind fun parameters m => ?_
  refine (Catalogued.expect (by decide)).bind fun _ m => ?_
  refine (returnType_catalogued m).bind fun type m => ?_
  refine (Catalogued.expect (by decide)).bind fun _ m => ?_
  refine (Catalogued.opt constantList_catalogued).bind fun constants m => ?_
  refine (Catalogued.opt variableList_catalogued).bind fun vars m => ?_
  refine (Catalogued.expect (by decide)).bind fun _ m => (block_catalogued m).bind fun body m => ?_
  exact (Catalogued.expect (by decide)).bind fun _ m => (Catalogued.expect (by decide)).map _

theorem procedureList_catalogued (s : σ) : Catalogued (procedureList fuel) s :=
  (Catalogued.many (fun _ => procedureDecl_catalogued) fuel s).map _

theorem programKeyword_catalogued (s : σ) : Catalogued programKeyword s :=
  .take?_bind (fun _ _ => .pure) (.fail (by decide))

theorem program_catalogued (s : σ) : Catalogued (program fuel) s := by
  refine (Catalogued.opt constantList_catalogued).bind fun constants m => ?_
  refine (Catalogued.opt variableList_catalogued).bind fun vars m => ?_
  refine (procedureList_catalogued m).bind fun procedures m => ?_
  refine (programKeyword_catalogued m).bind fun keyword m => ?_
  refine (block_catalogued m).bind fun statements m => ?_
  refine (Catalogued.expect (by decide)).bind fun _ m => ?_
  exact (Catalogued.expect (by decide)).bind fun _ m => (Catalogued.expect (by decide)).map _

end Grammar

/-- What a syntax error expects is in the catalogue. -/
theorem expected_mem_catalogue {source : String} {e : SyntaxError}
    (h : (parseProgram source).1 = .error e) : e.expected ∈ Expected.catalogue :=
  Grammar.program_catalogued (Cursor.ofSource source) e h

end TeachLang
