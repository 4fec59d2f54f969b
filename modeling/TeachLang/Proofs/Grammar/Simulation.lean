import TeachLang.Proofs.Grammar.Reading
import TeachLang.Proofs.Grammar.Relabelled
import TeachLang.Proofs.Tree.Print

/-! # Runs on other tokens

Two runs of a parser, one on a row of tokens and one on the same row with the places of the tokens
and the names of identifiers changed.  No decision reads more than kinds, and no value more than the
texts of literals, so that the second run yields what the first one yields with its tokens changed
in the same way, or the same error at the changed token.
-/

namespace TeachLang

def IsName (x : String) : Prop := TokenKind.identifier.Admits x.toList

/-- A change of tokens that keeps kinds and all texts but those of identifiers, which become other
names. -/
structure Renames (r : String → String) (g : Token → Token) : Prop where
  kind : ∀ t, (g t).kind = t.kind
  name : ∀ t, t.kind = .identifier → IsName t.text → (g t).text = r t.text
  text : ∀ t, t.kind ≠ .identifier → (g t).text = t.text

theorem Relabels.renames {g : Token → Token} (hg : Relabels g) : Renames id g :=
  ⟨hg.kind, fun t _ _ => hg.text t, fun t _ => hg.text t⟩

theorem LiteralValue.ofToken_renamed {r : String → String} {g : Token → Token} (hg : Renames r g)
    (t : Token) : LiteralValue.ofToken (g t) = .ofToken t := by
  rw [ofToken, ofToken, hg.kind]
  by_cases hkind : t.kind = .identifier
  · simp [hkind]
  · rw [hg.text t hkind]

theorem Token.isLegible_renamed {r : String → String} {g : Token → Token} (hg : Renames r g)
    (t : Token) : (g t).isLegible = t.isLegible := by
  rw [isLegible, isLegible, hg.kind]
  by_cases hkind : t.kind = .identifier
  · rw [hkind]
    rfl
  · rw [hg.text t hkind]

/-- A change of tokens and of slots under which a parser yields the changed tree.  The end of input
that stands behind every row of tokens stays, and so do the slots before any check. -/
structure Recasts (r : String → String) (g : Token → Token) (s : Slot → Slot) : Prop extends
    Renames r g where
  eof : g (.fixed .eof) = .fixed .eof
  empty : s none = none

def SyntaxError.map (g : Token → Token) (e : SyntaxError) : SyntaxError := ⟨e.expected, g e.found⟩

namespace Parser

variable {α β γ δ : Type}

def carry (g : Token → Token) (f : α → β) :
    Except SyntaxError α × List Token → Except SyntaxError β × List Token
  | (.ok a, left) => (.ok (f a), left.map g)
  | (.error e, left) => (.error (e.map g), left.map g)

/-- On changed tokens, the second parser leaves what the first one leaves, changed. -/
def Carries (g : Token → Token) (f : α → β) (p : Parser (List Token) α)
    (q : Parser (List Token) β) : Prop := ∀ w, q (w.map g) = carry g f (p w)

namespace Carries

variable {g : Token → Token} {f : α → β} {p : Parser (List Token) α}
  {q : Parser (List Token) β} {kind : TokenKind} {kinds : List TokenKind}

theorem pure {a : α} {b : β} (h : f a = b) : Carries g f (Pure.pure a) (Pure.pure b) := by
  subst h
  exact fun _ => rfl

theorem bind {h : γ → δ} {k : α → Parser (List Token) γ} {k' : β → Parser (List Token) δ}
    (hp : Carries g f p q) (hk : ∀ a, Carries g h (k a) (k' (f a))) :
    Carries g h (p >>= k) (q >>= k') := by
  intro w
  rw [bind_apply, bind_apply, hp w]
  rcases p w with ⟨e | a, left⟩
  · rfl
  · exact hk a left

theorem map {h : γ → δ} {k : α → γ} {k' : β → δ} (hp : Carries g f p q)
    (hk : ∀ a, h (k a) = k' (f a)) : Carries g h (do return k (← p)) (do return k' (← q)) :=
  hp.bind fun a => .pure (hk a)

theorem failAt (expected : Expected) (t : Token) :
    Carries g f (Parser.failAt expected t) (Parser.failAt expected (g t)) := fun _ => rfl

variable {r : String → String} {s : Slot → Slot} (hg : Recasts r g s)

include hg in
theorem current_map (w : List Token) :
    TokenStream.current (w.map g) = g (TokenStream.current w) := by
  cases w with
  | nil => exact hg.eof.symm
  | cons t w => rfl

theorem advance_map (w : List Token) :
    TokenStream.advance (w.map g) = (TokenStream.advance w).map g := by
  cases w <;> rfl

include hg in
theorem current_bind {k : Token → Parser (List Token) α} {k' : Token → Parser (List Token) β}
    (hk : ∀ t, Carries g f (k t) (k' (g t))) : Carries g f (current >>= k) (current >>= k') := by
  intro w
  rw [Parser.current_bind, Parser.current_bind, current_map hg]
  exact hk _ w

include hg in
theorem advance_bind {k : Token → Parser (List Token) α} {k' : Token → Parser (List Token) β}
    (hk : ∀ t, Carries g f (k t) (k' (g t))) : Carries g f (advance >>= k) (advance >>= k') := by
  intro w
  change k' (TokenStream.current (w.map g)) (TokenStream.advance (w.map g)) = _
  rw [current_map hg, advance_map]
  exact hk _ _

include hg

theorem fail (expected : Expected) :
    Carries g f (Parser.fail expected) (Parser.fail expected) := by
  intro w
  rw [Parser.fail, Parser.fail, current_map hg]
  rfl

theorem has_bind {k : Bool → Parser (List Token) α} {k' : Bool → Parser (List Token) β}
    (hk : ∀ b, Carries g f (k b) (k' b)) : Carries g f (has kind >>= k) (has kind >>= k') := by
  intro w
  rw [Parser.has_bind, Parser.has_bind, current_map hg, hg.kind]
  exact hk _ w

theorem hasAny_bind {k : Bool → Parser (List Token) α} {k' : Bool → Parser (List Token) β}
    (hk : ∀ b, Carries g f (k b) (k' b)) :
    Carries g f (hasAny kinds >>= k) (hasAny kinds >>= k') := by
  intro w
  rw [Parser.hasAny_bind, Parser.hasAny_bind, current_map hg, hg.kind]
  exact hk _ w

theorem take?_bind {k : Option Token → Parser (List Token) α}
    {k' : Option Token → Parser (List Token) β} (hk : ∀ o, Carries g f (k o) (k' (o.map g))) :
    Carries g f (take? kind >>= k) (take? kind >>= k') := by
  intro w
  rw [Parser.take?_bind, Parser.take?_bind, current_map hg, hg.kind, advance_map]
  split
  · exact hk (some _) _
  · exact hk none w

theorem takeAs?_bind {meaning? : TokenKind → Option γ}
    {k : Option (γ × Token) → Parser (List Token) α} {k' : Option (γ × Token) → Parser (List Token) β}
    (hsome : ∀ c t, Carries g f (k (some (c, t))) (k' (some (c, g t))))
    (hnone : Carries g f (k none) (k' none)) :
    Carries g f (takeAs? meaning? >>= k) (takeAs? meaning? >>= k') := by
  intro w
  rw [Parser.takeAs?_bind, Parser.takeAs?_bind, current_map hg, hg.kind, advance_map]
  cases meaning? (TokenStream.current w).kind with
  | some c => exact hsome c _ _
  | none => exact hnone w

theorem expect (kind : TokenKind) : Carries g g (Parser.expect kind) (Parser.expect kind) := by
  refine take?_bind hg fun o => ?_
  cases o with
  | some t => exact .pure rfl
  | none => exact .fail hg _

theorem expectAny (kinds : List TokenKind) :
    Carries g g (Parser.expectAny kinds) (Parser.expectAny kinds) := by
  intro w
  rw [Parser.expectAny, bind_apply, bind_apply, takeAny?_apply, takeAny?_apply, current_map hg,
    hg.kind, advance_map]
  by_cases hkind : (TokenStream.current w).kind ∈ kinds
  · rw [if_pos hkind, if_pos hkind]
    rfl
  · rw [if_neg hkind, if_neg hkind]
    exact Carries.fail hg (.anyOf kinds) w

theorem opt (hp : Carries g f p q) :
    Carries g (Option.map f) (Parser.opt kinds p) (Parser.opt kinds q) := by
  refine hasAny_bind hg fun b => ?_
  cases b with
  | true => exact hp.map fun _ => rfl
  | false => exact .pure rfl

theorem many (hp : Carries g f p q) (fuel : Nat) :
    Carries g (List.map f) (Parser.many kinds p fuel) (Parser.many kinds q fuel) := by
  induction fuel with
  | zero => exact .pure rfl
  | succ fuel ih =>
    refine hasAny_bind hg fun b => ?_
    cases b with
    | true => exact hp.bind fun a => ih.map fun _ => rfl
    | false => exact .pure rfl

theorem afterCommas (hp : Carries g f p q) (fuel : Nat) :
    Carries g (List.map f) (Parser.afterCommas p fuel) (Parser.afterCommas q fuel) := by
  induction fuel with
  | zero => exact .pure rfl
  | succ fuel ih =>
    refine take?_bind hg fun o => ?_
    cases o with
    | some t => exact hp.bind fun a => ih.map fun _ => rfl
    | none => exact .pure rfl

theorem commaSeparated (hp : Carries g f p q) (fuel : Nat) :
    Carries g (List.map f) (Parser.commaSeparated kinds p fuel)
      (Parser.commaSeparated kinds q fuel) := by
  refine hasAny_bind hg fun b => ?_
  cases b with
  | true => exact hp.bind fun a => (hp.afterCommas hg fuel).map fun _ => rfl
  | false => exact .pure rfl

end Carries
end Parser

namespace Grammar

open TeachLang.Parser

variable {r : String → String} {g : Token → Token} {s : Slot → Slot} (hg : Recasts r g s)

include hg

/-! Expressions. -/

theorem literal_carries : Carries g (Literal.map g s) literal literal := by
  refine (Carries.expectAny hg _).bind fun t => ?_
  rw [Token.isLegible_renamed hg.toRenames]
  by_cases hlegible : t.isLegible
  · rw [if_pos hlegible, if_pos hlegible]
    exact .pure (by rw [Literal.map, LiteralValue.ofToken_renamed hg.toRenames, hg.empty])
  · rw [if_neg hlegible, if_neg hlegible]
    exact .failAt _ t

theorem listLiteral_carries (fuel : Nat) :
    Carries g (ListLiteral.map g s) (listLiteral fuel) (listLiteral fuel) := by
  refine (Carries.expectAny hg _).bind fun opening => ?_
  refine ((literal_carries hg).commaSeparated hg fuel).bind fun elements => ?_
  rw [hg.kind]
  refine (Carries.expect hg _).map fun _ => ?_
  rw [ListLiteral.map, hg.empty]

section

variable {e : Parser (List Token) Expr} (he : Carries g (Expr.map g s) e e)

include he

theorem arguments_carries (fuel : Nat) :
    Carries g (Expr.mapAll g s) (arguments e fuel) (arguments e fuel) := by
  refine (Carries.expect hg _).bind fun _ => (he.commaSeparated hg fuel).bind fun args => ?_
  exact (Carries.expect hg _).map fun _ => Expr.mapAll_eq_map g s args

theorem atom_carries (fuel : Nat) : Carries g (Expr.map g s) (atom e fuel) (atom e fuel) := by
  refine Carries.current_bind hg fun t => ?_
  rw [hg.kind]
  cases t.kind
  case parenthesisOpen =>
    exact .advance_bind hg fun _ => he.bind fun inner => (Carries.expect hg _).map fun _ => rfl
  case identifier =>
    refine .advance_bind hg fun name => .has_bind hg fun b => ?_
    cases b with
    | true =>
      refine (arguments_carries hg he fuel).map fun args => ?_
      rw [Expr.map, hg.empty]
    | false => exact .pure (by rw [Expr.map, Identifier.map, hg.empty])
  case curlyOpen | bracketOpen => exact (listLiteral_carries hg fuel).map fun _ => rfl
  case intLiteral | stringLiteral | kwTrue | kwFalse => exact (literal_carries hg).map fun _ => rfl
  all_goals exact .fail hg _

theorem primary_carries (fuel : Nat) :
    Carries g (Expr.map g s) (primary e fuel) (primary e fuel) := by
  refine (atom_carries hg he fuel).bind fun target => .take?_bind hg fun o => ?_
  cases o with
  | some opening =>
    refine he.bind fun position => (Carries.expect hg _).map fun _ => ?_
    rw [Expr.map, hg.empty]
  | none => exact .pure rfl

theorem unary_carries (fuel : Nat) : Carries g (Expr.map g s) (unary e fuel) (unary e fuel) := by
  induction fuel with
  | zero => exact he
  | succ fuel ih =>
    rw [unary_succ]
    refine .takeAs?_bind hg (fun op symbol => ih.map fun operand => ?_) he
    rw [Expr.map, hg.empty]

theorem moreOperands_carries (level : Level) (fuel : Nat) (lhs : Expr) :
    Carries g (Expr.map g s) (moreOperands level e fuel lhs)
      (moreOperands level e fuel (lhs.map g s)) := by
  induction fuel generalizing lhs with
  | zero => exact .pure rfl
  | succ fuel ih =>
    rw [moreOperands_succ, moreOperands_succ]
    refine .takeAs?_bind hg (fun op symbol => he.bind fun rhs => ?_) (.pure rfl)
    have hnext := ih (.binary op symbol lhs rhs none)
    rwa [Expr.map, hg.empty] at hnext

theorem operation_carries (level : Level) (fuel : Nat) :
    Carries g (Expr.map g s) (operation level e fuel) (operation level e fuel) :=
  he.bind fun lhs => moreOperands_carries hg he level fuel lhs

end

theorem expr_carries (fuel : Nat) : Carries g (Expr.map g s) (expr fuel) (expr fuel) := by
  induction fuel with
  | zero => exact .fail hg _
  | succ fuel ih =>
    have hfactor := unary_carries hg (primary_carries hg ih (fuel + 1)) (fuel + 1)
    have hterm := operation_carries hg hfactor .mul (fuel + 1)
    have hsum := operation_carries hg hterm .sum (fuel + 1)
    have hrelation := operation_carries hg hsum .relational (fuel + 1)
    exact operation_carries hg hrelation .logic (fuel + 1)

/-! Statements. -/

theorem nameStatement_carries (fuel : Nat) :
    Carries g (Statement.map g s) (nameStatement fuel) (nameStatement fuel) := by
  refine (Carries.expect hg _).bind fun name => .current_bind hg fun t => ?_
  rw [hg.kind]
  cases t.kind
  case colonEqual =>
    refine .advance_bind hg fun symbol => (expr_carries hg fuel).map fun value => ?_
    rw [Statement.map, Target.map, Identifier.map, hg.empty]
  case bracketOpen =>
    refine .advance_bind hg fun opening => (expr_carries hg fuel).bind fun position => ?_
    refine (Carries.expect hg _).bind fun _ => (Carries.expect hg _).bind fun symbol => ?_
    refine (expr_carries hg fuel).map fun value => ?_
    rw [Statement.map, Target.map, Expr.map, Identifier.map, hg.empty]
  case parenthesisOpen =>
    refine (arguments_carries hg (expr_carries hg fuel) fuel).map fun args => ?_
    rw [Statement.map, hg.empty]
  all_goals exact .fail hg _

section

variable {b : Parser (List Token) Block} (hb : Carries g (Block.map g s) b b)

include hb

theorem elseIfs_carries {e : Parser (List Token) Expr} (he : Carries g (Expr.map g s) e e)
    (fuel : Nat) : Carries g (ElseIfs.map g s) (elseIfs e b fuel) (elseIfs e b fuel) := by
  induction fuel with
  | zero => exact .pure rfl
  | succ fuel ih =>
    refine .take?_bind hg fun o => ?_
    cases o with
    | some keyword =>
      refine he.bind fun condition => (Carries.expect hg _).bind fun _ => ?_
      refine hb.bind fun body => ih.map fun rest => ?_
      rw [ElseIfs.map, hg.empty]
    | none => exact .pure rfl

theorem otherwise_carries : Carries g (Else.map g s) (otherwise b) (otherwise b) := by
  refine .take?_bind hg fun o => ?_
  cases o with
  | some keyword =>
    refine hb.map fun body => ?_
    rw [Else.map, hg.empty]
  | none => exact .pure rfl

theorem conditional_carries (fuel : Nat) :
    Carries g (Statement.map g s) (conditional b fuel) (conditional b fuel) := by
  refine (Carries.expect hg _).bind fun keyword => (expr_carries hg fuel).bind fun condition => ?_
  refine (Carries.expect hg _).bind fun _ => hb.bind fun body => ?_
  refine (elseIfs_carries hg hb (expr_carries hg fuel) fuel).bind fun branches => ?_
  refine (otherwise_carries hg hb).bind fun last => (Carries.expect hg _).map fun _ => ?_
  rw [Statement.map, hg.empty]

theorem loop_carries : Carries g (Statement.map g s) (loop b) (loop b) := by
  refine .advance_bind hg fun keyword => hb.bind fun body => (Carries.expect hg _).map fun _ => ?_
  rw [Statement.map, hg.empty]

theorem forEach_carries (fuel : Nat) :
    Carries g (Statement.map g s) (forEach b fuel) (forEach b fuel) := by
  refine .advance_bind hg fun keyword => (Carries.expect hg _).bind fun item => ?_
  refine (Carries.expect hg _).bind fun _ => (expr_carries hg fuel).bind fun iterable => ?_
  refine (Carries.expect hg _).bind fun _ => hb.bind fun body => ?_
  refine (Carries.expect hg _).map fun _ => ?_
  rw [Statement.map, Identifier.map, hg.empty]

theorem statementBody_carries (fuel : Nat) :
    Carries g (Statement.map g s) (statementBody b fuel) (statementBody b fuel) := by
  refine .current_bind hg fun t => ?_
  rw [hg.kind]
  cases t.kind
  case identifier => exact nameStatement_carries hg fuel
  case kwIf => exact conditional_carries hg hb fuel
  case kwLoop => exact loop_carries hg hb
  case kwFor => exact forEach_carries hg hb fuel
  case kwReturn =>
    refine .advance_bind hg fun keyword => ((expr_carries hg fuel).opt hg).map fun value => ?_
    rw [Statement.map, hg.empty]
  case kwExit => exact .advance_bind hg fun keyword => .pure (by rw [Statement.map, hg.empty])
  all_goals exact .fail hg _

end

theorem blockOf_carries {p : Parser (List Token) Statement} (hp : Carries g (Statement.map g s) p p)
    (fuel : Nat) : Carries g (Block.map g s) (blockOf p fuel) (blockOf p fuel) := by
  refine (hp.many hg fuel).map fun statements => ?_
  rw [Block.map, Statement.mapAll_eq_map, hg.empty]

theorem statement_carries (fuel : Nat) :
    Carries g (Statement.map g s) (statement fuel) (statement fuel) := by
  induction fuel with
  | zero => exact .fail hg _
  | succ fuel ih =>
    refine (statementBody_carries hg (blockOf_carries hg ih fuel) (fuel + 1)).bind fun body => ?_
    exact (Carries.expect hg _).map fun _ => rfl

theorem block_carries (fuel : Nat) : Carries g (Block.map g s) (block fuel) (block fuel) :=
  blockOf_carries hg (statement_carries hg fuel) fuel

/-! Declarations and programs. -/

theorem constantValue_carries (fuel : Nat) :
    Carries g (ConstantValue.map g s) (constantValue fuel) (constantValue fuel) := by
  refine .has_bind hg fun curly => ?_
  cases curly with
  | true => exact (listLiteral_carries hg fuel).map fun _ => rfl
  | false =>
    refine .hasAny_bind hg fun simple => ?_
    cases simple with
    | true => exact (literal_carries hg).map fun _ => rfl
    | false => exact .fail hg _

theorem constantDecl_carries (fuel : Nat) :
    Carries g (ConstantDecl.map g s) (constantDecl fuel) (constantDecl fuel) := by
  refine (Carries.expect hg _).bind fun name => (Carries.expect hg _).bind fun _ => ?_
  refine (constantValue_carries hg fuel).bind fun value => (Carries.expect hg _).map fun _ => ?_
  rw [ConstantDecl.map, hg.empty]

theorem constantList_carries (fuel : Nat) :
    Carries g (ConstantList.map g s) (constantList fuel) (constantList fuel) := by
  refine (Carries.expect hg _).bind fun keyword => ?_
  refine (constantDecl_carries hg fuel).bind fun declaration => ?_
  refine ((constantDecl_carries hg fuel).many hg fuel).map fun declarations => ?_
  rw [ConstantList.map, hg.empty, List.map_cons]

theorem simpleTypeName_carries (expected : List TokenKind) :
    Carries g (Prod.map id g) (simpleTypeName expected) (simpleTypeName expected) :=
  .takeAs?_bind hg (fun _ _ => .pure rfl) (.fail hg _)

theorem typeExpr_carries : Carries g (TypeExpr.map g s) typeExpr typeExpr := by
  rw [typeExpr_eq]
  refine .take?_bind hg fun o => ?_
  cases o with
  | some keyword =>
    refine (Carries.expect hg _).bind fun _ => (simpleTypeName_carries hg _).map fun found => ?_
    rw [TypeExpr.map, hg.empty]
    rfl
  | none =>
    refine (simpleTypeName_carries hg _).map fun found => ?_
    rw [TypeExpr.map, hg.empty]
    rfl

theorem identifier_carries : Carries g (Identifier.map g s) identifier identifier := by
  refine (Carries.expect hg _).map fun t => ?_
  rw [Identifier.map, hg.empty]

theorem bindingDecl_carries (fuel : Nat) :
    Carries g (BindingDecl.map g s) (bindingDecl fuel) (bindingDecl fuel) := by
  refine (identifier_carries hg).bind fun name => ?_
  refine ((identifier_carries hg).afterCommas hg fuel).bind fun names => ?_
  refine (Carries.expect hg _).bind fun _ => (typeExpr_carries hg).map fun type => ?_
  rw [BindingDecl.map, hg.empty, List.map_cons]

theorem closedBinding_carries (fuel : Nat) :
    Carries g (BindingDecl.map g s) (closedBinding fuel) (closedBinding fuel) :=
  (bindingDecl_carries hg fuel).bind fun _ => (Carries.expect hg _).map fun _ => rfl

theorem bindings_carries (fuel : Nat) :
    Carries g (List.map (BindingDecl.map g s)) (many First.name (closedBinding fuel) fuel)
      (many First.name (closedBinding fuel) fuel) :=
  (closedBinding_carries hg fuel).many hg fuel

theorem variableList_carries (fuel : Nat) :
    Carries g (VariableList.map g s) (variableList fuel) (variableList fuel) := by
  refine (Carries.expect hg _).bind fun keyword => ?_
  refine (closedBinding_carries hg fuel).bind fun declaration => ?_
  refine (bindings_carries hg fuel).map fun declarations => ?_
  rw [VariableList.map, hg.empty, List.map_cons]

theorem returnType_carries : Carries g (TypeExpr.map g s) returnType returnType := by
  refine .take?_bind hg fun o => ?_
  cases o with
  | some colon => exact typeExpr_carries hg
  | none => exact .pure (by rw [TypeExpr.map, hg.empty])

theorem procedureDecl_carries (fuel : Nat) :
    Carries g (ProcedureDecl.map g s) (procedureDecl fuel) (procedureDecl fuel) := by
  refine (Carries.expect hg _).bind fun keyword => (Carries.expect hg _).bind fun name => ?_
  refine (Carries.expect hg _).bind fun _ => (bindings_carries hg fuel).bind fun parameters => ?_
  refine (Carries.expect hg _).bind fun _ => (returnType_carries hg).bind fun type => ?_
  refine (Carries.expect hg _).bind fun _ => ?_
  refine ((constantList_carries hg fuel).opt hg).bind fun constants => ?_
  refine ((variableList_carries hg fuel).opt hg).bind fun vars => ?_
  refine (Carries.expect hg _).bind fun _ => (block_carries hg fuel).bind fun body => ?_
  refine (Carries.expect hg _).bind fun _ => (Carries.expect hg _).map fun _ => ?_
  rw [ProcedureDecl.map, ParameterList.map, hg.empty]

theorem procedureList_carries (fuel : Nat) :
    Carries g (ProcedureList.map g s) (procedureList fuel) (procedureList fuel) := by
  refine ((procedureDecl_carries hg fuel).many hg fuel).map fun procedures => ?_
  rw [ProcedureList.map, hg.empty]

theorem programKeyword_carries : Carries g g programKeyword programKeyword := by
  refine .take?_bind hg fun o => ?_
  cases o with
  | some keyword => exact .pure rfl
  | none => exact .fail hg _

/-- Changed tokens are read as the changed program, with the same fuel. -/
theorem program_carries (fuel : Nat) :
    Carries g (Program.map g s) (program fuel) (program fuel) := by
  refine ((constantList_carries hg fuel).opt hg).bind fun constants => ?_
  refine ((variableList_carries hg fuel).opt hg).bind fun vars => ?_
  refine (procedureList_carries hg fuel).bind fun procedures => ?_
  refine (programKeyword_carries hg).bind fun keyword => ?_
  refine (block_carries hg fuel).bind fun statements => (Carries.expect hg _).bind fun _ => ?_
  refine (Carries.expect hg _).bind fun _ => (Carries.expect hg _).map fun _ => ?_
  rw [Program.map, hg.empty]

end Grammar

/-- The tree that changed tokens write, if they write one at all, is the changed tree. -/
theorem Program.Written.eq_map {r : String → String} {g : Token → Token} {s : Slot → Slot}
    (hg : Recasts r g s) {w : List Token} {p q : Program} (hp : p.Written w)
    (hq : q.Written (w.map g)) : q = p.map g s := by
  have hfirst := Grammar.program_complete w.length hp (Nat.le_refl _) (reads_self w)
    List.not_mem_nil
  have hsecond := Grammar.program_complete w.length hq (by rw [List.length_map])
    (reads_self (w.map g)) List.not_mem_nil
  rw [Grammar.program_carries hg, hfirst] at hsecond
  cases hsecond
  rfl

/-- All slots of a tree are empty when it has just been read. -/
theorem Program.Written.untyped {w : List Token} {p : Program} (h : p.Written w) :
    p.untyped = p := by
  have hid : Recasts id id Slot.cleared :=
    ⟨⟨fun _ => rfl, fun _ _ _ => rfl, fun _ _ => rfl⟩, rfl, rfl⟩
  exact (h.eq_map hid (by rwa [List.map_id])).symm

end TeachLang
