import TeachLang.Proofs.Grammar.Ebnf
import TeachLang.Proofs.Grammar.Written

/-! # Trees of sentences

Tokens whose kinds are a sentence of the documented grammar write a tree, if the texts of its
integer literals are numbers.
-/

namespace TeachLang

/-- Whether some tokens write a tree of a part of the grammar. -/
def Nonterminal.HasTree (n : Nonterminal) (w : List Token) : Prop :=
  match n with
  | program => ∃ p : Program, p.Written w
  | constBlock => ∃ l : ConstantList, l.Written w
  | varBlock => ∃ l : VariableList, l.Written w
  | procedure => ∃ d, Closed ProcedureDecl.Body w d
  | binding => ∃ d, Closed BindingDecl.Body w d
  | type => ∃ type : TypeExpr, type.Written w
  | simpleType => ∃ (t : Token) (s : SimpleType), w = [t] ∧ t.kind = s.kind
  | constantValue => ∃ v : ConstantValue, v.Written w
  | simpleLiteral => ∃ l : Literal, l.Written w
  | statement => ∃ s : Statement, s.Written w
  | expr => ∃ e, Expr.Layer Expr.Written (.level .logic) w e
  | rel => ∃ e, Expr.Layer Expr.Written (.level .relational) w e
  | sum => ∃ e, Expr.Layer Expr.Written (.level .sum) w e
  | mul => ∃ e, Expr.Layer Expr.Written (.level .mul) w e
  | unary => ∃ e, Expr.Layer Expr.Written .unary w e
  | primary => ∃ e, Expr.Layer Expr.Written .primary w e
  | atom => ∃ e, Expr.Layer Expr.Written .atom w e

namespace Ebnf

section

variable {Q : Nonterminal → List Token → Prop} {x : Ebnf} {xs : List Ebnf} {w : List Token}
  {α : Type} {R : Writing α}

theorem holds_token {kind : TokenKind} :
    (token kind).Holds Q w ↔ ∃ t : Token, w = [t] ∧ t.kind = kind := by
  simp [token, Holds]

theorem holds_seq_cons :
    (seq (x :: xs)).Holds Q w ↔ ∃ u v, w = u ++ v ∧ x.Holds Q u ∧ (seq xs).Holds Q v := Iff.rfl

theorem holds_seq_token {kind : TokenKind} : (seq (token kind :: xs)).Holds Q w ↔
    ∃ (t : Token) (v : List Token), w = t :: v ∧ t.kind = kind ∧ (seq xs).Holds Q v := by
  rw [holds_seq_cons]
  constructor
  · rintro ⟨u, v, rfl, hu, hv⟩
    obtain ⟨t, rfl, ht⟩ := holds_token.1 hu
    exact ⟨t, v, rfl, ht, hv⟩
  · rintro ⟨t, v, rfl, ht, hv⟩
    exact ⟨[t], v, rfl, holds_token.2 ⟨t, rfl, ht⟩, hv⟩

theorem holds_seq_singleton : (seq [x]).Holds Q w ↔ x.Holds Q w := by
  rw [holds_seq_cons]
  constructor
  · rintro ⟨u, v, rfl, hu, rfl⟩
    rwa [List.append_nil]
  · intro h
    exact ⟨w, [], (List.append_nil w).symm, h, rfl⟩

/-- A form that ends with a token. -/
theorem holds_seq_concat {kind : TokenKind} (h : (seq (xs ++ [token kind])).Holds Q w) :
    ∃ (v : List Token) (t : Token), w = v ++ [t] ∧ t.kind = kind ∧ (seq xs).Holds Q v := by
  induction xs generalizing w with
  | nil =>
    obtain ⟨t, rfl, ht⟩ := holds_token.1 (holds_seq_singleton.1 h)
    exact ⟨[], t, rfl, ht, rfl⟩
  | cons x xs ih =>
    obtain ⟨u, w, rfl, hu, h⟩ := holds_seq_cons.1 h
    obtain ⟨v, t, rfl, ht, hv⟩ := ih h
    exact ⟨u ++ v, t, (List.append_assoc u v [t]).symm, ht, holds_seq_cons.2 ⟨u, v, rfl, hu, hv⟩⟩

theorem exists_repeated (h : (repeated x).Holds Q w) (hR : ∀ v, x.Holds Q v → ∃ a, R v a) :
    ∃ as, Repeated R w as := by
  obtain ⟨ws, rfl, hws⟩ := h
  induction ws with
  | nil => exact ⟨[], .nil⟩
  | cons v ws ih =>
    obtain ⟨hv, hws⟩ := List.forall_mem_cons.1 hws
    obtain ⟨a, ha⟩ := hR v hv
    obtain ⟨as, has⟩ := ih hws
    exact ⟨a :: as, .cons ha has⟩

theorem exists_optional (h : (optional x).Holds Q w) (hR : ∀ v, x.Holds Q v → ∃ a, R v a) :
    ∃ o, Optional R w o := by
  rcases h with rfl | h
  · exact ⟨none, .none⟩
  · obtain ⟨a, ha⟩ := hR w h
    exact ⟨some a, .some ha⟩

theorem exists_commas (h : (commas x).Holds Q w) (hR : ∀ v, x.Holds Q v → ∃ a, R v a) :
    ∃ u v a as, w = u ++ v ∧ R u a ∧ Repeated (After .comma R) v as := by
  obtain ⟨u, v, rfl, hu, hv⟩ := h
  obtain ⟨a, ha⟩ := hR u hu
  obtain ⟨as, has⟩ : ∃ as, Repeated (After .comma R) v as := by
    refine exists_repeated hv ?_
    rintro _ ⟨u, v, rfl, hu, hv⟩
    obtain ⟨t, rfl, ht⟩ := holds_token.1 hu
    obtain ⟨b, hb⟩ := hR v hv
    exact ⟨b, .mk ht hb⟩
  exact ⟨u, v, a, as, rfl, ha, has⟩

theorem exists_separated (h : (optional (commas x)).Holds Q w)
    (hR : ∀ v, x.Holds Q v → ∃ a, R v a) : ∃ as, Separated R w as := by
  rcases h with rfl | h
  · exact ⟨[], .nil⟩
  · obtain ⟨u, v, a, as, rfl, ha, has⟩ := exists_commas h hR
    exact ⟨a :: as, .cons ha has⟩

end

end Ebnf

open Ebnf Nonterminal

theorem exists_expr {w : List Token} (h : (part expr).Holds HasTree w) :
    ∃ e : Expr, e.Written w := by
  obtain ⟨e, he⟩ := h
  exact ⟨e, .mk he⟩

theorem exists_block {w : List Token} (h : (repeated (part statement)).Holds HasTree w) :
    ∃ b : Block, b.Written w := by
  obtain ⟨statements, hstatements⟩ := exists_repeated h fun v hv => hv
  exact ⟨_, .mk hstatements⟩

/-- Operands with operators between are grouped to the left. -/
theorem exists_operation {level : Level} {kinds : List TokenKind} {n : Nonterminal} {w : List Token}
    (hkinds : ∀ k ∈ kinds, ∃ op : BinaryOp, k = op.kind ∧ op.level = level)
    (hn : ∀ v, n.HasTree v → ∃ e, Expr.Layer Expr.Written level.operand v e)
    (h : (seq [part n, repeated (seq [oneOf kinds, part n])]).Holds HasTree w) :
    ∃ e, Expr.Layer Expr.Written (.level level) w e := by
  obtain ⟨u, v, rfl, hu, hv⟩ := holds_seq_cons.1 h
  obtain ⟨ws, rfl, hws⟩ := holds_seq_singleton.1 hv
  obtain ⟨lhs, hlhs⟩ := hn u hu
  have hfirst := Expr.Layer.operand hlhs
  clear h hu hv hlhs
  induction ws generalizing u lhs with
  | nil => exact ⟨lhs, by simpa using hfirst⟩
  | cons v ws ih =>
    obtain ⟨hhead, htail⟩ := List.forall_mem_cons.1 hws
    obtain ⟨_, v, rfl, ⟨symbol, rfl, hsymbol⟩, hrest⟩ := holds_seq_cons.1 hhead
    obtain ⟨op, hop, rfl⟩ := hkinds _ hsymbol
    obtain ⟨rhs, hrhs⟩ := hn v (holds_seq_singleton.1 hrest)
    obtain ⟨e, he⟩ := ih _ htail _ (.binary hfirst hop hrhs)
    exact ⟨e, by simpa using he⟩

theorem exists_literals {w : List Token}
    (h : (optional (commas (part simpleLiteral))).Holds HasTree w) :
    ∃ es, Separated Literal.Written w es :=
  exists_separated h fun _ hv => hv

theorem exists_listLiteral {opening closing : TokenKind} {w : List Token}
    (hopening : opening ∈ First.listLiteral) (hclosing : closing = Grammar.closing opening)
    (h : (seq [token opening, optional (commas (part simpleLiteral)), token closing]).Holds HasTree w) :
    ∃ l : ListLiteral, l.Written w ∧ l.opening.kind = opening := by
  obtain ⟨o, v, rfl, ho, h⟩ := holds_seq_token.1 h
  obtain ⟨v, c, rfl, hv, h⟩ := holds_seq_cons.1 h
  obtain ⟨c, rfl, hc⟩ := holds_token.1 (holds_seq_singleton.1 h)
  obtain ⟨es, hes⟩ := exists_literals hv
  subst ho
  exact ⟨_, .mk hopening hes (hc.trans hclosing), rfl⟩

theorem exists_arguments {w : List Token}
    (h : (seq [token .parenthesisOpen, optional (commas (part expr)),
      token .parenthesisClose]).Holds HasTree w) : ∃ es, Expr.Arguments Expr.Written w es := by
  obtain ⟨opening, w, rfl, hopening, h⟩ := holds_seq_token.1 h
  obtain ⟨w, v, rfl, hw, h⟩ := holds_seq_cons.1 h
  obtain ⟨closing, rfl, hclosing⟩ := holds_token.1 (holds_seq_singleton.1 h)
  obtain ⟨args, hargs⟩ := exists_separated hw fun _ => exists_expr
  exact ⟨args, .mk hopening hargs hclosing⟩

theorem exists_closed {α : Type} {R : Writing α} {v w : List Token} {a : α} {t : Token} (h : R v a)
    (ht : t.kind = .semicolon) (hw : w = v ++ [t]) : ∃ a, Closed R w a := by
  rw [hw]
  exact ⟨a, .mk h ht⟩

theorem exists_elseIfs {w : List Token}
    (h : (repeated (seq [token .kwElseif, part expr, token .kwThen,
      repeated (part statement)])).Holds HasTree w) :
    ∃ b, ElseIfs.Layer Block.Written w b := by
  obtain ⟨ws, rfl, hws⟩ := h
  induction ws with
  | nil => exact ⟨.nil, .nil⟩
  | cons v ws ih =>
    obtain ⟨hhead, htail⟩ := List.forall_mem_cons.1 hws
    obtain ⟨keyword, v, rfl, hkeyword, hhead⟩ := holds_seq_token.1 hhead
    obtain ⟨u, v, rfl, hu, hhead⟩ := holds_seq_cons.1 hhead
    obtain ⟨thenWord, v, rfl, hthen, hhead⟩ := holds_seq_token.1 hhead
    obtain ⟨condition, hcondition⟩ := exists_expr hu
    obtain ⟨body, hbody⟩ := exists_block (holds_seq_singleton.1 hhead)
    obtain ⟨rest, hrest⟩ := ih htail
    have hlayer := ElseIfs.Layer.cons hkeyword hcondition hthen hbody hrest
    exact ⟨_, by simpa using hlayer⟩

theorem exists_else {w : List Token}
    (h : (optional (seq [token .kwElse, repeated (part statement)])).Holds HasTree w) :
    ∃ b, Else.Layer Block.Written w b := by
  rcases h with rfl | h
  · exact ⟨.absent, .absent⟩
  · obtain ⟨keyword, w, rfl, hkeyword, h⟩ := holds_seq_token.1 h
    obtain ⟨body, hbody⟩ := exists_block (holds_seq_singleton.1 h)
    exact ⟨_, .present hkeyword hbody⟩

section

variable {w : List Token}

theorem exists_assignment
    (h : (seq [token .identifier, token .colonEqual, part expr]).Holds HasTree w) :
    ∃ s, Statement.Layer Block.Written w s := by
  obtain ⟨name, w, rfl, hname, h⟩ := holds_seq_token.1 h
  obtain ⟨symbol, w, rfl, hsymbol, h⟩ := holds_seq_token.1 h
  obtain ⟨value, hvalue⟩ := exists_expr (holds_seq_singleton.1 h)
  exact ⟨_, .assignment (.name hname) hsymbol hvalue⟩

theorem exists_elementAssignment
    (h : (seq [token .identifier, token .bracketOpen, part expr, token .bracketClose,
      token .colonEqual, part expr]).Holds HasTree w) :
    ∃ s, Statement.Layer Block.Written w s := by
  obtain ⟨base, w, rfl, hbase, h⟩ := holds_seq_token.1 h
  obtain ⟨opening, w, rfl, hopening, h⟩ := holds_seq_token.1 h
  obtain ⟨v, w, rfl, hv, h⟩ := holds_seq_cons.1 h
  obtain ⟨closing, w, rfl, hclosing, h⟩ := holds_seq_token.1 h
  obtain ⟨symbol, w, rfl, hsymbol, h⟩ := holds_seq_token.1 h
  obtain ⟨position, hposition⟩ := exists_expr hv
  obtain ⟨value, hvalue⟩ := exists_expr (holds_seq_singleton.1 h)
  have htarget := Target.Written.element hbase hopening hposition hclosing
  exact ⟨_, by simpa using Statement.Layer.assignment htarget hsymbol hvalue⟩

theorem exists_callStatement
    (h : (seq [token .identifier, token .parenthesisOpen, optional (commas (part expr)),
      token .parenthesisClose]).Holds HasTree w) :
    ∃ s, Statement.Layer Block.Written w s := by
  obtain ⟨callee, w, rfl, hcallee, h⟩ := holds_seq_token.1 h
  obtain ⟨args, hargs⟩ := exists_arguments h
  exact ⟨_, .call hcallee hargs⟩

theorem exists_conditional
    (h : (seq [token .kwIf, part expr, token .kwThen, repeated (part statement),
      repeated (seq [token .kwElseif, part expr, token .kwThen, repeated (part statement)]),
      optional (seq [token .kwElse, repeated (part statement)]), token .kwEnd]).Holds HasTree w) :
    ∃ s, Statement.Layer Block.Written w s := by
  obtain ⟨keyword, w, rfl, hkeyword, h⟩ := holds_seq_token.1 h
  obtain ⟨t, w, rfl, ht, h⟩ := holds_seq_cons.1 h
  obtain ⟨thenWord, w, rfl, hthen, h⟩ := holds_seq_token.1 h
  obtain ⟨u, w, rfl, hu, h⟩ := holds_seq_cons.1 h
  obtain ⟨v, w, rfl, hv, h⟩ := holds_seq_cons.1 h
  obtain ⟨w, x, rfl, hw, h⟩ := holds_seq_cons.1 h
  obtain ⟨endWord, rfl, hend⟩ := holds_token.1 (holds_seq_singleton.1 h)
  obtain ⟨condition, hcondition⟩ := exists_expr ht
  obtain ⟨body, hbody⟩ := exists_block hu
  obtain ⟨elseIfs, helseIfs⟩ := exists_elseIfs hv
  obtain ⟨otherwise, hotherwise⟩ := exists_else hw
  exact ⟨_, .conditional hkeyword hcondition hthen hbody helseIfs hotherwise hend⟩

theorem exists_loop
    (h : (seq [token .kwLoop, repeated (part statement), token .kwEnd]).Holds HasTree w) :
    ∃ s, Statement.Layer Block.Written w s := by
  obtain ⟨keyword, w, rfl, hkeyword, h⟩ := holds_seq_token.1 h
  obtain ⟨w, v, rfl, hw, h⟩ := holds_seq_cons.1 h
  obtain ⟨endWord, rfl, hend⟩ := holds_token.1 (holds_seq_singleton.1 h)
  obtain ⟨body, hbody⟩ := exists_block hw
  exact ⟨_, .loop hkeyword hbody hend⟩

theorem exists_forEach
    (h : (seq [token .kwFor, token .identifier, token .kwIn, part expr, token .kwDo,
      repeated (part statement), token .kwEnd]).Holds HasTree w) :
    ∃ s, Statement.Layer Block.Written w s := by
  obtain ⟨keyword, w, rfl, hkeyword, h⟩ := holds_seq_token.1 h
  obtain ⟨item, w, rfl, hitem, h⟩ := holds_seq_token.1 h
  obtain ⟨inWord, w, rfl, hin, h⟩ := holds_seq_token.1 h
  obtain ⟨u, w, rfl, hu, h⟩ := holds_seq_cons.1 h
  obtain ⟨doWord, w, rfl, hdo, h⟩ := holds_seq_token.1 h
  obtain ⟨w, v, rfl, hw, h⟩ := holds_seq_cons.1 h
  obtain ⟨endWord, rfl, hend⟩ := holds_token.1 (holds_seq_singleton.1 h)
  obtain ⟨iterable, hiterable⟩ := exists_expr hu
  obtain ⟨body, hbody⟩ := exists_block hw
  exact ⟨_, .forEach hkeyword hitem hin hiterable hdo hbody hend⟩

theorem exists_return
    (h : (seq [token .kwReturn, optional (part expr)]).Holds HasTree w) :
    ∃ s, Statement.Layer Block.Written w s := by
  obtain ⟨keyword, w, rfl, hkeyword, h⟩ := holds_seq_token.1 h
  obtain ⟨value, hvalue⟩ := exists_optional (holds_seq_singleton.1 h) fun _ => exists_expr
  exact ⟨_, .returning hkeyword hvalue⟩

theorem exists_exit (h : (seq [token .kwExit]).Holds HasTree w) :
    ∃ s, Statement.Layer Block.Written w s := by
  obtain ⟨keyword, rfl, hkeyword⟩ := holds_token.1 (holds_seq_singleton.1 h)
  exact ⟨_, .exit hkeyword⟩

/-- Each form of statement ends with a semicolon. -/
theorem exists_statement {form : List Ebnf}
    (hform : ∀ v, (seq form).Holds HasTree v → ∃ s, Statement.Layer Block.Written v s)
    (h : (seq (form ++ [token .semicolon])).Holds HasTree w) : ∃ s : Statement, s.Written w := by
  obtain ⟨v, semicolon, rfl, hsemicolon, hv⟩ := holds_seq_concat h
  obtain ⟨s, hs⟩ := hform v hv
  exact ⟨s, .mk hs hsemicolon⟩

theorem hasTree_statement (h : statement.rule.Holds HasTree w) : statement.HasTree w := by
  rcases h with hassignment | helement | hcall | hconditional | hloop | hforEach | hreturn | hexit |
    hnone
  · exact exists_statement (fun _ => exists_assignment) hassignment
  · exact exists_statement (fun _ => exists_elementAssignment) helement
  · exact exists_statement (fun _ => exists_callStatement) hcall
  · exact exists_statement (fun _ => exists_conditional) hconditional
  · exact exists_statement (fun _ => exists_loop) hloop
  · exact exists_statement (fun _ => exists_forEach) hforEach
  · exact exists_statement (fun _ => exists_return) hreturn
  · exact exists_statement (fun _ => exists_exit) hexit
  · obtain ⟨_, _, hmem⟩ := hnone
    cases hmem

theorem exists_parentheses
    (h : (seq [token .parenthesisOpen, part expr, token .parenthesisClose]).Holds HasTree w) :
    ∃ e, Expr.Layer Expr.Written .atom w e := by
  obtain ⟨opening, w, rfl, hopening, h⟩ := holds_seq_token.1 h
  obtain ⟨w, v, rfl, hw, h⟩ := holds_seq_cons.1 h
  obtain ⟨closing, rfl, hclosing⟩ := holds_token.1 (holds_seq_singleton.1 h)
  obtain ⟨e, he⟩ := exists_expr hw
  exact ⟨e, .parentheses hopening he hclosing⟩

theorem hasTree_atom (h : atom.rule.Holds HasTree w) : atom.HasTree w := by
  rcases h with hparentheses | hname | hcall | hliteral | hcurly | hbracket | hnone
  · exact exists_parentheses hparentheses
  · obtain ⟨name, rfl, hkind⟩ := holds_token.1 hname
    exact ⟨_, .name hkind⟩
  · obtain ⟨callee, w, rfl, hcallee, h⟩ := holds_seq_token.1 hcall
    obtain ⟨args, hargs⟩ := exists_arguments h
    exact ⟨_, .call hcallee hargs⟩
  · obtain ⟨l, hl⟩ := hliteral
    exact ⟨_, .literal hl⟩
  · obtain ⟨l, hl, -⟩ := exists_listLiteral (by decide) rfl hcurly
    exact ⟨_, .list hl⟩
  · obtain ⟨l, hl, -⟩ := exists_listLiteral (by decide) rfl hbracket
    exact ⟨_, .list hl⟩
  · obtain ⟨_, _, hmem⟩ := hnone
    cases hmem

end

theorem hasTree_primary {w : List Token} (h : primary.rule.Holds HasTree w) :
    primary.HasTree w := by
  obtain ⟨v, w, rfl, ⟨target, htarget⟩, h⟩ := holds_seq_cons.1 h
  rcases holds_seq_singleton.1 h with rfl | h
  · rw [List.append_nil]
    exact ⟨target, .atom htarget⟩
  · obtain ⟨opening, w, rfl, hopening, h⟩ := holds_seq_token.1 h
    obtain ⟨w, u, rfl, hw, h⟩ := holds_seq_cons.1 h
    obtain ⟨closing, rfl, hclosing⟩ := holds_token.1 (holds_seq_singleton.1 h)
    obtain ⟨position, hposition⟩ := exists_expr hw
    exact ⟨_, .index htarget hopening hposition hclosing⟩

theorem hasTree_unary {w : List Token} (h : unary.rule.Holds HasTree w) : unary.HasTree w := by
  rcases h with h | h | h
  · obtain ⟨_, w, rfl, ⟨symbol, rfl, hsymbol⟩, hrest⟩ := holds_seq_cons.1 h
    obtain ⟨operand, hoperand⟩ := holds_seq_singleton.1 hrest
    obtain ⟨op, hop⟩ : ∃ op : UnaryOp, symbol.kind = op.kind := by
      simp only [List.mem_cons, List.not_mem_nil, or_false] at hsymbol
      rcases hsymbol with h | h
      · exact ⟨.not, h⟩
      · exact ⟨.negation, h⟩
    exact ⟨_, .unary hop hoperand⟩
  · obtain ⟨e, he⟩ := h
    exact ⟨e, .primary he⟩
  · obtain ⟨_, _, hmem⟩ := h
    cases hmem

theorem exists_binaryOp {level : Level} {kinds : List TokenKind}
    (h : ∀ k ∈ kinds, (level.operator? k).isSome) :
    ∀ k ∈ kinds, ∃ op : BinaryOp, k = op.kind ∧ op.level = level := by
  intro k hk
  obtain ⟨op, hop⟩ := Option.isSome_iff_exists.1 (h k hk)
  exact ⟨op, (Level.operator?_eq_some_iff _ _ _).1 hop⟩

theorem hasTree_constBlock {w : List Token} (h : constBlock.rule.Holds HasTree w) :
    constBlock.HasTree w := by
  have hbody : ∀ v, Holds HasTree (seq [token .identifier, token .colonEqual, part constantValue,
      token .semicolon]) v → ∃ d, Closed ConstantDecl.Body v d := by
    intro v hv
    obtain ⟨name, v, rfl, hname, hv⟩ := holds_seq_token.1 hv
    obtain ⟨symbol, v, rfl, hsymbol, hv⟩ := holds_seq_token.1 hv
    obtain ⟨v, u, rfl, ⟨value, hvalue⟩, hv⟩ := holds_seq_cons.1 hv
    obtain ⟨semicolon, rfl, hsemicolon⟩ := holds_token.1 (holds_seq_singleton.1 hv)
    exact exists_closed (ConstantDecl.Body.mk hname hsymbol hvalue) hsemicolon (by simp)
  obtain ⟨keyword, w, rfl, hkeyword, h⟩ := holds_seq_token.1 h
  obtain ⟨u, v, rfl, hu, hv⟩ := holds_seq_singleton.1 h
  obtain ⟨d, hd⟩ := hbody u hu
  obtain ⟨ds, hds⟩ := exists_repeated hv hbody
  exact ⟨_, .mk hkeyword hd hds⟩

theorem hasTree_varBlock {w : List Token} (h : varBlock.rule.Holds HasTree w) :
    varBlock.HasTree w := by
  obtain ⟨keyword, w, rfl, hkeyword, h⟩ := holds_seq_token.1 h
  obtain ⟨u, v, rfl, ⟨d, hd⟩, hv⟩ := holds_seq_singleton.1 h
  obtain ⟨ds, hds⟩ := exists_repeated hv fun _ h => h
  exact ⟨_, .mk hkeyword hd hds⟩

theorem exists_returnType {w : List Token}
    (h : (optional (seq [token .colon, part type])).Holds HasTree w) :
    ∃ type : TypeExpr, type.ReturnWritten w := by
  rcases h with rfl | h
  · exact ⟨_, .none⟩
  · obtain ⟨colon, w, rfl, hcolon, h⟩ := holds_seq_token.1 h
    obtain ⟨type, htype⟩ := holds_seq_singleton.1 h
    exact ⟨type, .some (.mk hcolon htype)⟩

theorem hasTree_procedure {w : List Token} (h : procedure.rule.Holds HasTree w) :
    procedure.HasTree w := by
  obtain ⟨keyword, w, rfl, hkeyword, h⟩ := holds_seq_token.1 h
  obtain ⟨name, w, rfl, hname, h⟩ := holds_seq_token.1 h
  obtain ⟨opening, w, rfl, hopening, h⟩ := holds_seq_token.1 h
  obtain ⟨u, w, rfl, hu, h⟩ := holds_seq_cons.1 h
  obtain ⟨closing, w, rfl, hclosing, h⟩ := holds_seq_token.1 h
  obtain ⟨v, w, rfl, hv, h⟩ := holds_seq_cons.1 h
  obtain ⟨semicolon, w, rfl, hsemicolon, h⟩ := holds_seq_token.1 h
  obtain ⟨w, x, rfl, hw, h⟩ := holds_seq_cons.1 h
  obtain ⟨x, y, rfl, hx, h⟩ := holds_seq_cons.1 h
  obtain ⟨beginWord, y, rfl, hbegin, h⟩ := holds_seq_token.1 h
  obtain ⟨y, z, rfl, hy, h⟩ := holds_seq_cons.1 h
  obtain ⟨endWord, z, rfl, hend, h⟩ := holds_seq_token.1 h
  obtain ⟨last, rfl, hlast⟩ := holds_token.1 (holds_seq_singleton.1 h)
  obtain ⟨parameters, hparameters⟩ := exists_repeated hu fun _ h => h
  obtain ⟨returnType, hreturn⟩ := exists_returnType hv
  obtain ⟨constants, hconstants⟩ := exists_optional hw fun _ h => h
  obtain ⟨vars, hvars⟩ := exists_optional hx fun _ h => h
  obtain ⟨body, hbody⟩ := exists_block hy
  have hdecl := ProcedureDecl.Body.mk hkeyword hname hopening hparameters hclosing hreturn hsemicolon
    hconstants hvars hbegin hbody hend
  exact exists_closed hdecl hlast (by simp)

theorem hasTree_binding {w : List Token} (h : binding.rule.Holds HasTree w) :
    binding.HasTree w := by
  obtain ⟨u, w, rfl, hu, h⟩ := holds_seq_cons.1 h
  obtain ⟨colon, w, rfl, hcolon, h⟩ := holds_seq_token.1 h
  obtain ⟨w, x, rfl, ⟨type, htype⟩, h⟩ := holds_seq_cons.1 h
  obtain ⟨semicolon, rfl, hsemicolon⟩ := holds_token.1 (holds_seq_singleton.1 h)
  have hname : ∀ v, Holds HasTree (token .identifier) v → ∃ i : Identifier, i.Written v := by
    intro v hv
    obtain ⟨t, rfl, ht⟩ := holds_token.1 hv
    exact ⟨_, .mk ht⟩
  obtain ⟨u, v, i, is, rfl, hi, his⟩ := exists_commas hu hname
  exact exists_closed (BindingDecl.Body.mk hi his hcolon htype) hsemicolon (by simp)

theorem hasTree_type {w : List Token} (h : type.rule.Holds HasTree w) : type.HasTree w := by
  rcases h with ⟨t, s, rfl, ht⟩ | h | ⟨_, _, hmem⟩
  · exact ⟨_, .simple ht⟩
  · obtain ⟨keyword, w, rfl, hkeyword, h⟩ := holds_seq_token.1 h
    obtain ⟨ofWord, w, rfl, hof, h⟩ := holds_seq_token.1 h
    obtain ⟨t, s, rfl, ht⟩ := holds_seq_singleton.1 h
    exact ⟨_, .list hkeyword hof ht⟩
  · cases hmem

theorem hasTree_simpleType {w : List Token} (h : simpleType.rule.Holds HasTree w) :
    simpleType.HasTree w := by
  obtain ⟨t, rfl, ht⟩ := h
  have hofKind : ∀ k ∈ First.simpleType, (SimpleType.ofKind? k).isSome := by decide
  obtain ⟨s, hs⟩ := Option.isSome_iff_exists.1 (hofKind _ ht)
  exact ⟨t, s, rfl, (SimpleType.ofKind?_eq_some_iff _ _).1 hs⟩

theorem hasTree_constantValue {w : List Token} (h : constantValue.rule.Holds HasTree w) :
    constantValue.HasTree w := by
  rcases h with ⟨l, hl⟩ | h | ⟨_, _, hmem⟩
  · exact ⟨_, .simple hl⟩
  · obtain ⟨l, hl, hopening⟩ := exists_listLiteral (by decide) rfl h
    exact ⟨_, .list hl hopening⟩
  · cases hmem

theorem hasTree_program {w : List Token} (h : program.rule.Holds HasTree w) :
    program.HasTree w := by
  obtain ⟨u, w, rfl, hu, h⟩ := holds_seq_cons.1 h
  obtain ⟨v, w, rfl, hv, h⟩ := holds_seq_cons.1 h
  obtain ⟨w, x, rfl, hw, h⟩ := holds_seq_cons.1 h
  obtain ⟨keyword, x, rfl, hkeyword, h⟩ := holds_seq_token.1 h
  obtain ⟨x, y, rfl, hx, h⟩ := holds_seq_cons.1 h
  obtain ⟨endWord, y, rfl, hend, h⟩ := holds_seq_token.1 h
  obtain ⟨semicolon, y, rfl, hsemicolon, h⟩ := holds_seq_token.1 h
  obtain ⟨eof, rfl, heof⟩ := holds_token.1 (holds_seq_singleton.1 h)
  obtain ⟨constants, hconstants⟩ := exists_optional hu fun _ h => h
  obtain ⟨vars, hvars⟩ := exists_optional hv fun _ h => h
  obtain ⟨procedures, hprocedures⟩ := exists_repeated hw fun _ h => h
  obtain ⟨body, hbody⟩ := exists_block hx
  exact ⟨_, .mk hconstants hvars hprocedures hkeyword hbody hend hsemicolon heof⟩

theorem hasTree_of_holds (n : Nonterminal) (w : List Token) (hw : ∀ t ∈ w, t.isLegible)
    (h : n.rule.Holds HasTree w) : n.HasTree w := by
  cases n with
  | program => exact hasTree_program h
  | constBlock => exact hasTree_constBlock h
  | varBlock => exact hasTree_varBlock h
  | procedure => exact hasTree_procedure h
  | binding => exact hasTree_binding h
  | type => exact hasTree_type h
  | simpleType => exact hasTree_simpleType h
  | constantValue => exact hasTree_constantValue h
  | simpleLiteral =>
    obtain ⟨t, rfl, ht⟩ := h
    exact ⟨_, .mk ht (hw t (List.mem_singleton.2 rfl))⟩
  | statement => exact hasTree_statement h
  | expr => exact exists_operation (exists_binaryOp (by decide)) (n := rel) (fun _ hv => hv) h
  | rel => exact exists_operation (exists_binaryOp (by decide)) (n := sum) (fun _ hv => hv) h
  | sum => exact exists_operation (exists_binaryOp (by decide)) (n := mul) (fun _ hv => hv) h
  | mul => exact exists_operation (exists_binaryOp (by decide)) (n := unary) (fun _ hv => hv) h
  | unary => exact hasTree_unary h
  | primary => exact hasTree_primary h
  | atom => exact hasTree_atom h

/-- Every sentence of the documented grammar writes a program, if its literals can be converted. -/
theorem exists_written_of_isLegible {w : List Token} (hw : ∀ t ∈ w, t.isLegible)
    (h : Derives (.part .program) (w.map (·.kind))) : ∃ p : Program, p.Written w :=
  h.holds hasTree_of_holds rfl hw

end TeachLang
