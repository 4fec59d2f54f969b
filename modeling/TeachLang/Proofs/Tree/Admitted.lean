import TeachLang.Proofs.Tree.Grammatical
import TeachLang.Proofs.Tree.Print

/-! # Tokens of printed trees

Every token that a grammatical tree is printed as has a text that its kind admits.
-/

namespace TeachLang

/-- A token whose kind admits its text. -/
def Token.Admitted (t : Token) : Prop := t.kind.Admits t.text.toList

theorem Token.Writes.admitted {t : Token} {kind : TokenKind} (h : t.Writes kind) : t.Admitted := by
  obtain ⟨rfl, hadmits⟩ := h
  exact hadmits

theorem Token.admitted_fixed {kind : TokenKind} (h : kind.spelling?.isSome) :
    (Token.fixed kind).Admitted := by
  obtain ⟨text, htext⟩ := Option.isSome_iff_exists.1 h
  rw [Admitted, fixed, htext, Option.getD_some]
  exact TokenKind.admits_of_spelling? htext

theorem admitted_writeCommas {ws : List (List Token)} (h : ∀ w ∈ ws, ∀ t ∈ w, t.Admitted) :
    ∀ t ∈ writeCommas ws, t.Admitted := by
  cases ws with
  | nil => simp [writeCommas]
  | cons w ws =>
    obtain ⟨hw, hws⟩ := List.forall_mem_cons.1 h
    refine List.forall_mem_append.2 ⟨hw, fun t ht => ?_⟩
    obtain ⟨v, hv, hmem⟩ := List.mem_flatMap.1 ht
    exact List.forall_mem_cons.2 ⟨Token.admitted_fixed (by decide), hws v hv⟩ t hmem

theorem admitted_writeParentheses {needed : Bool} {w : List Token} (h : ∀ t ∈ w, t.Admitted) :
    ∀ t ∈ writeParentheses needed w, t.Admitted := by
  cases needed with
  | false => exact h
  | true =>
    refine List.forall_mem_cons.2 ⟨Token.admitted_fixed (by decide), ?_⟩
    exact List.forall_mem_append.2 ⟨h, by simpa using Token.admitted_fixed (by decide)⟩

theorem admitted_flatMap {α : Type} {as : List α} {write : α → List Token}
    (h : ∀ a ∈ as, ∀ t ∈ write a, t.Admitted) : ∀ t ∈ as.flatMap write, t.Admitted := by
  intro t ht
  obtain ⟨a, ha, hmem⟩ := List.mem_flatMap.1 ht
  exact h a ha t hmem

/-- What stands in front of a token that is always written in the same way. -/
theorem admitted_concat {kind : TokenKind} {w : List Token} (h : ∀ t ∈ w, t.Admitted)
    (hkind : kind.spelling?.isSome) : ∀ t ∈ w ++ [Token.fixed kind], t.Admitted :=
  List.forall_mem_append.2 ⟨h, by simpa using Token.admitted_fixed hkind⟩

theorem Literal.Grammatical.admitted {l : Literal} (h : l.Grammatical) :
    ∀ t ∈ l.write, t.Admitted := by
  obtain ⟨⟨kind, -, hkind⟩, -⟩ := h
  simpa [Literal.write] using hkind.admitted

theorem ListLiteral.Grammatical.admitted {l : ListLiteral} (h : l.Grammatical) :
    ∀ t ∈ l.write, t.Admitted := by
  obtain ⟨⟨kind, hmem, hkind⟩, helements⟩ := h
  have hclosing : ∀ k ∈ First.listLiteral, (Grammar.closing k).spelling?.isSome := by decide
  rw [← hkind.1] at hmem
  refine List.forall_mem_cons.2 ⟨hkind.admitted, admitted_concat ?_ (hclosing _ hmem)⟩
  refine admitted_writeCommas fun w hw => ?_
  obtain ⟨e, he, rfl⟩ := List.mem_map.1 hw
  exact (helements e he).admitted

theorem admitted_writeArgs {args : List Expr}
    (h : ∀ w ∈ Expr.writeAll args, ∀ t ∈ w, t.Admitted) : ∀ t ∈ Expr.writeArgs args, t.Admitted :=
  List.forall_mem_cons.2 ⟨Token.admitted_fixed (by decide),
    admitted_concat (admitted_writeCommas h) (by decide)⟩

mutual

theorem Expr.Grammatical.admitted (e : Expr) (h : e.Grammatical) : ∀ t ∈ e.write, t.Admitted := by
  cases e with
  | name i => simpa [Expr.write] using Token.Writes.admitted h
  | call callee args slot =>
    exact List.forall_mem_cons.2
      ⟨h.1.admitted, admitted_writeArgs (Expr.Grammatical.admitted_all args h.2)⟩
  | index target opening position slot =>
    refine List.forall_mem_append.2
      ⟨admitted_writeParentheses (Expr.Grammatical.admitted target h.1), ?_⟩
    exact List.forall_mem_cons.2
      ⟨h.2.1.admitted, admitted_concat (Expr.Grammatical.admitted position h.2.2) (by decide)⟩
  | literal l => exact Literal.Grammatical.admitted h
  | list l => exact ListLiteral.Grammatical.admitted h
  | binary op symbol lhs rhs slot =>
    refine List.forall_mem_append.2
      ⟨admitted_writeParentheses (Expr.Grammatical.admitted lhs h.2.1), ?_⟩
    exact List.forall_mem_cons.2
      ⟨h.1.admitted, admitted_writeParentheses (Expr.Grammatical.admitted rhs h.2.2)⟩
  | unary op symbol operand slot =>
    exact List.forall_mem_cons.2
      ⟨h.1.admitted, admitted_writeParentheses (Expr.Grammatical.admitted operand h.2)⟩

theorem Expr.Grammatical.admitted_all (es : List Expr) (h : Expr.AllGrammatical es) :
    ∀ w ∈ Expr.writeAll es, ∀ t ∈ w, t.Admitted := by
  cases es with
  | nil => simp [Expr.writeAll]
  | cons e es =>
    exact List.forall_mem_cons.2
      ⟨Expr.Grammatical.admitted e h.1, Expr.Grammatical.admitted_all es h.2⟩

end

theorem Target.Grammatical.admitted {target : Target} (h : target.Grammatical) :
    ∀ t ∈ target.write, t.Admitted := by
  cases target with
  | name i => simpa [Target.write] using Token.Writes.admitted h
  | element base opening position slot =>
    obtain ⟨⟨i, rfl⟩, hi, hopening, hposition⟩ := h
    refine List.forall_mem_cons.2 ⟨Token.Writes.admitted hi, ?_⟩
    exact List.forall_mem_cons.2
      ⟨hopening.admitted, admitted_concat (Expr.Grammatical.admitted position hposition) (by decide)⟩

/-- What is in front of the end of a statement that is closed by a word. -/
theorem admitted_end {w : List Token} (h : ∀ t ∈ w, t.Admitted) :
    ∀ t ∈ w ++ [Token.fixed .kwEnd, .fixed .semicolon], t.Admitted := by
  rw [List.append_cons]
  exact admitted_concat (admitted_concat h (by decide)) (by decide)

mutual

theorem Statement.Grammatical.admitted (s : Statement) (h : s.Grammatical) :
    ∀ t ∈ s.write, t.Admitted := by
  cases s with
  | assignment target symbol value slot =>
    refine List.forall_mem_append.2 ⟨h.1.admitted, List.forall_mem_cons.2 ⟨h.2.1.admitted, ?_⟩⟩
    exact admitted_concat (Expr.Grammatical.admitted value h.2.2) (by decide)
  | call callee args slot =>
    exact List.forall_mem_cons.2
      ⟨h.1.admitted, admitted_concat
        (admitted_writeArgs (Expr.Grammatical.admitted_all args h.2)) (by decide)⟩
  | conditional keyword condition body elseIfs elseIfsSlot otherwise slot =>
    obtain ⟨hkeyword, hcondition, hbody, helseIfs, hotherwise⟩ := h
    refine List.forall_mem_cons.2 ⟨hkeyword.admitted, List.forall_mem_append.2
      ⟨Expr.Grammatical.admitted condition hcondition, List.forall_mem_cons.2
        ⟨Token.admitted_fixed (by decide), List.forall_mem_append.2
          ⟨Block.Grammatical.admitted body hbody, List.forall_mem_append.2
            ⟨ElseIfs.Grammatical.admitted elseIfs helseIfs, admitted_end ?_⟩⟩⟩⟩⟩
    exact Else.Grammatical.admitted otherwise hotherwise
  | loop keyword body slot =>
    exact List.forall_mem_cons.2
      ⟨h.1.admitted, admitted_end (Block.Grammatical.admitted body h.2)⟩
  | forEach keyword item iterable body slot =>
    obtain ⟨hkeyword, hitem, hiterable, hbody⟩ := h
    refine List.forall_mem_cons.2 ⟨hkeyword.admitted, List.forall_mem_cons.2
      ⟨Token.Writes.admitted hitem, List.forall_mem_cons.2 ⟨Token.admitted_fixed (by decide),
        List.forall_mem_append.2 ⟨Expr.Grammatical.admitted iterable hiterable,
          List.forall_mem_cons.2 ⟨Token.admitted_fixed (by decide), admitted_end ?_⟩⟩⟩⟩⟩
    exact Block.Grammatical.admitted body hbody
  | returning keyword value slot =>
    refine List.forall_mem_cons.2 ⟨h.1.admitted, admitted_concat ?_ (by decide)⟩
    cases value with
    | none => simp
    | some e => exact Expr.Grammatical.admitted e (h.2 e rfl)
  | exit keyword slot =>
    exact List.forall_mem_cons.2 ⟨Token.Writes.admitted h, by
      simpa using Token.admitted_fixed (by decide)⟩

theorem Block.Grammatical.admitted (b : Block) (h : b.Grammatical) :
    ∀ t ∈ b.write, t.Admitted := by
  cases b with | mk statements slot =>
  exact Statement.Grammatical.admitted_all statements h

theorem Statement.Grammatical.admitted_all (ss : List Statement)
    (h : Statement.AllGrammatical ss) : ∀ t ∈ Statement.writeAll ss, t.Admitted := by
  cases ss with
  | nil => simp [Statement.writeAll]
  | cons s ss =>
    exact List.forall_mem_append.2
      ⟨Statement.Grammatical.admitted s h.1, Statement.Grammatical.admitted_all ss h.2⟩

theorem ElseIfs.Grammatical.admitted (b : ElseIfs) (h : b.Grammatical) :
    ∀ t ∈ b.write, t.Admitted := by
  cases b with
  | nil => simp [ElseIfs.write]
  | cons keyword condition body slot rest =>
    obtain ⟨hkeyword, hcondition, hbody, hrest⟩ := h
    refine List.forall_mem_cons.2 ⟨hkeyword.admitted, List.forall_mem_append.2
      ⟨Expr.Grammatical.admitted condition hcondition, List.forall_mem_cons.2
        ⟨Token.admitted_fixed (by decide), ?_⟩⟩⟩
    exact List.forall_mem_append.2
      ⟨Block.Grammatical.admitted body hbody, ElseIfs.Grammatical.admitted rest hrest⟩

theorem Else.Grammatical.admitted (b : Else) (h : b.Grammatical) :
    ∀ t ∈ b.write, t.Admitted := by
  cases b with
  | absent => simp [Else.write]
  | present keyword body slot =>
    exact List.forall_mem_cons.2 ⟨h.1.admitted, Block.Grammatical.admitted body h.2⟩

end

theorem ConstantValue.Grammatical.admitted {v : ConstantValue} (h : v.Grammatical) :
    ∀ t ∈ v.write, t.Admitted := by
  cases v with
  | simple l => exact Literal.Grammatical.admitted h
  | list l => exact h.1.admitted

theorem ConstantDecl.Grammatical.admitted {d : ConstantDecl} (h : d.Grammatical) :
    ∀ t ∈ d.write, t.Admitted :=
  List.forall_mem_cons.2 ⟨h.1.admitted, List.forall_mem_cons.2
    ⟨Token.admitted_fixed (by decide), admitted_concat h.2.admitted (by decide)⟩⟩

theorem ConstantList.Grammatical.admitted {l : ConstantList} (h : l.Grammatical) :
    ∀ t ∈ l.write, t.Admitted :=
  List.forall_mem_cons.2
    ⟨h.keyword.admitted, admitted_flatMap fun d hd => (h.declarations d hd).admitted⟩

theorem TypeExpr.Grammatical.admitted {type : TypeExpr} (h : type.Grammatical) :
    ∀ t ∈ type.write, t.Admitted := by
  cases type with
  | simple token s slot => simpa [TypeExpr.write] using Token.Writes.admitted h
  | list keyword token element slot =>
    simpa [TypeExpr.write] using ⟨h.1.admitted, Token.admitted_fixed (by decide), h.2.admitted⟩
  | void slot => simp [TypeExpr.write]

theorem TypeExpr.Grammatical.admitted_return {type : TypeExpr} (h : type.Grammatical) :
    ∀ t ∈ type.writeReturn, t.Admitted := by
  cases type with
  | void slot => simp [TypeExpr.writeReturn]
  | simple token s slot =>
    exact List.forall_mem_cons.2 ⟨Token.admitted_fixed (by decide), TypeExpr.Grammatical.admitted h⟩
  | list keyword token element slot =>
    exact List.forall_mem_cons.2 ⟨Token.admitted_fixed (by decide), TypeExpr.Grammatical.admitted h⟩

theorem BindingDecl.Grammatical.admitted {d : BindingDecl} (h : d.Grammatical) :
    ∀ t ∈ d.write, t.Admitted := by
  refine List.forall_mem_append.2 ⟨admitted_writeCommas fun w hw => ?_, List.forall_mem_cons.2
    ⟨Token.admitted_fixed (by decide), admitted_concat h.type.admitted (by decide)⟩⟩
  obtain ⟨i, hi, rfl⟩ := List.mem_map.1 hw
  simpa using Token.Writes.admitted (h.names i hi)

theorem VariableList.Grammatical.admitted {l : VariableList} (h : l.Grammatical) :
    ∀ t ∈ l.write, t.Admitted :=
  List.forall_mem_cons.2
    ⟨h.keyword.admitted, admitted_flatMap fun d hd => (h.declarations d hd).admitted⟩

theorem admitted_writeDeclarations {constants : Option ConstantList} {vars : Option VariableList}
    (hconstants : ∀ l ∈ constants, l.Grammatical) (hvars : ∀ l ∈ vars, l.Grammatical) :
    ∀ t ∈ writeDeclarations constants vars, t.Admitted :=
  List.forall_mem_append.2
    ⟨admitted_flatMap fun l hl => (hconstants l (Option.mem_toList.1 hl)).admitted,
      admitted_flatMap fun l hl => (hvars l (Option.mem_toList.1 hl)).admitted⟩

theorem ProcedureDecl.Grammatical.admitted {d : ProcedureDecl} (h : d.Grammatical) :
    ∀ t ∈ d.write, t.Admitted := by
  refine List.forall_mem_cons.2 ⟨h.keyword.admitted, List.forall_mem_cons.2 ⟨h.name.admitted,
    List.forall_mem_cons.2 ⟨Token.admitted_fixed (by decide), List.forall_mem_append.2
      ⟨admitted_flatMap fun b hb => (h.parameters b hb).admitted, List.forall_mem_cons.2
        ⟨Token.admitted_fixed (by decide), List.forall_mem_append.2
          ⟨h.returnType.admitted_return, List.forall_mem_cons.2
            ⟨Token.admitted_fixed (by decide), ?_⟩⟩⟩⟩⟩⟩⟩
  exact List.forall_mem_append.2 ⟨admitted_writeDeclarations h.constants h.vars,
    List.forall_mem_cons.2 ⟨Token.admitted_fixed (by decide),
      admitted_end (Block.Grammatical.admitted d.body h.body)⟩⟩

theorem Program.Grammatical.admitted {p : Program} (h : p.Grammatical) :
    ∀ t ∈ p.write, t.Admitted :=
  List.forall_mem_append.2 ⟨admitted_writeDeclarations h.constants h.vars,
    List.forall_mem_append.2 ⟨admitted_flatMap fun d hd => (h.procedures d hd).admitted,
      List.forall_mem_cons.2 ⟨h.keyword.admitted,
        admitted_end (Block.Grammatical.admitted p.statements h.statements)⟩⟩⟩

end TeachLang
