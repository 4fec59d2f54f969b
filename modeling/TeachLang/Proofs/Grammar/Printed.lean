import TeachLang.Proofs.Grammar.Written
import TeachLang.Proofs.Tree.Map
import TeachLang.Proofs.Tree.Print

/-! # Printed trees are written

The row of tokens that a grammatical tree is printed as writes the tree, with its type
slots empty: parentheses stand wherever the rank of an operand asks for them.
-/

namespace TeachLang

namespace Rank

def tightness : Rank → Nat
  | level l => l.tightness
  | unary => 4
  | primary => 5
  | atom => 6

def operand : Rank → Rank
  | level l => l.operand
  | unary => .primary
  | primary => .atom
  | atom => .atom

theorem tightness_operand {r : Rank} (h : r ≠ .atom) : r.operand.tightness = r.tightness + 1 := by
  cases r with
  | level l => cases l <;> rfl
  | unary => rfl
  | primary => rfl
  | atom => exact absurd rfl h

theorem tightness_le (r : Rank) : r.tightness ≤ 6 := by
  cases r with
  | level l => cases l <;> decide
  | _ => decide

theorem eq_of_tightness_eq {r r' : Rank} (h : r.tightness = r'.tightness) : r = r' := by
  cases r with
  | level l =>
    cases r' with
    | level l' => cases l <;> cases l' <;> first | rfl | cases h
    | _ => cases l <;> cases h
  | _ =>
    cases r' with
    | level l' => cases l' <;> cases h
    | _ => first | rfl | cases h

end Rank

theorem Level.tightness_operand (l : Level) : l.operand.tightness = l.tightness + 1 := by
  cases l <;> rfl

def Expr.rank : Expr → Rank
  | binary op _ _ _ _ => .level op.level
  | unary _ _ _ _ => .unary
  | index _ _ _ _ => .primary
  | _ => .atom

theorem Expr.tightness_rank (e : Expr) : e.rank.tightness = e.tightness := by
  cases e <;> rfl

namespace Expr.Layer

variable {E : Writing Expr} {r r' : Rank} {w : List Token} {e : Expr}

theorem relax (h : Expr.Layer E r.operand w e) : Expr.Layer E r w e := by
  cases r with
  | level l => exact .operand h
  | unary => exact .primary h
  | primary => exact .atom h
  | atom => exact h

/-- An expression has every rank that binds less tightly. -/
theorem loosen (h : Expr.Layer E r w e) (hr : r'.tightness ≤ r.tightness) :
    Expr.Layer E r' w e := by
  obtain ⟨n, hn⟩ := Nat.exists_eq_add_of_le hr
  clear hr
  induction n generalizing r' with
  | zero =>
    rw [← Rank.eq_of_tightness_eq hn]
    exact h
  | succ n ih =>
    have hatom : r' ≠ .atom := by
      rintro rfl
      have hle := r.tightness_le
      change r.tightness = 6 + (n + 1) at hn
      omega
    refine relax (ih ?_)
    rw [Rank.tightness_operand hatom]
    omega

theorem parenthesized (h : Expr.Layer Expr.Written r w e) {needed : Bool}
    (hr : needed = false → r'.tightness ≤ r.tightness) :
    Expr.Layer Expr.Written r' (writeParentheses needed w) e := by
  cases needed with
  | false => exact h.loosen (hr rfl)
  | true =>
    have hwhole : e.Written w := .mk (h.loosen (Nat.zero_le _))
    exact (Expr.Layer.parentheses rfl hwhole rfl).loosen r'.tightness_le

end Expr.Layer

section

variable {α β : Type} {R : Writing β} {write : α → List Token} {f : α → β} {as : List α}

theorem repeated_flatMap (h : ∀ a ∈ as, R (write a) (f a)) :
    Repeated R (as.flatMap write) (as.map f) := by
  induction as with
  | nil => exact .nil
  | cons a as ih =>
    obtain ⟨ha, has⟩ := List.forall_mem_cons.1 h
    exact .cons ha (ih has)

theorem separated_writeCommas (h : ∀ a ∈ as, R (write a) (f a)) :
    Separated R (writeCommas (as.map write)) (as.map f) := by
  cases as with
  | nil => exact .nil
  | cons a as =>
    obtain ⟨ha, has⟩ := List.forall_mem_cons.1 h
    rw [List.map_cons, writeCommas, List.flatMap_map]
    exact .cons ha (repeated_flatMap fun b hb => .mk rfl (has b hb))

theorem optional_flatMap {o : Option α} (h : ∀ a ∈ o, R (write a) (f a)) :
    Optional R (o.toList.flatMap write) (o.map f) := by
  cases o with
  | none => exact .none
  | some a =>
    rw [Option.toList_some, List.flatMap_singleton]
    exact .some (h a rfl)

end

theorem Literal.Grammatical.written {l : Literal} (h : l.Grammatical) :
    (l.map id Slot.cleared).Written l.write := by
  obtain ⟨⟨kind, hmem, hwrites⟩, hvalue⟩ := h
  rw [← hwrites.1] at hmem
  rw [Literal.map, hvalue]
  exact .mk hmem hwrites.isLegible

theorem ListLiteral.Grammatical.written {l : ListLiteral} (h : l.Grammatical) :
    (l.map id Slot.cleared).Written l.write := by
  obtain ⟨⟨kind, hmem, hkind, -⟩, helements⟩ := h
  rw [← hkind] at hmem
  exact .mk hmem (separated_writeCommas fun e he => (helements e he).written) rfl

theorem Expr.writeAll_eq_map (es : List Expr) : Expr.writeAll es = es.map (·.write) := by
  induction es with
  | nil => rfl
  | cons e es ih => rw [writeAll, ih, List.map_cons]

theorem Expr.arguments_write {args : List Expr}
    (h : ∀ e ∈ args, (e.map id Slot.cleared).Written e.write) :
    Expr.Arguments Expr.Written (Expr.writeArgs args) (Expr.mapAll id Slot.cleared args) := by
  rw [writeArgs, writeAll_eq_map, mapAll_eq_map]
  exact .mk rfl (separated_writeCommas h) rfl

mutual

theorem Expr.Grammatical.layer (e : Expr) (h : e.Grammatical) :
    Expr.Layer Expr.Written e.rank e.write (e.map id Slot.cleared) := by
  cases e with
  | name i => exact .name h.1
  | call callee args slot =>
    exact .call h.1.1 (Expr.arguments_write (Expr.Grammatical.all args h.2))
  | index target opening position slot =>
    have htarget := Expr.Grammatical.layer target h.1
    have hposition := Expr.Grammatical.written position h.2.2
    refine .index (htarget.parenthesized fun hneeded => ?_) h.2.1.1 hposition rfl
    have hle := of_decide_eq_false hneeded
    rw [Expr.tightness_rank]
    simp only [Rank.tightness]
    omega
  | literal l => exact .literal (Literal.Grammatical.written h)
  | list l => exact .list (ListLiteral.Grammatical.written h)
  | binary op symbol lhs rhs slot =>
    have hlhs := Expr.Grammatical.layer lhs h.2.1
    have hrhs := Expr.Grammatical.layer rhs h.2.2
    refine .binary (hlhs.parenthesized fun hneeded => ?_) h.1.1
      (hrhs.parenthesized fun hneeded => ?_)
    · have hle := of_decide_eq_false hneeded
      rw [Expr.tightness_rank]
      simp only [Rank.tightness]
      omega
    · have hlt := of_decide_eq_false hneeded
      rw [Expr.tightness_rank, Level.tightness_operand]
      omega
  | unary op symbol operand slot =>
    have hoperand := Expr.Grammatical.layer operand h.2
    refine .unary h.1.1 (hoperand.parenthesized fun hneeded => ?_)
    have hle := of_decide_eq_false hneeded
    rw [Expr.tightness_rank]
    simp only [Rank.tightness]
    omega

theorem Expr.Grammatical.written (e : Expr) (h : e.Grammatical) :
    (e.map id Slot.cleared).Written e.write :=
  .mk ((Expr.Grammatical.layer e h).loosen (Nat.zero_le _))

theorem Expr.Grammatical.all (es : List Expr) (h : Expr.AllGrammatical es) :
    ∀ e ∈ es, (e.map id Slot.cleared).Written e.write := by
  cases es with
  | nil => simp
  | cons e es =>
    exact List.forall_mem_cons.2 ⟨Expr.Grammatical.written e h.1, Expr.Grammatical.all es h.2⟩

end

theorem Target.Grammatical.written {target : Target} (h : target.Grammatical) :
    (target.map id Slot.cleared).Written target.write := by
  cases target with
  | name i => exact .name h.1
  | element base opening position slot =>
    obtain ⟨⟨i, rfl⟩, hi, hopening, hposition⟩ := h
    exact .element hi.1 hopening.1 (Expr.Grammatical.written position hposition) rfl

/-- A statement with its semicolon, from one without. -/
theorem Statement.Layer.written {s : Statement} {v w : List Token}
    (h : Statement.Layer Block.Written v s) (hw : w = v ++ [.fixed .semicolon]) : s.Written w := by
  rw [hw]
  exact .mk h rfl

mutual

theorem Statement.Grammatical.written (s : Statement) (h : s.Grammatical) :
    (s.map id Slot.cleared).Written s.write := by
  cases s with
  | assignment target symbol value slot =>
    have hlayer : Statement.Layer Block.Written _ _ := .assignment
      (Target.Grammatical.written h.1) h.2.1.1 (Expr.Grammatical.written value h.2.2)
    exact hlayer.written (by simp [Statement.write])
  | call callee args slot =>
    have hargs := Expr.arguments_write (Expr.Grammatical.all args h.2)
    exact (Statement.Layer.call h.1.1 hargs).written rfl
  | conditional keyword condition body elseIfs elseIfsSlot otherwise slot =>
    obtain ⟨hkeyword, hcondition, hbody, helseIfs, hotherwise⟩ := h
    have hlayer := Statement.Layer.conditional hkeyword.1
      (Expr.Grammatical.written condition hcondition) (Token.kind_fixed .kwThen)
      (Block.Grammatical.written body hbody) (ElseIfs.Grammatical.layer elseIfs helseIfs)
      (Else.Grammatical.layer otherwise hotherwise) (Token.kind_fixed .kwEnd)
    exact hlayer.written (by simp [Statement.write])
  | loop keyword body slot =>
    have hlayer := Statement.Layer.loop h.1.1 (Block.Grammatical.written body h.2)
      (Token.kind_fixed .kwEnd)
    exact hlayer.written (by simp [Statement.write])
  | forEach keyword item iterable body slot =>
    obtain ⟨hkeyword, hitem, hiterable, hbody⟩ := h
    have hlayer := Statement.Layer.forEach hkeyword.1 hitem.1 (Token.kind_fixed .kwIn)
      (Expr.Grammatical.written iterable hiterable) (Token.kind_fixed .kwDo)
      (Block.Grammatical.written body hbody) (Token.kind_fixed .kwEnd)
    exact hlayer.written (by simp [Statement.write])
  | returning keyword value slot =>
    have hvalue : Optional Expr.Written ((value.map (·.write)).getD [])
        (value.map (·.map id Slot.cleared)) := by
      cases value with
      | none => exact .none
      | some e => exact .some (Expr.Grammatical.written e (h.2 e rfl))
    exact (Statement.Layer.returning h.1.1 hvalue).written rfl
  | exit keyword slot => exact (Statement.Layer.exit h.1).written rfl

theorem Block.Grammatical.written (b : Block) (h : b.Grammatical) :
    (b.map id Slot.cleared).Written b.write := by
  cases b with | mk statements slot =>
  exact .mk (Statement.Grammatical.all statements h)

theorem Statement.Grammatical.all (ss : List Statement) (h : Statement.AllGrammatical ss) :
    Repeated Statement.Written (Statement.writeAll ss) (Statement.mapAll id Slot.cleared ss) := by
  cases ss with
  | nil => exact .nil
  | cons s ss =>
    exact .cons (Statement.Grammatical.written s h.1) (Statement.Grammatical.all ss h.2)

theorem ElseIfs.Grammatical.layer (b : ElseIfs) (h : b.Grammatical) :
    ElseIfs.Layer Block.Written b.write (b.map id Slot.cleared) := by
  cases b with
  | nil => exact .nil
  | cons keyword condition body slot rest =>
    obtain ⟨hkeyword, hcondition, hbody, hrest⟩ := h
    exact .cons hkeyword.1 (Expr.Grammatical.written condition hcondition) rfl
      (Block.Grammatical.written body hbody) (ElseIfs.Grammatical.layer rest hrest)

theorem Else.Grammatical.layer (b : Else) (h : b.Grammatical) :
    Else.Layer Block.Written b.write (b.map id Slot.cleared) := by
  cases b with
  | absent => exact .absent
  | present keyword body slot => exact .present h.1.1 (Block.Grammatical.written body h.2)

end

theorem closed_written {α : Type} {R : Writing α} {a : α} {v w : List Token} (h : R v a)
    (hw : w = v ++ [.fixed .semicolon]) : Closed R w a := by
  rw [hw]
  exact .mk h rfl

theorem ConstantValue.Grammatical.written {v : ConstantValue} (h : v.Grammatical) :
    (v.map id Slot.cleared).Written v.write := by
  cases v with
  | simple l => exact .simple (Literal.Grammatical.written h)
  | list l => exact .list (ListLiteral.Grammatical.written h.1) h.2

theorem ConstantDecl.Grammatical.written {d : ConstantDecl} (h : d.Grammatical) :
    Closed ConstantDecl.Body d.write (d.map id Slot.cleared) :=
  closed_written (.mk h.1.1 (Token.kind_fixed .colonEqual) h.2.written) rfl

theorem ConstantList.Grammatical.written {l : ConstantList} (h : l.Grammatical) :
    (l.map id Slot.cleared).Written l.write := by
  obtain ⟨keyword, declarations, slot⟩ := l
  obtain ⟨hkeyword, hnonempty, hall⟩ := h
  cases declarations with
  | nil => exact absurd rfl hnonempty
  | cons d ds =>
    obtain ⟨hd, hds⟩ := List.forall_mem_cons.1 hall
    exact .mk hkeyword.1 hd.written (repeated_flatMap fun d' hd' => (hds d' hd').written)

theorem TypeExpr.Grammatical.written {type : TypeExpr} (h : type.Grammatical)
    (hwritten : type.IsWritten) : (type.map id Slot.cleared).Written type.write := by
  cases type with
  | simple token s slot => exact .simple h.1
  | list keyword token element slot => exact .list h.1.1 (Token.kind_fixed .kwOf) h.2.1
  | void slot => exact hwritten.elim

theorem TypeExpr.Grammatical.returnWritten {type : TypeExpr} (h : type.Grammatical) :
    (type.map id Slot.cleared).ReturnWritten type.writeReturn := by
  cases type with
  | void slot => exact .none
  | _ => exact .some (.mk (Token.kind_fixed .colon) (TypeExpr.Grammatical.written h trivial))

theorem BindingDecl.Grammatical.closed {d : BindingDecl} (h : d.Grammatical) :
    Closed BindingDecl.Body d.write (d.map id Slot.cleared) := by
  obtain ⟨names, type, slot⟩ := d
  obtain ⟨hnonempty, hnames, htype, hwritten⟩ := h
  cases names with
  | nil => exact absurd rfl hnonempty
  | cons i is =>
    obtain ⟨hi, his⟩ := List.forall_mem_cons.1 hnames
    have htail : Repeated (After .comma Identifier.Written)
        (is.flatMap fun i => [.fixed .comma, i.token]) (is.map (·.map id Slot.cleared)) :=
      repeated_flatMap fun j hj => .mk (Token.kind_fixed .comma) (.mk (his j hj).1)
    refine closed_written
      (.mk (.mk hi.1) htail (Token.kind_fixed .colon) (htype.written hwritten)) ?_
    simp [BindingDecl.write, writeCommas, List.flatMap_map]

theorem VariableList.Grammatical.written {l : VariableList} (h : l.Grammatical) :
    (l.map id Slot.cleared).Written l.write := by
  obtain ⟨keyword, declarations, slot⟩ := l
  obtain ⟨hkeyword, hnonempty, hall⟩ := h
  cases declarations with
  | nil => exact absurd rfl hnonempty
  | cons d ds =>
    obtain ⟨hd, hds⟩ := List.forall_mem_cons.1 hall
    exact .mk hkeyword.1 hd.closed (repeated_flatMap fun d' hd' => (hds d' hd').closed)

theorem ProcedureDecl.Grammatical.written {d : ProcedureDecl} (h : d.Grammatical) :
    Closed ProcedureDecl.Body d.write (d.map id Slot.cleared) := by
  have hbody : ProcedureDecl.Body _ (d.map id Slot.cleared) := .mk h.keyword.1 h.name.1
    (Token.kind_fixed .parenthesisOpen)
    (repeated_flatMap fun b hb => (h.parameters b hb).closed)
    (Token.kind_fixed .parenthesisClose) h.returnType.returnWritten
    (Token.kind_fixed .semicolon) (optional_flatMap fun l hl => (h.constants l hl).written)
    (optional_flatMap fun l hl => (h.vars l hl).written) (Token.kind_fixed .kwBegin)
    (Block.Grammatical.written d.body h.body) (Token.kind_fixed .kwEnd)
  exact closed_written hbody (by simp [ProcedureDecl.write, writeDeclarations])

/-- The tokens that a grammatical program is printed as write it before any check. -/
theorem Program.Grammatical.written {p : Program} (h : p.Grammatical) :
    p.untyped.Written (p.write ++ [.fixed .eof]) := by
  have hwritten : p.untyped.Written _ := .mk
    (optional_flatMap fun l hl => (h.constants l hl).written)
    (optional_flatMap fun l hl => (h.vars l hl).written)
    (repeated_flatMap fun d hd => (h.procedures d hd).written) h.keyword.1
    (Block.Grammatical.written p.statements h.statements) (Token.kind_fixed .kwEnd)
    (Token.kind_fixed .semicolon) (Token.kind_fixed .eof)
  simpa [Program.write, writeDeclarations] using hwritten

end TeachLang
