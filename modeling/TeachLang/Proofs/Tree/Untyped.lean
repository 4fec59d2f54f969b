import TeachLang.Proofs.Tree.Grammatical
import TeachLang.Proofs.Tree.Map

/-! # Grammatical trees with other slots

What the grammar can write does not depend on type slots, so that a tree stays grammatical when
a check fills them.
-/

namespace TeachLang

section

variable (s : Slot → Slot)

theorem Identifier.grammatical_map (i : Identifier) : (i.map id s).Grammatical ↔ i.Grammatical :=
  .rfl

theorem Literal.grammatical_map (l : Literal) : (l.map id s).Grammatical ↔ l.Grammatical := .rfl

theorem ListLiteral.grammatical_map (l : ListLiteral) :
    (l.map id s).Grammatical ↔ l.Grammatical := by
  simp [Grammatical, map, Literal.grammatical_map]

mutual

theorem Expr.grammatical_map (e : Expr) : (e.map id s).Grammatical ↔ e.Grammatical := by
  cases e with
  | name i => rfl
  | call callee args slot => simp [Expr.map, Expr.Grammatical, Expr.allGrammatical_mapAll args]
  | index target opening position slot =>
    simp [Expr.map, Expr.Grammatical, Expr.grammatical_map target, Expr.grammatical_map position]
  | literal l => rfl
  | list l => exact l.grammatical_map s
  | binary op symbol lhs rhs slot =>
    simp [Expr.map, Expr.Grammatical, Expr.grammatical_map lhs, Expr.grammatical_map rhs]
  | unary op symbol operand slot =>
    simp [Expr.map, Expr.Grammatical, Expr.grammatical_map operand]

theorem Expr.allGrammatical_mapAll (es : List Expr) :
    Expr.AllGrammatical (Expr.mapAll id s es) ↔ Expr.AllGrammatical es := by
  cases es with
  | nil => rfl
  | cons e es =>
    simp [Expr.mapAll, Expr.AllGrammatical, Expr.grammatical_map e, Expr.allGrammatical_mapAll es]

end

theorem Expr.isName_map (e : Expr) : (e.map id s).IsName ↔ e.IsName := by
  cases e <;> simp [map, IsName]

theorem Target.grammatical_map (target : Target) :
    (target.map id s).Grammatical ↔ target.Grammatical := by
  cases target with
  | name i => rfl
  | element base opening position slot =>
    simp [map, Grammatical, Expr.isName_map, Expr.grammatical_map]

mutual

theorem Statement.grammatical_map (t : Statement) :
    (t.map id s).Grammatical ↔ t.Grammatical := by
  cases t with
  | assignment target symbol value slot =>
    simp [Statement.map, Statement.Grammatical, Target.grammatical_map, Expr.grammatical_map]
  | call callee args slot =>
    simp [Statement.map, Statement.Grammatical, Expr.allGrammatical_mapAll]
  | conditional keyword condition body elseIfs elseIfsSlot otherwise slot =>
    simp [Statement.map, Statement.Grammatical, Expr.grammatical_map, Block.grammatical_map body,
      ElseIfs.grammatical_map elseIfs, Else.grammatical_map otherwise]
  | loop keyword body slot =>
    simp [Statement.map, Statement.Grammatical, Block.grammatical_map body]
  | forEach keyword item iterable body slot =>
    simp [Statement.map, Statement.Grammatical, Identifier.grammatical_map, Expr.grammatical_map,
      Block.grammatical_map body]
  | returning keyword value slot =>
    cases value <;> simp [Statement.map, Statement.Grammatical, Expr.grammatical_map]
  | exit keyword slot => rfl

theorem Block.grammatical_map (b : Block) : (b.map id s).Grammatical ↔ b.Grammatical := by
  cases b with
  | mk statements slot => exact Statement.allGrammatical_mapAll statements

theorem Statement.allGrammatical_mapAll (ts : List Statement) :
    Statement.AllGrammatical (Statement.mapAll id s ts) ↔ Statement.AllGrammatical ts := by
  cases ts with
  | nil => rfl
  | cons t ts =>
    simp [Statement.mapAll, Statement.AllGrammatical, Statement.grammatical_map t,
      Statement.allGrammatical_mapAll ts]

theorem ElseIfs.grammatical_map (b : ElseIfs) : (b.map id s).Grammatical ↔ b.Grammatical := by
  cases b with
  | nil => rfl
  | cons keyword condition body slot rest =>
    simp [ElseIfs.map, ElseIfs.Grammatical, Expr.grammatical_map, Block.grammatical_map body,
      ElseIfs.grammatical_map rest]

theorem Else.grammatical_map (b : Else) : (b.map id s).Grammatical ↔ b.Grammatical := by
  cases b with
  | absent => rfl
  | present keyword body slot =>
    simp [Else.map, Else.Grammatical, Block.grammatical_map body]

end

end

section

variable {s : Slot → Slot}

theorem TypeExpr.Grammatical.of_map {e : TypeExpr} (h : (e.map id s).Grammatical) :
    e.Grammatical := by cases e <;> exact h

theorem TypeExpr.IsWritten.of_map {e : TypeExpr} (h : (e.map id s).IsWritten) : e.IsWritten := by
  cases e <;> exact h

theorem ConstantDecl.Grammatical.of_map {d : ConstantDecl} (h : (d.map id s).Grammatical) :
    d.Grammatical := by
  obtain ⟨hname, hvalue⟩ := h
  refine ⟨hname, ?_⟩
  cases heq : d.value with
  | simple l =>
    rw [map, heq] at hvalue
    exact hvalue
  | list l =>
    rw [map, heq] at hvalue
    exact ⟨(l.grammatical_map s).1 hvalue.1, hvalue.2⟩

theorem ConstantList.Grammatical.of_map {l : ConstantList} (h : (l.map id s).Grammatical) :
    l.Grammatical where
  keyword := h.keyword
  nonempty := by simpa [map] using h.nonempty
  declarations d hd := .of_map (h.declarations (d.map id s) (List.mem_map_of_mem hd))

theorem BindingDecl.Grammatical.of_map {d : BindingDecl} (h : (d.map id s).Grammatical) :
    d.Grammatical where
  nonempty := by simpa [map] using h.nonempty
  names i hi := h.names (i.map id s) (List.mem_map_of_mem hi)
  type := .of_map h.type
  written := .of_map h.written

theorem VariableList.Grammatical.of_map {l : VariableList} (h : (l.map id s).Grammatical) :
    l.Grammatical where
  keyword := h.keyword
  nonempty := by simpa [map] using h.nonempty
  declarations d hd := .of_map (h.declarations (d.map id s) (List.mem_map_of_mem hd))

theorem ProcedureDecl.Grammatical.of_map {d : ProcedureDecl} (h : (d.map id s).Grammatical) :
    d.Grammatical where
  keyword := h.keyword
  name := h.name
  parameters b hb := .of_map (h.parameters (b.map id s) (List.mem_map_of_mem hb))
  returnType := .of_map h.returnType
  constants l hl := .of_map (h.constants (l.map id s) (Option.mem_map_of_mem _ hl))
  vars l hl := .of_map (h.vars (l.map id s) (Option.mem_map_of_mem _ hl))
  body := (d.body.grammatical_map s).1 h.body

theorem Program.Grammatical.of_map {p : Program} (h : (p.map id s).Grammatical) :
    p.Grammatical where
  keyword := h.keyword
  constants l hl := .of_map (h.constants (l.map id s) (Option.mem_map_of_mem _ hl))
  vars l hl := .of_map (h.vars (l.map id s) (Option.mem_map_of_mem _ hl))
  procedures d hd := .of_map (h.procedures (d.map id s) (List.mem_map_of_mem hd))
  statements := (p.statements.grammatical_map s).1 h.statements

end

end TeachLang
