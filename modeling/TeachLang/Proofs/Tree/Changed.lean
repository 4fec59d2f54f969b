import TeachLang.Proofs.Tree.Map
import TeachLang.Proofs.Tree.Print

/-! # Rows of changed trees

A change of tokens that keeps their kinds and leaves the punctuation alone can be made in a tree or
in the row of tokens that the tree is written as: parentheses stand at the same places.
-/

namespace TeachLang

/-- A change of tokens that keeps kinds, and the tokens that are written between those of a tree. -/
structure KeepsPunctuation (g : Token → Token) : Prop where
  kind : ∀ t, (g t).kind = t.kind
  fixed : ∀ {kind}, kind ≠ .identifier → g (.fixed kind) = .fixed kind

section

variable {g : Token → Token} {s : Slot → Slot}

theorem Expr.tightness_map (g : Token → Token) (s : Slot → Slot) (e : Expr) :
    (e.map g s).tightness = e.tightness := by
  cases e <;> rfl

theorem writeCommas_map (hg : KeepsPunctuation g) (ws : List (List Token)) :
    writeCommas (ws.map (List.map g)) = (writeCommas ws).map g := by
  cases ws with
  | nil => rfl
  | cons w ws => simp [writeCommas, List.map_flatMap, List.flatMap_map, hg.fixed]

theorem writeParentheses_map (hg : KeepsPunctuation g) (needed : Bool) (w : List Token) :
    writeParentheses needed (w.map g) = (writeParentheses needed w).map g := by
  cases needed <;> simp [writeParentheses, hg.fixed]

theorem ListLiteral.write_map (hg : KeepsPunctuation g) (l : ListLiteral) :
    (l.map g s).write = l.write.map g := by
  have hclosing : Grammar.closing l.opening.kind ≠ .identifier := by
    unfold Grammar.closing
    split <;> decide
  have helements := writeCommas_map hg (l.elements.map Literal.write)
  rw [List.map_map] at helements
  simp only [write, map, List.map_cons, List.map_append, List.map_map, hg.kind, hg.fixed hclosing,
    List.map_nil]
  rw [← helements]
  rfl

mutual

theorem Expr.write_map (hg : KeepsPunctuation g) (e : Expr) :
    (e.map g s).write = e.write.map g := by
  cases e with
  | name i => rfl
  | call callee args slot =>
    simp [Expr.map, Expr.write, Expr.writeAll_map hg args, writeCommas_map hg, hg.fixed]
  | index target opening position slot =>
    simp [Expr.map, Expr.write, Expr.write_map hg target, Expr.write_map hg position,
      writeParentheses_map hg, tightness_map, hg.fixed]
  | literal l => rfl
  | list l => exact l.write_map hg
  | binary op symbol lhs rhs slot =>
    simp [Expr.map, Expr.write, Expr.write_map hg lhs, Expr.write_map hg rhs,
      writeParentheses_map hg, tightness_map]
  | unary op symbol operand slot =>
    simp [Expr.map, Expr.write, Expr.write_map hg operand, writeParentheses_map hg, tightness_map]

theorem Expr.writeAll_map (hg : KeepsPunctuation g) (es : List Expr) :
    Expr.writeAll (Expr.mapAll g s es) = (Expr.writeAll es).map (List.map g) := by
  cases es with
  | nil => rfl
  | cons e es => simp [Expr.mapAll, Expr.writeAll, Expr.write_map hg e, Expr.writeAll_map hg es]

end

theorem Expr.writeArgs_map (hg : KeepsPunctuation g) (es : List Expr) :
    Expr.writeArgs (Expr.mapAll g s es) = (Expr.writeArgs es).map g := by
  simp [writeArgs, writeAll_map hg, writeCommas_map hg, hg.fixed]

theorem Target.write_map (hg : KeepsPunctuation g) (target : Target) :
    (target.map g s).write = target.write.map g := by
  cases target with
  | name i => rfl
  | element base opening position slot =>
    simp [map, write, Expr.write_map hg, writeParentheses_map hg, Expr.tightness_map, hg.fixed]

mutual

theorem Statement.write_map (hg : KeepsPunctuation g) (t : Statement) :
    (t.map g s).write = t.write.map g := by
  cases t with
  | assignment target symbol value slot =>
    simp [Statement.map, Statement.write, Target.write_map hg, Expr.write_map hg, hg.fixed]
  | call callee args slot =>
    simp [Statement.map, Statement.write, Expr.writeArgs_map hg, hg.fixed]
  | conditional keyword condition body elseIfs elseIfsSlot otherwise slot =>
    simp [Statement.map, Statement.write, Expr.write_map hg, Block.write_map hg body,
      ElseIfs.write_map hg elseIfs, Else.write_map hg otherwise, hg.fixed]
  | loop keyword body slot =>
    simp [Statement.map, Statement.write, Block.write_map hg body, hg.fixed]
  | forEach keyword item iterable body slot =>
    simp [Statement.map, Statement.write, Identifier.map, Expr.write_map hg,
      Block.write_map hg body, hg.fixed]
  | returning keyword value slot =>
    cases value <;> simp [Statement.map, Statement.write, Expr.write_map hg, hg.fixed]
  | exit keyword slot => simp [Statement.map, Statement.write, hg.fixed]

theorem Block.write_map (hg : KeepsPunctuation g) (b : Block) :
    (b.map g s).write = b.write.map g := by
  cases b with
  | mk statements slot => exact Statement.writeAll_map hg statements

theorem Statement.writeAll_map (hg : KeepsPunctuation g) (ts : List Statement) :
    Statement.writeAll (Statement.mapAll g s ts) = (Statement.writeAll ts).map g := by
  cases ts with
  | nil => rfl
  | cons t ts =>
    simp [Statement.mapAll, Statement.writeAll, Statement.write_map hg t,
      Statement.writeAll_map hg ts]

theorem ElseIfs.write_map (hg : KeepsPunctuation g) (b : ElseIfs) :
    (b.map g s).write = b.write.map g := by
  cases b with
  | nil => rfl
  | cons keyword condition body slot rest =>
    simp [ElseIfs.map, ElseIfs.write, Expr.write_map hg, Block.write_map hg body,
      ElseIfs.write_map hg rest, hg.fixed]

theorem Else.write_map (hg : KeepsPunctuation g) (b : Else) :
    (b.map g s).write = b.write.map g := by
  cases b with
  | absent => rfl
  | present keyword body slot => simp [Else.map, Else.write, Block.write_map hg body]

end

theorem TypeExpr.write_map (hg : KeepsPunctuation g) (e : TypeExpr) :
    (e.map g s).write = e.write.map g := by
  cases e <;> simp [map, write, hg.fixed]

theorem TypeExpr.writeReturn_map (hg : KeepsPunctuation g) (e : TypeExpr) :
    (e.map g s).writeReturn = e.writeReturn.map g := by
  cases e <;> simp [map, writeReturn, write, hg.fixed]

theorem ConstantValue.write_map (hg : KeepsPunctuation g) (v : ConstantValue) :
    (v.map g s).write = v.write.map g := by
  cases v with
  | simple l => rfl
  | list l => exact l.write_map hg

theorem ConstantDecl.write_map (hg : KeepsPunctuation g) (d : ConstantDecl) :
    (d.map g s).write = d.write.map g := by
  simp [map, write, ConstantValue.write_map hg, hg.fixed]

theorem ConstantList.write_map (hg : KeepsPunctuation g) (l : ConstantList) :
    (l.map g s).write = l.write.map g := by
  simp [map, write, List.flatMap_map, List.map_flatMap, ConstantDecl.write_map hg]

theorem BindingDecl.write_map (hg : KeepsPunctuation g) (d : BindingDecl) :
    (d.map g s).write = d.write.map g := by
  have hnames := writeCommas_map hg (d.names.map fun i => [i.token])
  rw [List.map_map] at hnames
  simp only [map, write, List.map_append, List.map_cons, List.map_map, TypeExpr.write_map hg,
    hg.fixed, List.map_nil, ne_eq, reduceCtorEq, not_false_eq_true, ← hnames]
  rfl

theorem VariableList.write_map (hg : KeepsPunctuation g) (l : VariableList) :
    (l.map g s).write = l.write.map g := by
  simp [map, write, List.flatMap_map, List.map_flatMap, BindingDecl.write_map hg]

theorem writeDeclarations_map (hg : KeepsPunctuation g) (constants : Option ConstantList)
    (vars : Option VariableList) :
    writeDeclarations (constants.map (·.map g s)) (vars.map (·.map g s)) =
      (writeDeclarations constants vars).map g := by
  cases constants <;> cases vars <;>
    simp [writeDeclarations, ConstantList.write_map hg, VariableList.write_map hg]

theorem ProcedureDecl.write_map (hg : KeepsPunctuation g) (d : ProcedureDecl) :
    (d.map g s).write = d.write.map g := by
  simp [map, write, ParameterList.map, List.flatMap_map, List.map_flatMap, BindingDecl.write_map hg,
    TypeExpr.writeReturn_map hg, writeDeclarations_map hg, Block.write_map hg, hg.fixed]

theorem Program.write_map (hg : KeepsPunctuation g) (p : Program) :
    (p.map g s).write = p.write.map g := by
  simp [map, write, ProcedureList.map, List.flatMap_map, List.map_flatMap,
    ProcedureDecl.write_map hg, writeDeclarations_map hg, Block.write_map hg, hg.fixed]

end
end TeachLang
