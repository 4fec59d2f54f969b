import TeachLang.Proofs.Slots.BottomUp.Node
import TeachLang.Proofs.Tree.Map

/-! # Trees without types

A tree whose slots are all empty is bottom up: no node has a type that its parts could lack.
-/

namespace TeachLang

open Node

theorem ListLiteral.bottomUp_cleared (l : ListLiteral) :
    (l.map id Slot.cleared).toNode.BottomUp := by
  have helement (e : Literal) : (e.map id Slot.cleared).toNode.BottomUp := by
    simp [Literal.map, Literal.toNode, Slot.cleared]
  simp [ListLiteral.map, toNode, Slot.cleared, AllBottomUp, helement]

mutual

theorem Expr.bottomUp_cleared (e : Expr) : (e.map id Slot.cleared).toNode.BottomUp := by
  cases e with
  | name i => simp [Expr.map, Expr.toNode, Identifier.map, Identifier.toNode, Slot.cleared]
  | call callee args slot =>
    simpa [Expr.map, Expr.toNode, Slot.cleared] using Expr.allBottomUp_cleared args
  | index target opening position slot =>
    simp [Expr.map, Expr.toNode, Slot.cleared, Expr.bottomUp_cleared target,
      Expr.bottomUp_cleared position]
  | literal l => simp [Expr.map, Expr.toNode, Literal.map, Literal.toNode, Slot.cleared]
  | list l => exact l.bottomUp_cleared
  | binary op symbol lhs rhs slot =>
    simp [Expr.map, Expr.toNode, Slot.cleared, Expr.bottomUp_cleared lhs,
      Expr.bottomUp_cleared rhs]
  | unary op symbol operand slot =>
    simp [Expr.map, Expr.toNode, Slot.cleared, Expr.bottomUp_cleared operand]

theorem Expr.allBottomUp_cleared (es : List Expr) :
    AllBottomUp (Expr.toNodes (Expr.mapAll id Slot.cleared es)) := by
  cases es with
  | nil => exact allBottomUp_nil
  | cons e es =>
    simpa [Expr.mapAll, Expr.toNodes] using
      ⟨Expr.bottomUp_cleared e, Expr.allBottomUp_cleared es⟩

end

theorem Target.bottomUp_cleared (target : Target) :
    (target.map id Slot.cleared).toNode.BottomUp := by
  cases target <;>
    simp [map, toNode, Identifier.map, Identifier.toNode, Slot.cleared, Expr.bottomUp_cleared]

mutual

theorem Statement.bottomUp_cleared (s : Statement) :
    (s.map id Slot.cleared).toNode.BottomUp := by
  cases s with
  | assignment target symbol value slot =>
    simp [Statement.map, Statement.toNode, Slot.cleared, Target.bottomUp_cleared,
      Expr.bottomUp_cleared]
  | call callee args slot =>
    simpa [Statement.map, Statement.toNode, Slot.cleared] using Expr.allBottomUp_cleared args
  | conditional keyword condition body elseIfs elseIfsSlot otherwise slot =>
    simp [Statement.map, Statement.toNode, Slot.cleared, Expr.bottomUp_cleared,
      Block.bottomUp_cleared body, ElseIfs.bottomUp_cleared elseIfs,
      Else.bottomUp_cleared otherwise]
  | loop keyword body slot =>
    simp [Statement.map, Statement.toNode, Slot.cleared, Block.bottomUp_cleared body]
  | forEach keyword item iterable body slot =>
    simp [Statement.map, Statement.toNode, Identifier.map, Identifier.toNode, Slot.cleared,
      Expr.bottomUp_cleared, Block.bottomUp_cleared body]
  | returning keyword value slot =>
    cases value <;> simp [Statement.map, Statement.toNode, Slot.cleared, Expr.bottomUp_cleared]
  | exit keyword slot => simp [Statement.map, Statement.toNode, Slot.cleared]

theorem Block.bottomUp_cleared (b : Block) : (b.map id Slot.cleared).toNode.BottomUp := by
  cases b with
  | mk statements slot =>
    simpa [Block.map, Block.toNode, Slot.cleared] using Statement.allBottomUp_cleared statements

theorem Statement.allBottomUp_cleared (ss : List Statement) :
    AllBottomUp (Statement.toNodes (Statement.mapAll id Slot.cleared ss)) := by
  cases ss with
  | nil => exact allBottomUp_nil
  | cons s ss =>
    simpa [Statement.mapAll, Statement.toNodes] using
      ⟨Statement.bottomUp_cleared s, Statement.allBottomUp_cleared ss⟩

theorem ElseIfs.bottomUp_cleared (b : ElseIfs) :
    AllBottomUp (b.map id Slot.cleared).toNodes := by
  cases b with
  | nil => exact allBottomUp_nil
  | cons keyword condition body slot rest =>
    simpa [ElseIfs.map, ElseIfs.toNodes, Slot.cleared, Expr.bottomUp_cleared] using
      ⟨Block.bottomUp_cleared body, ElseIfs.bottomUp_cleared rest⟩

theorem Else.bottomUp_cleared (b : Else) : AllBottomUp (b.map id Slot.cleared).toNodes := by
  cases b with
  | absent => exact allBottomUp_nil
  | present keyword body slot =>
    simpa [Else.map, Else.toNodes, Slot.cleared] using Block.bottomUp_cleared body

end

theorem TypeExpr.bottomUp_cleared (e : TypeExpr) : (e.map id Slot.cleared).toNode.BottomUp := by
  cases e <;> simp [map, toNode, TypeExpr.slot, Slot.cleared]

theorem ConstantList.bottomUp_cleared (l : ConstantList) :
    (l.map id Slot.cleared).toNode.BottomUp := by
  have hvalue (v : ConstantValue) : (v.map id Slot.cleared).toNode.BottomUp := by
    cases v with
    | simple l => simp [ConstantValue.map, ConstantValue.toNode, Literal.map, Literal.toNode,
        Slot.cleared]
    | list l => exact l.bottomUp_cleared
  simp [ConstantList.map, toNode, ConstantDecl.map, ConstantDecl.toNode, Slot.cleared,
    AllBottomUp, hvalue]

theorem BindingDecl.bottomUp_cleared (kind : NodeKind) (d : BindingDecl) :
    ((d.map id Slot.cleared).toNode kind).BottomUp := by
  have hname (i : Identifier) : (i.map id Slot.cleared).toNode.BottomUp := by
    simp [Identifier.map, Identifier.toNode, Slot.cleared]
  simp [BindingDecl.map, toNode, Slot.cleared, AllBottomUp, hname, or_imp, forall_and,
    TypeExpr.bottomUp_cleared]

theorem VariableList.bottomUp_cleared (l : VariableList) :
    (l.map id Slot.cleared).toNode.BottomUp := by
  simp [VariableList.map, toNode, Slot.cleared, AllBottomUp, BindingDecl.bottomUp_cleared]

theorem ParameterList.bottomUp_cleared (l : ParameterList) :
    (l.map id Slot.cleared).toNode.BottomUp := by
  simp [ParameterList.map, toNode, Slot.cleared, AllBottomUp, BindingDecl.bottomUp_cleared]

theorem ProcedureDecl.bottomUp_cleared (d : ProcedureDecl) :
    (d.map id Slot.cleared).toNode.BottomUp := by
  cases hconstants : d.constants <;> cases hvars : d.vars <;>
    simp [ProcedureDecl.map, toNode, Slot.cleared, hconstants, hvars, Block.bottomUp_cleared,
      ParameterList.bottomUp_cleared, TypeExpr.bottomUp_cleared, ConstantList.bottomUp_cleared,
      VariableList.bottomUp_cleared]

theorem Program.bottomUp_untyped (p : Program) : p.untyped.toNode.BottomUp := by
  have hprocedures : (p.procedures.map id Slot.cleared).toNode.BottomUp := by
    simp [ProcedureList.map, ProcedureList.toNode, Slot.cleared, AllBottomUp,
      ProcedureDecl.bottomUp_cleared]
  cases hconstants : p.constants <;> cases hvars : p.vars <;>
    simp [untyped, Program.map, toNode, Slot.cleared, hconstants, hvars, hprocedures,
      Block.bottomUp_cleared, ConstantList.bottomUp_cleared, VariableList.bottomUp_cleared]

end TeachLang
