import TeachLang.Tree.Declaration

/-! # Nodes

A uniform view of the tree: every part of a program is a node with a kind, the token that it
stands for, its type slot, the value of a literal, and its parts in source order.
-/

namespace TeachLang

inductive NodeKind where
  | program | constantList | constantDecl | variableList | variableDecl
  | parameterList | parameterDecl | procedureList | procedureDecl
  | integerType | stringType | booleanType | listType | voidType
  | statementList | assignment | callStatement
  | conditional | elseIfList | elseIf | otherwise | loop | forEach | returning | exit
  | identifier | call | listIndex | intLiteral | stringLiteral | literalTrue | literalFalse
  | listLiteral
  | binary (op : BinaryOp)
  | unary (op : UnaryOp)
deriving DecidableEq, Repr

namespace NodeKind

def name : NodeKind → String
  | program => "Program"
  | constantList => "ConstantList"
  | constantDecl => "ConstantDecl"
  | variableList => "VariableList"
  | variableDecl => "VariableDecl"
  | parameterList => "ParameterList"
  | parameterDecl => "ParameterDecl"
  | procedureList => "ProcedureList"
  | procedureDecl => "ProcedureDecl"
  | integerType => "IntegerType"
  | stringType => "StringType"
  | booleanType => "BooleanType"
  | listType => "ListType"
  | voidType => "VoidType"
  | statementList => "StatementList"
  | assignment => "Assignment"
  | callStatement => "CallStatement"
  | conditional => "If"
  | elseIfList => "ElseIfList"
  | elseIf => "ElseIf"
  | otherwise => "Else"
  | loop => "Loop"
  | forEach => "For"
  | returning => "Return"
  | exit => "Exit"
  | identifier => "Identifier"
  | call => "Call"
  | listIndex => "ListIndex"
  | intLiteral => "IntLiteral"
  | stringLiteral => "StringLiteral"
  | literalTrue => "True"
  | literalFalse => "False"
  | listLiteral => "ListLiteral"
  | binary op => op.name
  | unary op => op.name

end NodeKind

structure Node where
  kind : NodeKind
  /-- The token that the node stands for, if there is one. -/
  anchor : Option Token
  slot : Slot
  /-- The value of a literal. -/
  value : Option LiteralValue
  children : List Node
deriving Repr

def LiteralValue.nodeKind : LiteralValue → NodeKind
  | int _ => .intLiteral
  | string _ => .stringLiteral
  | bool true => .literalTrue
  | bool false => .literalFalse

def Identifier.toNode (i : Identifier) : Node := ⟨.identifier, some i.token, i.slot, none, []⟩

def Literal.toNode (l : Literal) : Node :=
  ⟨l.value.nodeKind, some l.token, l.slot, some l.value, []⟩

def ListLiteral.toNode (l : ListLiteral) : Node :=
  ⟨.listLiteral, some l.opening, l.slot, none, l.elements.map Literal.toNode⟩

mutual

def Expr.toNode : Expr → Node
  | .name i => i.toNode
  | .call callee args slot => ⟨.call, some callee, slot, none, Expr.toNodes args⟩
  | .index target opening position slot =>
    ⟨.listIndex, some opening, slot, none, [target.toNode, position.toNode]⟩
  | .literal l => l.toNode
  | .list l => l.toNode
  | .binary op symbol lhs rhs slot =>
    ⟨.binary op, some symbol, slot, none, [lhs.toNode, rhs.toNode]⟩
  | .unary op symbol operand slot => ⟨.unary op, some symbol, slot, none, [operand.toNode]⟩

def Expr.toNodes : List Expr → List Node
  | [] => []
  | e :: es => e.toNode :: Expr.toNodes es

end

def Target.toNode : Target → Node
  | .name i => i.toNode
  | .element base opening position slot =>
    ⟨.listIndex, some opening, slot, none, [base.toNode, position.toNode]⟩

mutual

def Statement.toNode : Statement → Node
  | .assignment target symbol value slot =>
    ⟨.assignment, some symbol, slot, none, [target.toNode, value.toNode]⟩
  | .call callee args slot => ⟨.callStatement, some callee, slot, none, Expr.toNodes args⟩
  | .conditional keyword condition body elseIfs elseIfsSlot otherwise slot =>
    ⟨.conditional, some keyword, slot, none,
      [condition.toNode, body.toNode, ⟨.elseIfList, none, elseIfsSlot, none, elseIfs.toNodes⟩]
        ++ otherwise.toNodes⟩
  | .loop keyword body slot => ⟨.loop, some keyword, slot, none, [body.toNode]⟩
  | .forEach keyword item iterable body slot =>
    ⟨.forEach, some keyword, slot, none, [item.toNode, iterable.toNode, body.toNode]⟩
  | .returning keyword value slot =>
    ⟨.returning, some keyword, slot, none, (value.map Expr.toNode).toList⟩
  | .exit keyword slot => ⟨.exit, some keyword, slot, none, []⟩

def Block.toNode : Block → Node
  | .mk statements slot => ⟨.statementList, none, slot, none, Statement.toNodes statements⟩

def Statement.toNodes : List Statement → List Node
  | [] => []
  | s :: ss => s.toNode :: Statement.toNodes ss

def ElseIfs.toNodes : ElseIfs → List Node
  | .nil => []
  | .cons keyword condition body slot rest =>
    ⟨.elseIf, some keyword, slot, none, [condition.toNode, body.toNode]⟩ :: rest.toNodes

def Else.toNodes : Else → List Node
  | .absent => []
  | .present keyword body slot => [⟨.otherwise, some keyword, slot, none, [body.toNode]⟩]

end

def TypeExpr.nodeKind : TypeExpr → NodeKind
  | .simple _ .integer _ => .integerType
  | .simple _ .string _ => .stringType
  | .simple _ .boolean _ => .booleanType
  | .list _ _ _ _ => .listType
  | .void _ => .voidType

def TypeExpr.toNode (e : TypeExpr) : Node := ⟨e.nodeKind, e.anchor?, e.slot, none, []⟩

def ConstantValue.toNode : ConstantValue → Node
  | simple l => l.toNode
  | list l => l.toNode

def ConstantDecl.toNode (d : ConstantDecl) : Node :=
  ⟨.constantDecl, some d.name, d.slot, none, [d.value.toNode]⟩

def ConstantList.toNode (l : ConstantList) : Node :=
  ⟨.constantList, some l.keyword, l.slot, none, l.declarations.map ConstantDecl.toNode⟩

def BindingDecl.toNode (kind : NodeKind) (d : BindingDecl) : Node :=
  ⟨kind, d.type.anchor?, d.slot, none,
    d.names.map Identifier.toNode ++ [d.type.toNode]⟩

def VariableList.toNode (l : VariableList) : Node :=
  ⟨.variableList, some l.keyword, l.slot, none,
    l.declarations.map (BindingDecl.toNode .variableDecl)⟩

def ParameterList.toNode (l : ParameterList) : Node :=
  ⟨.parameterList, none, l.slot, none, l.declarations.map (BindingDecl.toNode .parameterDecl)⟩

def ProcedureDecl.toNode (d : ProcedureDecl) : Node :=
  ⟨.procedureDecl, some d.name, d.slot, none,
    [d.parameters.toNode, d.returnType.toNode] ++ (d.constants.map ConstantList.toNode).toList
      ++ (d.vars.map VariableList.toNode).toList ++ [d.body.toNode]⟩

def ProcedureList.toNode (l : ProcedureList) : Node :=
  ⟨.procedureList, none, l.slot, none, l.procedures.map ProcedureDecl.toNode⟩

def Program.toNode (p : Program) : Node :=
  ⟨.program, some p.keyword, p.slot, none,
    (p.constants.map ConstantList.toNode).toList ++ (p.vars.map VariableList.toNode).toList
      ++ [p.procedures.toNode, p.statements.toNode]⟩

end TeachLang
