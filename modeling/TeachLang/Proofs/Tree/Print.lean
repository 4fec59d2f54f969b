import TeachLang.Grammar.Expr
import TeachLang.Proofs.Token.Spelling
import TeachLang.Tree.Declaration

/-! # Printed trees

A tree is written out as a row of tokens: its own tokens in the order of the grammar, the
punctuation between them, and parentheses around the operands that need them.  The
printed program is their texts with single spaces between.
-/

namespace TeachLang

/-- The token of a kind that is always written in the same way, at no place in particular. -/
def Token.fixed (kind : TokenKind) : Token := ⟨kind, kind.spelling?.getD "", ⟨"", 0, 0⟩, 0, 0⟩

theorem Token.kind_fixed (kind : TokenKind) : (Token.fixed kind).kind = kind := rfl

def writeCommas : List (List Token) → List Token
  | [] => []
  | w :: ws => w ++ ws.flatMap (Token.fixed .comma :: ·)

def writeParentheses (needed : Bool) (w : List Token) : List Token :=
  if needed then .fixed .parenthesisOpen :: (w ++ [.fixed .parenthesisClose]) else w

def Literal.write (l : Literal) : List Token := [l.token]

def ListLiteral.write (l : ListLiteral) : List Token :=
  l.opening :: (writeCommas (l.elements.map (·.write)) ++ [.fixed (Grammar.closing l.opening.kind)])

def Level.tightness : Level → Nat
  | logic => 0
  | relational => 1
  | sum => 2
  | mul => 3

/-- How tightly the root of an expression binds: binary operators by their level, then unary
operators, then indexing, then everything that needs no operand. -/
def Expr.tightness : Expr → Nat
  | binary op _ _ _ _ => op.level.tightness
  | unary _ _ _ _ => 4
  | index _ _ _ _ => 5
  | _ => 6

mutual

def Expr.write : Expr → List Token
  | .name i => [i.token]
  | .call callee args _ =>
    callee :: .fixed .parenthesisOpen ::
      (writeCommas (Expr.writeAll args) ++ [.fixed .parenthesisClose])
  | .index target opening position _ =>
    writeParentheses (target.tightness < 6) target.write ++ opening ::
      (position.write ++ [.fixed .bracketClose])
  | .literal l => l.write
  | .list l => l.write
  | .binary op symbol lhs rhs _ =>
    writeParentheses (lhs.tightness < op.level.tightness) lhs.write ++ symbol ::
      writeParentheses (rhs.tightness ≤ op.level.tightness) rhs.write
  | .unary _ symbol operand _ =>
    symbol :: writeParentheses (operand.tightness < 4) operand.write

def Expr.writeAll : List Expr → List (List Token)
  | [] => []
  | e :: es => e.write :: Expr.writeAll es

end

def Expr.writeArgs (args : List Expr) : List Token :=
  .fixed .parenthesisOpen :: (writeCommas (Expr.writeAll args) ++ [.fixed .parenthesisClose])

def Target.write : Target → List Token
  | .name i => [i.token]
  | .element base opening position _ =>
    writeParentheses (base.tightness < 6) base.write ++ opening ::
      (position.write ++ [.fixed .bracketClose])

mutual

def Statement.write : Statement → List Token
  | .assignment target symbol value _ =>
    target.write ++ symbol :: (value.write ++ [.fixed .semicolon])
  | .call callee args _ => callee :: (Expr.writeArgs args ++ [.fixed .semicolon])
  | .conditional keyword condition body elseIfs _ otherwise _ =>
    keyword :: (condition.write ++ .fixed .kwThen :: (body.write ++ (elseIfs.write ++
      (otherwise.write ++ [.fixed .kwEnd, .fixed .semicolon]))))
  | .loop keyword body _ => keyword :: (body.write ++ [.fixed .kwEnd, .fixed .semicolon])
  | .forEach keyword item iterable body _ =>
    keyword :: item.token :: .fixed .kwIn :: (iterable.write ++ .fixed .kwDo ::
      (body.write ++ [.fixed .kwEnd, .fixed .semicolon]))
  | .returning keyword value _ =>
    keyword :: ((value.map (·.write)).getD [] ++ [.fixed .semicolon])
  | .exit keyword _ => [keyword, .fixed .semicolon]

def Block.write : Block → List Token
  | .mk statements _ => Statement.writeAll statements

def Statement.writeAll : List Statement → List Token
  | [] => []
  | s :: ss => s.write ++ Statement.writeAll ss

def ElseIfs.write : ElseIfs → List Token
  | .nil => []
  | .cons keyword condition body _ rest =>
    keyword :: (condition.write ++ .fixed .kwThen :: (body.write ++ rest.write))

def Else.write : Else → List Token
  | .absent => []
  | .present keyword body _ => keyword :: body.write

end

def TypeExpr.write : TypeExpr → List Token
  | .simple token _ _ => [token]
  | .list keyword token _ _ => [keyword, .fixed .kwOf, token]
  | .void _ => []

def TypeExpr.writeReturn : TypeExpr → List Token
  | .void _ => []
  | type => .fixed .colon :: type.write

def ConstantValue.write : ConstantValue → List Token
  | .simple l => l.write
  | .list l => l.write

def ConstantDecl.write (d : ConstantDecl) : List Token :=
  d.name :: .fixed .colonEqual :: (d.value.write ++ [.fixed .semicolon])

def ConstantList.write (l : ConstantList) : List Token :=
  l.keyword :: l.declarations.flatMap (·.write)

def BindingDecl.write (d : BindingDecl) : List Token :=
  writeCommas (d.names.map fun i => [i.token]) ++ .fixed .colon ::
    (d.type.write ++ [.fixed .semicolon])

def VariableList.write (l : VariableList) : List Token :=
  l.keyword :: l.declarations.flatMap (·.write)

def writeDeclarations (constants : Option ConstantList) (vars : Option VariableList) : List Token :=
  constants.toList.flatMap (·.write) ++ vars.toList.flatMap (·.write)

def ProcedureDecl.write (d : ProcedureDecl) : List Token :=
  d.keyword :: d.name :: .fixed .parenthesisOpen ::
    (d.parameters.declarations.flatMap (·.write) ++ .fixed .parenthesisClose ::
      (d.returnType.writeReturn ++ .fixed .semicolon :: (writeDeclarations d.constants d.vars ++
        .fixed .kwBegin :: (d.body.write ++ [.fixed .kwEnd, .fixed .semicolon]))))

def Program.write (p : Program) : List Token :=
  writeDeclarations p.constants p.vars ++ (p.procedures.procedures.flatMap (·.write) ++
    p.keyword :: (p.statements.write ++ [.fixed .kwEnd, .fixed .semicolon]))

def Program.print (p : Program) : String := " ".intercalate (p.write.map (·.text))

end TeachLang
