import TeachLang.Token.Kind

/-! # First sets

The kinds of token that can begin each part of the grammar, in the order in which messages list
them.
-/

namespace TeachLang.First

open TokenKind

def declaration : List TokenKind := [kwConst, kwVar, kwProcedure]

def simpleType : List TokenKind := [kwInteger, kwString, kwBoolean]

def type : List TokenKind := [kwInteger, kwString, kwBoolean, kwList]

def simpleLiteral : List TokenKind := [intLiteral, stringLiteral, kwTrue, kwFalse]

def statement : List TokenKind := [identifier, kwIf, kwLoop, kwFor, kwReturn, kwExit]

def logicOperator : List TokenKind := [kwAnd, kwOr, kwXor]

def relationalOperator : List TokenKind :=
  [equal, unequal, lessThan, moreThan, lessThanEqual, moreThanEqual]

def sumOperator : List TokenKind := [plus, minus]

def mulOperator : List TokenKind := [times, kwDiv, kwRem]

def unaryOperator : List TokenKind := [kwNot, minus]

def primary : List TokenKind :=
  [identifier, intLiteral, stringLiteral, kwTrue, kwFalse, curlyOpen, bracketOpen,
   parenthesisOpen]

def expr : List TokenKind :=
  [identifier, intLiteral, stringLiteral, kwTrue, kwFalse, curlyOpen, bracketOpen,
   parenthesisOpen, kwNot, minus]

def listLiteral : List TokenKind := [curlyOpen, bracketOpen]

def constantValue : List TokenKind := simpleLiteral ++ [curlyOpen]

def afterName : List TokenKind := [colonEqual, bracketOpen, parenthesisOpen]

def constantList : List TokenKind := [kwConst]

def variableList : List TokenKind := [kwVar]

def procedure : List TokenKind := [kwProcedure]

def name : List TokenKind := [identifier]

def program : List TokenKind := [kwConst, kwVar, kwProcedure, kwProgram]

/-- The first sets that tools can ask for, by name. -/
def catalogue : List (String × List TokenKind) :=
  [("DECLARATION", declaration), ("SIMPLE_TYPE", simpleType), ("TYPE", type),
   ("SIMPLE_LITERAL", simpleLiteral), ("STATEMENT", statement),
   ("LOGIC_OPERATOR", logicOperator), ("RELATIONAL_OPERATOR", relationalOperator),
   ("SUM_OPERATOR", sumOperator), ("MUL_OPERATOR", mulOperator),
   ("UNARY_OPERATOR", unaryOperator), ("PRIMARY", primary), ("EXPR", expr)]

end TeachLang.First
