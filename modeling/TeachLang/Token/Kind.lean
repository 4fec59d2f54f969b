/-! # Token kinds

Every category a scanned token can belong to, with its written name, and the reserved words.
-/

namespace TeachLang

inductive TokenKind where
  | identifier | illegalChar | eof
  | kwProgram | kwConst | kwVar | kwEnd | kwInteger | kwBoolean | kwString | kwList | kwOf
  | kwProcedure | kwBegin | kwIf | kwThen | kwElseif | kwElse | kwLoop | kwFor | kwIn | kwDo
  | kwReturn | kwExit | kwAnd | kwOr | kwXor | kwDiv | kwRem | kwNot | kwTrue | kwFalse
  | intLiteral | stringLiteral
  | colon | comma | semicolon | colonEqual | curlyOpen | curlyClose
  | parenthesisOpen | parenthesisClose | bracketOpen | bracketClose
  | equal | unequal | lessThan | moreThan | lessThanEqual | moreThanEqual | plus | minus | times
deriving DecidableEq, Repr

namespace TokenKind

def all : List TokenKind :=
  [identifier, illegalChar, eof,
   kwProgram, kwConst, kwVar, kwEnd, kwInteger, kwBoolean, kwString, kwList, kwOf,
   kwProcedure, kwBegin, kwIf, kwThen, kwElseif, kwElse, kwLoop, kwFor, kwIn, kwDo,
   kwReturn, kwExit, kwAnd, kwOr, kwXor, kwDiv, kwRem, kwNot, kwTrue, kwFalse,
   intLiteral, stringLiteral,
   colon, comma, semicolon, colonEqual, curlyOpen, curlyClose,
   parenthesisOpen, parenthesisClose, bracketOpen, bracketClose,
   equal, unequal, lessThan, moreThan, lessThanEqual, moreThanEqual, plus, minus, times]

def name : TokenKind → String
  | identifier => "IDENTIFIER"
  | illegalChar => "ILLEGAL_CHAR"
  | eof => "EOF"
  | kwProgram => "PROGRAM"
  | kwConst => "CONST"
  | kwVar => "VAR"
  | kwEnd => "END"
  | kwInteger => "INTEGER"
  | kwBoolean => "BOOLEAN"
  | kwString => "STRING"
  | kwList => "LIST"
  | kwOf => "OF"
  | kwProcedure => "PROCEDURE"
  | kwBegin => "BEGIN"
  | kwIf => "IF"
  | kwThen => "THEN"
  | kwElseif => "ELSEIF"
  | kwElse => "ELSE"
  | kwLoop => "LOOP"
  | kwFor => "FOR"
  | kwIn => "IN"
  | kwDo => "DO"
  | kwReturn => "RETURN"
  | kwExit => "EXIT"
  | kwAnd => "AND"
  | kwOr => "OR"
  | kwXor => "XOR"
  | kwDiv => "DIV"
  | kwRem => "REM"
  | kwNot => "NOT"
  | kwTrue => "TRUE"
  | kwFalse => "FALSE"
  | intLiteral => "INT_LITERAL"
  | stringLiteral => "STRING_LITERAL"
  | colon => "COLON"
  | comma => "COMMA"
  | semicolon => "SEMICOLON"
  | colonEqual => "COLON_EQUAL"
  | curlyOpen => "CURLY_OPEN"
  | curlyClose => "CURLY_CLOSE"
  | parenthesisOpen => "PARENTHESIS_OPEN"
  | parenthesisClose => "PARENTHESIS_CLOSE"
  | bracketOpen => "BRACKET_OPEN"
  | bracketClose => "BRACKET_CLOSE"
  | equal => "EQUAL"
  | unequal => "UNEQUAL"
  | lessThan => "LESS_THAN"
  | moreThan => "MORE_THAN"
  | lessThanEqual => "LESS_THAN_EQUAL"
  | moreThanEqual => "MORE_THAN_EQUAL"
  | plus => "PLUS"
  | minus => "MINUS"
  | times => "TIMES"

instance : ToString TokenKind := ⟨name⟩

def ofName? (text : String) : Option TokenKind := all.find? (·.name == text)

def keywords : List (String × TokenKind) :=
  [("and", kwAnd), ("begin", kwBegin), ("boolean", kwBoolean), ("const", kwConst),
   ("div", kwDiv), ("do", kwDo), ("else", kwElse), ("elseif", kwElseif), ("end", kwEnd),
   ("exit", kwExit), ("false", kwFalse), ("for", kwFor), ("if", kwIf), ("in", kwIn),
   ("integer", kwInteger), ("list", kwList), ("loop", kwLoop), ("not", kwNot), ("of", kwOf),
   ("or", kwOr), ("procedure", kwProcedure), ("program", kwProgram), ("rem", kwRem),
   ("return", kwReturn), ("string", kwString), ("then", kwThen), ("true", kwTrue),
   ("var", kwVar), ("xor", kwXor)]

def ofKeyword? (word : String) : Option TokenKind := keywords.lookup word

theorem mem_all (k : TokenKind) : k ∈ all := by cases k <;> decide

theorem ofName?_name (k : TokenKind) : ofName? k.name = some k := by cases k <;> decide

end TokenKind
end TeachLang
