import TeachLang.Token.Basic
import TeachLang.Ty

/-! # Violations

What a program can do wrong that its grammar does not tell, and the message for it.
-/

namespace TeachLang

inductive Violation where
  | duplicatedConstant (name : String)
  | duplicatedVariable (name : String)
  | duplicatedParameter (name : String)
  | duplicateProcedure (name : String)
  | builtinRedefinition (name : String)
  | emptyListConstant
  | undeclaredVariable (name : String)
  | undeclaredProcedure (name : String)
  | wrongArgumentCount (expected found : Nat)
  | incompatibleArgument (parameter : String) (expected found : Ty)
  | incompatibleAssignment (target value : Ty)
  | assignmentToConstant (name : String)
  | nonBooleanCondition (found : Ty)
  | incompatibleForTypes (item iterable : Ty)
  | unexpectedExit
  | unexpectedReturn
  | invalidReturnType (expected found : Ty)
  | binaryOperandMismatch (operator : String) (expected : Ty)
  | equalityOperandMismatch (operator : String)
  | unaryOperandMismatch (operator : String) (expected : Ty)
  | nonIntegerIndex (found : Ty)
  | indexNonList (found : Ty)
  | heterogeneousList (expected found : Ty)
  | integerLiteralTooLarge (literal : String)
deriving DecidableEq, Repr

def Violation.message : Violation → String
  | duplicatedConstant name => "Duplicated constant: " ++ name
  | duplicatedVariable name => "Duplicated variable: " ++ name
  | duplicatedParameter name => "Duplicated parameter: " ++ name
  | duplicateProcedure name => "Duplicate procedure " ++ name
  | builtinRedefinition name => "Cannot redefine builtin procedure " ++ name
  | emptyListConstant => "List constants should have at least one element"
  | undeclaredVariable name => "Undeclared variable or constant: " ++ name
  | undeclaredProcedure name => "Undeclared procedure: " ++ name
  | wrongArgumentCount expected found =>
    "Wrong number of params to procedure call: expected " ++ toString expected ++ " but got "
      ++ toString found
  | incompatibleArgument parameter expected found =>
    "Incompatible types " ++ found.name ++ " and " ++ expected.name ++ " for parameter "
      ++ parameter
  | incompatibleAssignment target value =>
    "Cannot assign a value of type " ++ value.name ++ " to a variable of type " ++ target.name
  | assignmentToConstant name => "Cannot assign to constant '" ++ name ++ "'"
  | nonBooleanCondition found =>
    "Condition has to be of type " ++ Ty.bool.name ++ " but got " ++ found.name
  | incompatibleForTypes item iterable =>
    "Incompatible types " ++ item.name ++ " and " ++ iterable.name
  | unexpectedExit => "Unexpected exit statement"
  | unexpectedReturn => "Unexpected return statement"
  | invalidReturnType expected found =>
    "Invalid return type " ++ found.name ++ " for procedure of type " ++ expected.name
  | binaryOperandMismatch operator expected =>
    "Operator " ++ operator ++ " requires two operands of type " ++ expected.name
  | equalityOperandMismatch operator =>
    "Operator " ++ operator ++ " requires one of " ++ Ty.bool.name ++ " or " ++ Ty.int.name
  | unaryOperandMismatch operator expected =>
    "Operator " ++ operator ++ " requires an operand of type " ++ expected.name
  | nonIntegerIndex found => "List indexes should be " ++ Ty.int.name ++ ", got " ++ found.name
  | indexNonList found => "Cannot index a value of type " ++ found.name
  | heterogeneousList expected found =>
    "All elements of a list should be the same type, expected " ++ expected.name ++ " but got "
      ++ found.name
  | integerLiteralTooLarge literal => "Integer literal too large: " ++ literal

structure SemanticError where
  violation : Violation
  token : Token
deriving DecidableEq, Repr

def SemanticError.message (e : SemanticError) : String := e.violation.message

end TeachLang
