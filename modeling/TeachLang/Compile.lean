import TeachLang.Check.Declaration
import TeachLang.Grammar.Declaration

/-! # Compilation

The whole front end: a source is read and checked, and the first error ends it.
-/

namespace TeachLang

inductive CompileError where
  | parse (error : SyntaxError)
  | check (error : SemanticError)
deriving DecidableEq, Repr

namespace CompileError

def token : CompileError → Token
  | parse e => e.found
  | check e => e.token

def lineCol (e : CompileError) : LineCol := e.token.lineCol

def span (e : CompileError) : Span := e.token.span

/-- The message without the class of the error. -/
def message : CompileError → String
  | parse e => e.message
  | check e => e.message

/-- The message after the class of the error. -/
def title : CompileError → String
  | parse e => "Syntax error: " ++ e.message
  | check e => "Semantic error: " ++ e.message

end CompileError

structure TypedProgram where
  program : Program
  tables : Tables

/-- Reads and checks one source. -/
def compile (source : String) : Except CompileError TypedProgram :=
  match (parseProgram source).1 with
  | .error e => .error (.parse e)
  | .ok program =>
    match program.check .initial with
    | (_, _, .error e) => .error (.check e)
    | (program, tables, .ok ()) => .ok ⟨program, tables⟩

end TeachLang
