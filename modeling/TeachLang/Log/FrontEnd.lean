import TeachLang.Compile
import TeachLang.Log.Event

/-! # The log of the front end

What scanning and compiling a source log.  The parser asks for one token ahead, and the tokens
that it has asked for are logged before anything is checked.  What has been checked can be read
off the types that the tree holds.
-/

namespace TeachLang

def Token.scanEvent (t : Token) : Event :=
  ⟨.trace, .scanner, "scanned",
    [("token", t.describe), ("line", toString t.line), ("column", toString t.column)]⟩

def scanEvents (source : String) : List Event :=
  let tokens := lex source
  tokens.map Token.scanEvent
    ++ [⟨.debug, .scanner, "scanned source", [("tokens", toString tokens.length)]⟩]

/-- The tokens of a source that have been scanned when a cursor has been reached. -/
def Cursor.scanned (c : Cursor) : List Token :=
  let tokens := lex c.scanner.source
  tokens.take (tokens.length - c.scanner.tokens.length)

def Program.parseEvent (p : Program) : Event :=
  ⟨.debug, .parser, "parsed program",
    [("procedures", toString p.procedures.procedures.length),
     ("statements", toString p.statements.statements.length)]⟩

/-- Tells of a constant, if it has been declared. -/
def ConstantDecl.checkEvents (d : ConstantDecl) : List Event :=
  match d.slot with
  | some ty =>
    [⟨.trace, .declarations, "declared constant",
      [("constant", quoted d.name.text), ("ty", ty.name)]⟩]
  | none => []

def constantEvents (l : Option ConstantList) : List Event :=
  match l with
  | some l => l.declarations.flatMap ConstantDecl.checkEvents
  | none => []

/-- Tells of the constants of a procedure, and of the procedure, if it has been checked. -/
def ProcedureDecl.checkEvents (d : ProcedureDecl) : List Event :=
  constantEvents d.constants
    ++ (match d.slot with
      | some ty =>
        [⟨.trace, .declarations, "checked procedure",
          [("procedure", d.name.text), ("return_type", ty.name)]⟩]
      | none => [])

/-- What checking a program has logged, read off the tree that it has left. -/
def Program.checkEvents (p : Program) : List Event :=
  constantEvents p.constants ++ p.procedures.procedures.flatMap ProcedureDecl.checkEvents

def Tables.doneEvents (t : Tables) (source : String) : List Event :=
  [⟨.debug, .analysis, "semantic analysis finished",
      [("globals", toString t.globals.size),
       ("procedures", toString t.procedures.userEntries.length)]⟩,
    ⟨.debug, .frontEnd, "compiled to typed ast", [("bytes", toString source.utf8ByteSize)]⟩]

def compileEvents (source : String) : List Event :=
  match parseProgram source with
  | (.error _, c) => c.scanned.map Token.scanEvent
  | (.ok p, c) =>
    c.scanned.map Token.scanEvent ++ p.parseEvent
      :: (match p.check .initial with
        | (p, _, .error _) => p.checkEvents
        | (p, t, .ok ()) => p.checkEvents ++ t.doneEvents source)

end TeachLang
