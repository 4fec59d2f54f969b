import TeachLang.Command.Folder
import TeachLang.Command.Options
import TeachLang.Diagnostic.Report
import TeachLang.Log.Filter
import TeachLang.Log.FrontEnd
import TeachLang.Token.Listing
import TeachLang.Tree.Outline

/-! # Runs

Compiles files one after the other.  A file with errors does not keep the next ones from being
compiled, but a file that cannot be read ends the run.
-/

namespace TeachLang

inductive RunError where
  | unreadable (path : String) (reason : ReadError)
  | rejected (paths : List String)
deriving DecidableEq, Repr

def RunError.message : RunError → String
  | unreadable path reason => "failed to read " ++ path ++ ": " ++ reason.message
  | rejected paths => "could not compile " ++ ", ".intercalate paths

inductive Colour where
  | red
  | green
  | yellow
deriving DecidableEq, Repr

def Colour.paint (c : Colour) (text : String) : String :=
  let code := match c with
    | red => "31"
    | green => "32"
    | yellow => "33"
  Theme.escape ++ "[" ++ code ++ "m" ++ text ++ Theme.reset

def TypedProgram.events (typed : TypedProgram) (o : Options) : List Event :=
  (if o.printTree then [⟨.info, .command, typed.program.outline, []⟩] else [])
    ++ [⟨.info, .console, Colour.green.paint "Semantics OK.", []⟩]
    ++ (if o.noTables then []
      else
        [⟨.info, .command, typed.tables.globals.describe, []⟩,
          ⟨.info, .command, typed.tables.procedures.describe, []⟩])

def CompileError.events (e : CompileError) (path : String) : List Event :=
  [⟨.error, .diagnostics, e.report (some path) .colored ++ "\n____\n", []⟩,
    ⟨.error, .console, Colour.yellow.paint (path ++ " has errors."), []⟩]

/-- The events of listing the tokens of a text.  The text is scanned for the listing only if the
listing is shown. -/
def listingEvents (f : Filter) (source : String) : List Event :=
  let listing : Event := ⟨.info, .command, tokenListing source, []⟩
  if f.admits listing then scanEvents source ++ [listing] else []

/-- The events of compiling a file with a given text. -/
def fileEvents (o : Options) (f : Filter) (path source : String) : List Event :=
  ⟨.debug, .command, "compiling",
      [("path", path), ("bytes", toString source.utf8ByteSize)]⟩
    :: (if o.printTokens then listingEvents f source else [])
    ++ compileEvents source
    ++ (match compile source with
      | .ok typed => typed.events o
      | .error e => e.events path)

def compiles (source : String) : Bool :=
  match compile source with
  | .ok _ => true
  | .error _ => false

structure Outcome where
  events : List Event
  result : Except RunError Unit

/-- Compiles files with the given texts, behind files of which some have been rejected. -/
def runFrom (o : Options) (f : Filter) (rejected : List String) :
    List (String × Except ReadError String) → Outcome
  | [] => ⟨[], if rejected.isEmpty then .ok () else .error (.rejected rejected)⟩
  | (path, .error reason) :: _ => ⟨[], .error (.unreadable path reason)⟩
  | (path, .ok source) :: files =>
    let rejected := if compiles source then rejected else rejected ++ [path]
    let rest := runFrom o f rejected files
    ⟨fileEvents o f path source ++ rest.events, rest.result⟩

/-- Compiles files, of each of which the text is given or why it cannot be read; the filter is the
one that the events will go through. -/
def run (o : Options) (f : Filter) (files : List (String × Except ReadError String)) : Outcome :=
  runFrom o f [] files

namespace Outcome

def failureEvents (r : Outcome) : List Event :=
  match r.result with
  | .ok () => []
  | .error e => [⟨.error, .console, Colour.red.paint e.message, []⟩]

def log (r : Outcome) : List Event := r.events ++ r.failureEvents

def exitCode (r : Outcome) : Nat :=
  match r.result with
  | .ok () => 0
  | .error _ => 1

end Outcome

/-- The filter of a run: what the options say counts before what the environment sets. -/
def Options.filter (o : Options) (setting : Option String) : Filter :=
  match o.shown? with
  | some threshold => .ofThreshold threshold
  | none => .ofSetting setting

end TeachLang
