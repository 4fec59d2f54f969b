import TeachLang.Log.Severity

/-! # Options

What the arguments of the command ask for.  They are read from left to right; the value of an
option, and files, are only looked at when something else follows or the arguments end.
-/

namespace TeachLang

structure Options where
  /-- The files to be compiled, one after the other. -/
  files : List String
  printTokens : Bool
  printTree : Bool
  noTables : Bool
  /-- How often more output has been asked for. -/
  verbosity : Nat
  silent : Bool
  threshold? : Option Threshold
deriving DecidableEq, Repr

namespace Options

def blank : Options := ⟨[], false, false, false, 0, false, none⟩

/-- What is shown if the options say anything about it: a threshold counts before verbosity, and
verbosity before silence. -/
def shown? (o : Options) : Option Threshold :=
  match o.threshold?, o.verbosity, o.silent with
  | some threshold, _, _ => some threshold
  | _, 0, true => some .off
  | _, 0, false => none
  | _, 1, _ => some (.upTo .debug)
  | _, _ + 2, _ => some (.upTo .trace)

end Options

inductive UsageError where
  | unknownArgument (argument : String)
  | unexpectedValue (argument value : String)
  | missingValue (argument : String)
  | badValue (argument value : String)
  | repeated (argument : String)
  | missingFiles
deriving DecidableEq, Repr

inductive Notice where
  | help
  | version
  | usage (error : UsageError)
deriving DecidableEq, Repr

inductive Switch where
  | printTokens
  | printTree
  | noTables
  | verbose
  | silent
  | help
  | version
deriving DecidableEq, Repr

namespace Switch

def all : List Switch := [printTokens, printTree, noTables, verbose, silent, help, version]

def longName : Switch → String
  | printTokens => "print-tokens"
  | printTree => "print-ast"
  | noTables => "no-tables"
  | verbose => "verbose"
  | silent => "silent"
  | help => "help"
  | version => "version"

def shortName? : Switch → Option Char
  | verbose => some 'v'
  | silent => some 's'
  | help => some 'h'
  | version => some 'V'
  | _ => none

def ofLong? (name : String) : Option Switch := all.find? (·.longName == name)

def ofShort? (c : Char) : Option Switch := all.find? (·.shortName? == some c)

end Switch

def thresholdOption : String := "log-level"

def verbosityLimit : Nat := 255

inductive Pending where
  | nothing
  | files (paths : List String)
  /-- The threshold option, with its value if that has been read. -/
  | threshold (value : Option String)
deriving DecidableEq, Repr

structure Progress where
  options : Options
  pending : Pending
  /-- Whether all that follows is files. -/
  onlyFiles : Bool
deriving DecidableEq, Repr

namespace Progress

def start : Progress := ⟨.blank, .nothing, false⟩

def setThreshold (p : Progress) (text : String) : Except Notice Progress :=
  if p.options.threshold?.isSome then .error (.usage (.repeated thresholdOption))
  else
    match Threshold.ofText? text with
    | some threshold => .ok { p with options := { p.options with threshold? := some threshold } }
    | none => .error (.usage (.badValue thresholdOption text))

def settle (p : Progress) : Except Notice Progress :=
  let settled := { p with pending := .nothing }
  match p.pending with
  | .nothing => .ok settled
  | .files paths =>
    if paths.contains "" then .error (.usage (.missingValue "FILES"))
    else .ok { settled with options := { p.options with files := p.options.files ++ paths } }
  | .threshold none => .error (.usage (.missingValue thresholdOption))
  | .threshold (some text) => settled.setThreshold text

def turnOn (isOn : Bool) (s : Switch) (p : Progress) (o : Options) : Except Notice Progress :=
  if isOn then .error (.usage (.repeated s.longName)) else .ok { p with options := o }

def switch (p : Progress) (s : Switch) : Except Notice Progress := do
  let p ← p.settle
  let o := p.options
  match s with
  | .printTokens => p.turnOn o.printTokens s { o with printTokens := true }
  | .printTree => p.turnOn o.printTree s { o with printTree := true }
  | .noTables => p.turnOn o.noTables s { o with noTables := true }
  | .silent => p.turnOn o.silent s { o with silent := true }
  | .verbose =>
    return { p with options := { o with verbosity := min (o.verbosity + 1) verbosityLimit } }
  | .help => throw .help
  | .version => throw .version

/-- Reads a file, or the value that an option still waits for. -/
def value (p : Progress) (text : String) : Except Notice Progress :=
  match p.pending, p.onlyFiles with
  | .threshold none, false => .ok { p with pending := .threshold (some text) }
  | .files paths, _ => .ok { p with pending := .files (paths ++ [text]) }
  | _, _ => do return { (← p.settle) with pending := .files [text] }

def long (p : Progress) (name : String) (value? : Option String) : Except Notice Progress :=
  match Switch.ofLong? name, value? with
  | some s, none => p.switch s
  | some s, some value => .error (.usage (.unexpectedValue s.longName value))
  | none, _ =>
    if name = thresholdOption then do
      let p ← p.settle
      match value? with
      | some value => p.setThreshold value
      | none => return { p with pending := .threshold none }
    else .error (.usage (.unknownArgument ("--" ++ name)))

def shorts (p : Progress) : List Char → Except Notice Progress
  | [] => .ok p
  | c :: cs =>
    match Switch.ofShort? c with
    | some s => do shorts (← p.switch s) cs
    | none => .error (.usage (.unknownArgument ("-" ++ c.toString)))

/-- What stands before the first equals sign, and what stands after it if there is one. -/
def splitValue (cs : List Char) : String × Option String :=
  let name := String.ofList (cs.takeWhile (· != '='))
  match cs.dropWhile (· != '=') with
  | [] => (name, none)
  | _ :: value => (name, some (String.ofList value))

def argument (p : Progress) (text : String) : Except Notice Progress :=
  if p.onlyFiles then p.value text
  else
    match text.toList with
    | ['-', '-'] => .ok { p with onlyFiles := true }
    | '-' :: '-' :: cs =>
      let (name, value?) := splitValue cs
      p.long name value?
    | '-' :: c :: cs => p.shorts (c :: cs)
    | _ => p.value text

/-- Ends the arguments; there has to be a file. -/
def finish (p : Progress) : Except Notice Options := do
  let p ← p.settle
  if p.options.files.isEmpty then throw (.usage .missingFiles) else return p.options

end Progress

def Options.parse (arguments : List String) : Except Notice Options := do
  (← arguments.foldlM Progress.argument .start).finish

end TeachLang
