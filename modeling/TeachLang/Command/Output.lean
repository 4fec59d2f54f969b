import TeachLang.Command.Notice
import TeachLang.Command.Run

/-! # Output of the command

What the command writes on its two channels, and its exit code, for given arguments, a setting of
the environment, and what reading a file gives.
-/

namespace TeachLang

structure CommandOutput where
  exitCode : Nat
  out : String
  err : String
deriving DecidableEq, Repr

def Notice.output (n : Notice) : CommandOutput :=
  match n.channel with
  | .out => ⟨n.exitCode, n.text, ""⟩
  | .err => ⟨n.exitCode, "", n.text⟩

/-- The output of compiling files, of each of which the text is given or why it cannot be
read. -/
def Options.output (o : Options) (setting : Option String)
    (files : List (String × Except ReadError String)) : CommandOutput :=
  let filter := o.filter setting
  let outcome := run o filter files
  let events := filter.select outcome.log
  ⟨outcome.exitCode, logText .out events, logText .err events⟩

def commandOutput (arguments : List String) (setting : Option String)
    (read : String → Except ReadError String) : CommandOutput :=
  match Options.parse arguments with
  | .ok o => o.output setting (o.files.map fun path => (path, read path))
  | .error n => n.output

end TeachLang
