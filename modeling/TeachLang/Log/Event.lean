import TeachLang.Diagnostic.Styled
import TeachLang.Log.Severity

/-! # Log events

What the program says while it works.  An event comes from a part of the program, matters to some
degree, and has a message and named details.  All output of the program is events.
-/

namespace TeachLang

/-- The parts of the program that log, under the names that a filter can pick. -/
inductive LogSource where
  | command
  | diagnostics
  | console
  | scanner
  | parser
  | declarations
  | analysis
  | frontEnd
deriving DecidableEq, Repr

def LogSource.name : LogSource → String
  | command => "chimera::ops::chimerac_compile"
  | diagnostics => "chimera::utils::diagnostics"
  | console => "chimera_tracing"
  | scanner => "chimera_parse::token"
  | parser => "chimera_parse"
  | declarations => "chimera_core::semantic_analysis::declaration"
  | analysis => "chimera_core::semantic_analysis"
  | frontEnd => "chimera_core"

structure Event where
  severity : Severity
  source : LogSource
  message : String
  /-- The details by name, in order. -/
  details : List (String × String)
deriving DecidableEq, Repr

inductive Channel where
  | out
  | err
deriving DecidableEq, Repr

namespace Event

/-- Errors and warnings do not mix with the other output. -/
def channel (e : Event) : Channel := if e.severity.rank ≤ Severity.warn.rank then .err else .out

/-- A character of a message, with what could steer a terminal written out. -/
def escapeChar (c : Char) : String :=
  match c with
  | '\x07' => "\\x07"
  | '\x08' => "\\x08"
  | '\x0c' => "\\x0c"
  | '\x1b' => "\\x1b"
  | '\x7f' => "\\x7f"
  | _ =>
    if 0x80 ≤ c.toNat ∧ c.toNat ≤ 0x9f then
      "\\u\x7b" ++ String.ofList (Nat.toDigits 16 c.toNat) ++ "\x7d"
    else c.toString

def escape (message : String) : String := String.join (message.toList.map escapeChar)

/-- A detail with its name in italics and a dim equals sign; the text of it is not escaped. -/
def detailText (name text : String) : String :=
  Theme.escape ++ "[3m" ++ name ++ Theme.reset ++ Theme.escape ++ "[2m=" ++ Theme.reset ++ text

/-- The event as a line of the log. -/
def line (e : Event) : String :=
  " ".intercalate (escape e.message :: e.details.map fun (name, text) => detailText name text)
    ++ "\n"

end Event

/-- The log lines of some events on one channel. -/
def logText (channel : Channel) (events : List Event) : String :=
  String.join ((events.filter (·.channel == channel)).map Event.line)

end TeachLang
