/-! # Severities

How much an event matters, and a threshold that says which events are shown.
-/

namespace TeachLang

inductive Severity where
  | error
  | warn
  | info
  | debug
  | trace
deriving DecidableEq, Repr

namespace Severity

def all : List Severity := [error, warn, info, debug, trace]

def name : Severity → String
  | error => "error"
  | warn => "warn"
  | info => "info"
  | debug => "debug"
  | trace => "trace"

/-- How many severities matter as much or more. -/
def rank : Severity → Nat
  | error => 1
  | warn => 2
  | info => 3
  | debug => 4
  | trace => 5

end Severity

/-- Shows nothing, or all events down to a severity. -/
inductive Threshold where
  | off
  | upTo (severity : Severity)
deriving DecidableEq, Repr

namespace Threshold

def all : List Threshold := off :: Severity.all.map upTo

def name : Threshold → String
  | off => "off"
  | upTo limit => limit.name

def admits : Threshold → Severity → Bool
  | off, _ => false
  | upTo limit, severity => severity.rank ≤ limit.rank

/-- The number that some digits write, after a plus sign or none. -/
def number? (text : String) : Option Nat :=
  let digits := match text.toList with
    | '+' :: digits => digits
    | digits => digits
  if digits.isEmpty || !digits.all Char.isDigit then none
  else some (digits.foldl (fun n c => 10 * n + (c.toNat - '0'.toNat)) 0)

/-- The threshold that a text writes: how many severities are shown, or the name of a threshold in
letters of any case.  The empty text writes the strictest threshold that shows something. -/
def ofText? (text : String) : Option Threshold :=
  if text.isEmpty then some (upTo .error)
  else
    match number? text with
    | some n => all[n]?
    | none => all.find? (·.name == text.map Char.toLower)

end Threshold
end TeachLang
