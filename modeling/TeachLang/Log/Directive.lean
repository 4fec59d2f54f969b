import TeachLang.Log.Event
import TeachLang.Log.Pattern
import TeachLang.Text.Span
import TeachLang.Text.Unicode.Alphanumeric
import TeachLang.Text.Unicode.Blank

/-! # Log directives

A directive says which events it is about and which of them are shown.  Its text has up to three
parts: the beginning of the names of the parts of the program that are meant; in brackets the name
of an activity, and in braces there the name of a detail, which may be followed by an equals sign
and a value; and an equals sign and a threshold.  A threshold can also stand alone.
-/

namespace TeachLang

/-- A detail that events shall have. -/
structure DetailTest where
  name : String
  value : Option String
deriving DecidableEq, Repr

/-- Whether an event has a detail; the message counts as one.  Values are only looked at in
activities. -/
def DetailTest.holds (t : DetailTest) (e : Event) : Bool :=
  t.value.isNone && (t.name == "message" || e.details.any (·.1 == t.name))

structure Directive where
  /-- The beginning of the names of the parts that are meant; all parts if it is missing. -/
  start : Option String
  /-- The activity in which events shall arise. -/
  activity : Option String
  detail : Option DetailTest
  /-- The threshold; everything is shown if it is missing. -/
  threshold : Option Threshold
deriving DecidableEq, Repr

namespace Directive

/-- Whether an event is one of those that are meant.  No event arises in an activity. -/
def covers (d : Directive) (e : Event) : Bool :=
  d.start.all (·.toList.isPrefixOf e.source.name.toList)
    && d.activity.isNone && d.detail.all (·.holds e)

def admits (d : Directive) (severity : Severity) : Bool :=
  d.threshold.all (·.admits severity)

/-- How much is said about the names of the parts that are meant. -/
def precision (d : Directive) : Nat :=
  match d.start with
  | some start => start.utf8ByteSize + 1
  | none => 0

/-- Whether one directive counts no more than another that covers the same event: it says less
about the parts that are meant, or as much and has no detail or the one that comes first in the
order of names. -/
def yieldsTo (a b : Directive) : Bool :=
  a.precision < b.precision
    || (a.precision == b.precision
      && match a.detail, b.detail with
        | some x, some y => !(y.name < x.name)
        | some _, none => false
        | none, _ => true)

/-- Whether a character can begin a directive. -/
def canBegin (c : Char) : Bool := ['[', '-', ':', '_'].contains c || Unicode.isAlphanumeric c

/-- The digits of a number behind the sign that is part of its exponent. -/
def isExponent (cs : List Char) : Bool :=
  let digits := match cs with
    | '+' :: digits => digits
    | '-' :: digits => digits
    | digits => digits
  !digits.isEmpty && digits.all Char.isDigit

/-- Whether a text writes a number without a sign. -/
def isUnsigned (cs : List Char) : Bool :=
  let whole := cs.takeWhile Char.isDigit
  let (places, rest) := match cs.dropWhile Char.isDigit with
    | '.' :: rest => (rest.takeWhile Char.isDigit, rest.dropWhile Char.isDigit)
    | rest => ([], rest)
  let exponent := match rest with
    | 'e' :: rest | 'E' :: rest => isExponent rest
    | rest => rest.isEmpty
  (!(whole ++ places).isEmpty && exponent)
    || ["inf", "infinity", "nan"].contains (String.ofList (cs.map Char.toLower))

/-- Whether a text can be the value of a detail: a pattern, or a number, which is a pattern too
unless it begins with a plus sign. -/
def isValue (cs : List Char) : Bool :=
  Pattern.isPattern cs
    || match cs with
      | '+' :: digits => isUnsigned digits
      | _ => false

/-- The detail that a text asks for; a second equals sign ends the value. -/
def detailTest? (cs : List Char) : Option DetailTest :=
  let name := String.ofList (cs.takeWhile (· != '='))
  match cs.dropWhile (· != '=') with
  | [] => if cs.isEmpty then none else some ⟨name, none⟩
  | _ :: rest =>
    let value := rest.takeWhile (· != '=')
    if isValue value then some ⟨name, some (String.ofList value)⟩ else none

/-- What is written behind an opening bracket: the activity, the text in braces, and the rest behind
the closing bracket. -/
def brackets? (cs : List Char) : Option (List Char × Option (List Char) × List Char) :=
  let activity := cs.takeWhile fun c => c != ']' && c != '\x7b'
  match cs.dropWhile fun c => c != ']' && c != '\x7b' with
  | ']' :: rest => some (activity, none, rest)
  | '\x7b' :: rest =>
    match rest.dropWhile (· != '\x7d') with
    | _ :: ']' :: behind => some (activity, some (rest.takeWhile (· != '\x7d')), behind)
    | _ => none
  | _ => none

/-- The threshold at the end of a directive.  It can be left out, also behind its equals sign, and
blanks may stand there then but for the last case. -/
def threshold? : List Char → Option (Option Threshold)
  | '=' :: [] => some (some (.upTo .trace))
  | '=' :: level => (Threshold.ofText? (String.ofList level)).map some
  | cs => if cs.all Unicode.isBlank then some none else none

/-- The part of a text from one byte up to another. -/
def cut (start stop : Nat) (text : String) : List Char :=
  takeBytes (stop - start) (dropBytes start text.toList)

/-- The directive that a text with brackets writes; the brackets stand behind a word.  What stands
in braces is looked for without the blanks in front of the text, but cut out of the whole text.  An
activity has no name only where there are no braces. -/
def bracketed? (text : String) (word cs : List Char) : Option Directive := do
  let (activity, detail, rest) ← brackets? cs
  let start := if word.isEmpty then none else some (String.ofList word)
  let threshold ← threshold? rest
  match detail with
  | none => return ⟨start, some (String.ofList activity), none, threshold⟩
  | some detail =>
    let offset := byteCount word + byteCount activity + 2
    let test ← detailTest? (cut offset (offset + byteCount detail) text)
    let activity := if activity.isEmpty then none else some (String.ofList activity)
    return ⟨start, activity, some test, threshold⟩

/-- The directive that a text writes.  Blanks in front belong to the beginning of the names, so that
nothing is covered, and no threshold can be set then. -/
def ofText? (text : String) : Option Directive := do
  let cs := text.toList.dropWhile Unicode.isBlank
  guard (cs.head?.any canBegin)
  let word := cs.takeWhile fun c => c != '=' && c != '['
  let directive ← match cs.dropWhile fun c => c != '=' && c != '[' with
    | [] =>
      match Threshold.ofText? text with
      | some threshold => some ⟨none, none, none, some threshold⟩
      | none => some ⟨some text, none, none, none⟩
    | '[' :: rest => bracketed? text word rest
    | rest => (threshold? rest).map (⟨some (String.ofList word), none, none, ·⟩)
  if cs == text.toList then return directive
  else
    guard directive.threshold.isNone
    return { directive with start := some text }

end Directive
end TeachLang
