import TeachLang.Text.Unicode.Alphanumeric
import TeachLang.Text.Unicode.Blank

/-! # Patterns

Regular expressions, as far as it has to be known whether a text is one.  A text is followed from
left to right, by one element at a time.

A pattern works on all characters, or in parts on ASCII alone.  The first way knows of no classes of
characters with a name, no words and no cases of letters; the second way knows of these, and of
nothing that could also be a character outside of ASCII.
-/

namespace TeachLang.Pattern

/-- How the elements of a part of a pattern are taken. -/
structure Modes where
  /-- The cases of letters do not matter. -/
  anyCase : Bool
  /-- The part works on all characters. -/
  unicode : Bool
  /-- Blanks and comments do not count. -/
  spaced : Bool
deriving DecidableEq, Repr

inductive Atom where
  | char (c : Char)
  /-- A character that is written as the number of a byte. -/
  | byte (c : Char)
  /-- A class of characters with a name, or all other characters. -/
  | named (negated : Bool)
  /-- An end of the text or of a line. -/
  | edge
  /-- An end of a word. -/
  | wordEdge
deriving DecidableEq, Repr

structure Point where
  modes : Modes
  /-- The modes outside of each open group, the innermost group first. -/
  outer : List Modes
  /-- The names of groups. -/
  names : List (List Char)
  /-- Whether something stands before the place that can be repeated. -/
  repeatable : Bool
  /-- How many classes of characters are open. -/
  classes : Nat
deriving DecidableEq, Repr

namespace Modes

def initial : Modes := ⟨false, true, false⟩

/-- The letters that set modes, and the hyphen that unsets those behind it. -/
def flags : List Char := ['i', 'm', 's', 'U', 'u', 'x', 'R', '-']

/-- Whether some characters are flags: each is there once, and a hyphen has some behind it. -/
def areFlags (cs : List Char) : Bool :=
  cs.all flags.contains && decide cs.Nodup && cs.getLast? != some '-'

def set (m : Modes) (flags : List Char) : Modes :=
  let on := flags.takeWhile (· != '-')
  let off := flags.dropWhile (· != '-')
  let mode (old : Bool) (flag : Char) : Bool := (old || on.contains flag) && !off.contains flag
  ⟨mode m.anyCase 'i', mode m.unicode 'u', mode m.spaced 'x'⟩

/-- Leaves out what does not count at the beginning of a text: some characters, and blanks and
comments; `comment` says whether the text begins inside of a comment. -/
def dropFrom (m : Modes) (also : Char → Bool) : Bool → List Char → List Char
  | _, [] => []
  | true, c :: cs => m.dropFrom also (c != '\n') cs
  | false, c :: cs =>
    if also c || (m.spaced && Unicode.isBlank c) then m.dropFrom also false cs
    else if m.spaced && c == '#' then m.dropFrom also true cs
    else c :: cs

def skip (m : Modes) (cs : List Char) : List Char := m.dropFrom (fun _ => false) false cs

/-- Whether a character can be written.  The cases of letters are known in ASCII only. -/
def hasChars (m : Modes) : Bool := !(m.anyCase && m.unicode)

/-- Whether a character can be a member of a class. -/
def hasMember (m : Modes) (c : Char) : Bool := m.hasChars && (m.unicode || c.toNat < 0x80)

/-- Whether an element can stand outside of classes. -/
def admits (m : Modes) : Atom → Bool
  | .char _ => m.hasChars
  | .byte c => m.hasMember c
  | .named negated => !(m.unicode || negated)
  | .edge => true
  | .wordEdge => !m.unicode

def admitsMember (m : Modes) : Atom → Bool
  | .char c | .byte c => m.hasMember c
  | .named negated => !(m.unicode || negated)
  | .edge | .wordEdge => false

def admitsRange (m : Modes) : Atom → Atom → Bool
  | .char a, .char b | .char a, .byte b | .byte a, .char b | .byte a, .byte b =>
    m.hasMember a && m.hasMember b && a ≤ b
  | _, _ => false

end Modes

def hexDigit? (c : Char) : Option Nat :=
  if c.isDigit then some (c.toNat - '0'.toNat)
  else if 'a' ≤ c ∧ c ≤ 'f' then some (c.toNat - 'a'.toNat + 10)
  else if 'A' ≤ c ∧ c ≤ 'F' then some (c.toNat - 'A'.toNat + 10)
  else none

/-- The character whose code point some hexadecimal digits write, behind a value that has been read,
and the text behind the digits. -/
def hexChar? (m : Modes) : Nat → Nat → List Char → Option (Char × List Char)
  | 0, value, cs => if value.isValidChar then some (Char.ofNat value, cs) else none
  | digits + 1, value, cs => do
    match m.skip cs with
    | c :: cs => hexChar? m digits (16 * value + (← hexDigit? c)) cs
    | [] => none

/-- The element of a backslash and a character that needs nothing more.  The classes by properties of
characters are not known. -/
def escaped? (c : Char) : Option Atom :=
  if ['d', 's', 'w'].contains c then some (.named false)
  else if ['D', 'S', 'W'].contains c then some (.named true)
  else if ['A', 'z'].contains c then some .edge
  else if ['b', 'B', '<', '>'].contains c then some .wordEdge
  else
    match c with
    | 'a' => some (.char '\x07')
    | 'f' => some (.char '\x0c')
    | 'n' => some (.char '\n')
    | 'r' => some (.char '\r')
    | 't' => some (.char '\t')
    | 'v' => some (.char '\x0b')
    | _ => if 0x80 ≤ c.toNat || c.isAlphanum then none else some (.char c)

/-- The element behind a backslash, and the rest of the text. -/
def escape? (m : Modes) : List Char → Option (Atom × List Char)
  | 'x' :: cs => (hexChar? m 2 0 cs).map fun (c, cs) => (.byte c, cs)
  | 'u' :: cs => (hexChar? m 4 0 cs).map fun (c, cs) => (.char c, cs)
  | 'U' :: cs => (hexChar? m 8 0 cs).map fun (c, cs) => (.char c, cs)
  | c :: cs => (escaped? c).map (·, cs)
  | [] => none

def member? (m : Modes) : List Char → Option (Atom × List Char)
  | '\\' :: cs => escape? m cs
  | c :: cs => some (.char c, cs)
  | [] => none

def asciiClasses : List String :=
  ["alnum", "alpha", "ascii", "blank", "cntrl", "digit", "graph", "lower", "print", "punct",
   "space", "upper", "word", "xdigit"]

/-- The class of ASCII behind its opening bracket: whether all other characters are meant, and the
rest of the text. -/
def asciiClass? : List Char → Option (Bool × List Char)
  | ':' :: cs =>
    let (negated, cs) := match cs with
      | '^' :: cs => (true, cs)
      | cs => (false, cs)
    match cs.dropWhile (· != ':') with
    | ':' :: ']' :: rest =>
      if asciiClasses.contains (String.ofList (cs.takeWhile (· != ':'))) then some (negated, rest)
      else none
    | _ => none
  | _ => none

/-- Whether a character can stand in the name of a group. -/
def isNameChar (c : Char) : Bool :=
  Unicode.isAlphanumeric c || ['_', '.', '[', ']'].contains c

def isName : List Char → Bool
  | [] => false
  | c :: cs => (c == '_' || Unicode.isAlphabetic c) && cs.all isNameChar

namespace Point

def initial : Point := ⟨.initial, [], [], false, 0⟩

def enter (p : Point) (modes : Modes) : Point :=
  { p with modes := modes, outer := p.modes :: p.outer, repeatable := false }

def leave? (p : Point) : Option Point :=
  match p.outer with
  | modes :: outer => some { p with modes := modes, outer := outer, repeatable := true }
  | [] => none

def atom? (p : Point) (a : Atom) : Option Point :=
  if p.modes.admits a then some { p with repeatable := true } else none

/-- Into a group with a name that no other group has; the text begins with the name. -/
def namedGroup? (p : Point) (cs : List Char) : Option (Point × List Char) :=
  let name := cs.takeWhile (· != '>')
  match cs.dropWhile (· != '>') with
  | _ :: rest =>
    if isName name && !p.names.contains name then
      some ({ p.enter p.modes with names := name :: p.names }, rest)
    else none
  | [] => none

/-- Behind flags that hold for the rest of a group, or into a group that they hold for; the text
begins with the flags. -/
def flags? (p : Point) (cs : List Char) : Option (Point × List Char) :=
  let flags := cs.takeWhile fun c => c != ':' && c != ')'
  let modes := p.modes.set flags
  if !Modes.areFlags flags then none
  else
    match cs.dropWhile fun c => c != ':' && c != ')' with
    | ':' :: rest => some (p.enter modes, rest)
    | _ :: rest =>
      if flags.isEmpty then none else some ({ p with modes := modes, repeatable := false }, rest)
    | [] => none

/-- Into a group; the text stands behind the opening parenthesis. -/
def group? (p : Point) (cs : List Char) : Option (Point × List Char) :=
  match p.modes.skip cs with
  | '?' :: 'P' :: '<' :: cs => p.namedGroup? cs
  | '?' :: '<' :: cs => p.namedGroup? cs
  | '?' :: cs => p.flags? cs
  | cs => some (p.enter p.modes, cs)

/-- Into a class; the text stands behind the opening bracket.  Hyphens and a closing bracket are
members at the beginning. -/
def class? (p : Point) (cs : List Char) : Option (Point × List Char) :=
  let m := p.modes
  let (negated, cs) := match m.skip cs with
    | '^' :: cs => (true, m.skip cs)
    | cs => (false, cs)
  let p := { p with classes := p.classes + 1 }
  if negated && !m.unicode then none
  else
    match cs with
    | '-' :: cs => if m.hasChars then some (p, m.dropFrom (· == '-') false cs) else none
    | ']' :: cs => if m.hasChars then some (p, cs) else none
    | cs => some (p, cs)

/-- Behind a member of a class or a range; the text begins with it.  A hyphen before the end of a
class or before another hyphen makes no range. -/
def range? (p : Point) (cs : List Char) : Option (Point × List Char) := do
  let m := p.modes
  let (low, rest) ← member? m cs
  let single := if m.admitsMember low then some (p, m.skip rest) else none
  match m.skip rest with
  | '-' :: rest =>
    match m.skip rest with
    | ']' :: _ => single
    | '-' :: _ => single
    | rest =>
      let (high, rest) ← member? m rest
      if m.admitsRange low high then some (p, rest) else none
  | _ => single

def stepBody (p : Point) (c : Char) (cs : List Char) : Option (Point × List Char) :=
  match c with
  | '(' => p.group? cs
  | ')' => p.leave?.map (·, cs)
  | '[' => p.class? cs
  | '|' => some ({ p with repeatable := false }, cs)
  | '*' | '+' | '?' => if p.repeatable then some (p, cs) else none
  | '\x7b' => none
  | '.' => if p.modes.unicode then some ({ p with repeatable := true }, cs) else none
  | '^' | '$' => (p.atom? .edge).map (·, cs)
  | '\\' => do
    let (a, cs) ← escape? p.modes cs
    return (← p.atom? a, cs)
  | _ => (p.atom? (.char c)).map (·, cs)

/-- One element further in a class.  Classes are joined by operators of two equal characters. -/
def stepClass (p : Point) (c : Char) (cs : List Char) : Option (Point × List Char) :=
  match c, cs with
  | '[', cs =>
    match asciiClass? cs with
    | some (negated, rest) =>
      if p.modes.hasChars && (p.modes.unicode || !negated) then some (p, rest) else none
    | none => p.class? cs
  | ']', cs => some ({ p with classes := p.classes - 1, repeatable := true }, cs)
  | '&', '&' :: cs => some (p, cs)
  | '-', '-' :: cs => some (p, cs)
  | '~', '~' :: cs => some (p, cs)
  | c, cs => p.range? (c :: cs)

def step (p : Point) (c : Char) (cs : List Char) : Option (Point × List Char) :=
  if p.classes = 0 then p.stepBody c cs else p.stepClass c cs

/-- Whether a pattern can go on with a text and end; there are no more elements than characters. -/
def follow : Nat → Point → List Char → Bool
  | elements, p, cs =>
    match elements, p.modes.skip cs with
    | _, [] => p.classes == 0 && p.outer.isEmpty
    | 0, _ :: _ => false
    | elements + 1, c :: cs =>
      match p.step c cs with
      | some (p, cs) => follow elements p cs
      | none => false

end Point

def isPattern (text : List Char) : Bool := Point.initial.follow text.length text

end TeachLang.Pattern
