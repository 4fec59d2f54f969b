import TeachLang.Token.Basic
import TeachLang.Token.Trivia
import TeachLang.Token.Lexeme

/-! # Scanner

Turns a source text into tokens, one at a time.  Trivia never surfaces, and the last token is
the end of input, after which the scanner is exhausted.
-/

namespace TeachLang

structure Scanner where
  source : String
  /-- Where the unread text starts. -/
  position : Position
  unread : List Char
  /-- Whether the end of input has been produced. -/
  finished : Bool
deriving Repr

namespace Scanner

def ofSource (source : String) : Scanner := ⟨source, .start, source.toList, false⟩

def step (s : Scanner) : Token × Scanner :=
  let (gap, rest) := Trivia.split s.unread
  let p := s.position.advanceAll gap
  match rest with
  | [] => (.covering s.source .eof p [], ⟨s.source, p, [], true⟩)
  | c :: cs =>
    let (kind, body, rest) := Lexeme.read c cs
    (.covering s.source kind p (c :: body),
      ⟨s.source, p.advanceAll (c :: body), rest, s.finished⟩)

def next? (s : Scanner) : Option (Token × Scanner) := if s.finished then none else some s.step

/-- How many tokens can still come, at most. -/
def bound (s : Scanner) : Nat := if s.finished then 0 else s.unread.length + 1

theorem step_unread_lt (s : Scanner) (h : s.step.2.finished = false) :
    s.step.2.unread.length < s.unread.length := by
  have happ := congrArg List.length (Trivia.split_append s.unread)
  rcases hs : Trivia.split s.unread with ⟨gap, rest⟩
  simp only [hs, List.length_append] at happ
  cases rest with
  | nil => simp [step, hs] at h
  | cons c cs =>
    have hread := congrArg List.length (Lexeme.read_append c cs)
    rcases hr : Lexeme.read c cs with ⟨kind, body, rest⟩
    simp only [hr, List.length_append] at hread
    simp only [step, hs, hr]
    simp only [List.length_cons] at happ
    omega

theorem bound_lt_of_next? {s r : Scanner} {t : Token} (h : s.next? = some (t, r)) :
    r.bound < s.bound := by
  unfold next? at h
  cases hf : s.finished with
  | true => simp [hf] at h
  | false =>
    obtain rfl : s.step.2 = r := by simp [hf] at h; simp [h]
    cases hr : s.step.2.finished with
    | true => simp [bound, hf, hr]
    | false =>
      have := s.step_unread_lt hr
      simp only [bound, hf, hr, Bool.false_eq_true, ↓reduceIte]
      omega

def tokens (s : Scanner) : List Token :=
  match _h : s.next? with
  | some (t, r) => t :: tokens r
  | none => []
termination_by s.bound
decreasing_by exact bound_lt_of_next? _h

/-- Asks for a token a given number of times. -/
def take (s : Scanner) : Nat → List (Option Token)
  | 0 => []
  | count + 1 =>
    match s.next? with
    | some (t, r) => some t :: r.take count
    | none => none :: s.take count

end Scanner

def lex (source : String) : List Token := (Scanner.ofSource source).tokens

end TeachLang
