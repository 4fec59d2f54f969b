import TeachLang.Proofs.Token.Spelling

/-! # Scanning

The tokens of a source one after the other: the end of input stands last and nowhere
else, and every other token either is illegal or has a text that its kind admits.
-/

namespace TeachLang
namespace Scanner

theorem tokens_of_next?_none {s : Scanner} (h : s.next? = none) : s.tokens = [] := by
  rw [tokens]
  split
  next heq =>
    rw [h] at heq
    cases heq
  next => rfl

theorem tokens_of_next? {s m : Scanner} {t : Token} (h : s.next? = some (t, m)) :
    s.tokens = t :: m.tokens := by
  rw [tokens]
  split
  next heq =>
    rw [h] at heq
    cases heq
    rfl
  next heq =>
    rw [h] at heq
    cases heq

theorem tokens_of_finished {s : Scanner} (h : s.finished) : s.tokens = [] :=
  tokens_of_next?_none (by rw [next?, if_pos h])

theorem tokens_of_unfinished {s : Scanner} (h : s.finished = false) :
    s.tokens = s.step.1 :: s.step.2.tokens :=
  tokens_of_next? (by rw [next?, h, if_neg Bool.false_ne_true])

/-- What a scanner produces before the end of input. -/
def Produces (t : Token) : Prop :=
  t.kind ≠ .eof ∧ (t.kind ≠ .illegalChar → t.kind.Admits t.text.toList)

theorem step_cases (s : Scanner) :
    (s.step.1.kind = .eof ∧ s.step.2.finished) ∨
      (Produces s.step.1 ∧ s.step.2.finished = s.finished) := by
  rcases hs : Trivia.split s.unread with ⟨gap, rest⟩
  cases rest with
  | nil =>
    simp only [step, hs]
    exact .inl ⟨rfl, trivial⟩
  | cons c cs =>
    have hadmits := Lexeme.admits_read c cs
    rcases hr : Lexeme.read c cs with ⟨kind, body, rest⟩
    rw [hr] at hadmits
    simp only [step, hs, hr]
    refine .inr ⟨⟨?_, fun hkind => ?_⟩, trivial⟩
    · rintro (rfl : kind = .eof)
      exact hadmits (by simp)
    · rw [Token.covering, String.toList_ofList]
      exact hadmits hkind

theorem length_tokens_le_bound (s : Scanner) : s.tokens.length ≤ s.bound := by
  fun_induction tokens s with
  | case1 s t r h ih =>
    have hlt := bound_lt_of_next? h
    rw [List.length_cons]
    omega
  | case2 s h => exact Nat.zero_le _

/-- The end of input is the last token and no other. -/
theorem exists_tokens_eq {s : Scanner} (h : s.finished = false) :
    ∃ w eof, s.tokens = w ++ [eof] ∧ eof.kind = .eof ∧ ∀ t ∈ w, Produces t := by
  induction hn : s.bound using Nat.strongRecOn generalizing s with
  | ind n ih =>
    subst hn
    have hlt : s.step.2.bound < s.bound :=
      bound_lt_of_next? (by rw [next?, h, if_neg Bool.false_ne_true])
    rw [tokens_of_unfinished h]
    rcases s.step_cases with ⟨hkind, hfinished⟩ | ⟨hproduces, hfinished⟩
    · rw [tokens_of_finished hfinished]
      exact ⟨[], _, rfl, hkind, by simp⟩
    · obtain ⟨w, eof, hw, hkind, hall⟩ := ih _ hlt (hfinished.trans h) rfl
      rw [hw]
      exact ⟨s.step.1 :: w, eof, rfl, hkind, List.forall_mem_cons.2 ⟨hproduces, hall⟩⟩

end Scanner

theorem lex_eq_cons (source : String) : lex source =
    (Scanner.ofSource source).step.1 :: (Scanner.ofSource source).step.2.tokens :=
  Scanner.tokens_of_unfinished rfl

/-- The tokens of a source end with the end of input, which comes up nowhere else. -/
theorem exists_lex_eq (source : String) :
    ∃ w eof, lex source = w ++ [eof] ∧ eof.kind = .eof ∧ ∀ t ∈ w, Scanner.Produces t :=
  Scanner.exists_tokens_eq rfl

end TeachLang
