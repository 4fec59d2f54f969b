import Mathlib.Data.List.TakeWhile
import TeachLang.Token.Trivia

/-! # Gaps

What may stand between tokens, stated without the scanner: blank characters, comments up to
the end of their line and comments between their brackets.  Splitting the trivia off a text
takes a gap, and leaves nothing in front that could belong to it.
-/

namespace TeachLang

/-- The trivia in front of a text.  Where a line comment ends, a newline or the end of the whole
text follows, and a block comment ends at the first closing. -/
inductive Gap (rest : List Char) : List Char → Prop
  | nil : Gap rest []
  | blank {c : Char} {cs : List Char} (blank : Unicode.isBlank c) (more : Gap rest cs) :
      Gap rest (c :: cs)
  | lineComment {body cs : List Char} (newline : '\n' ∉ body)
      (ends : ∀ c ∈ (cs ++ rest).head?, c = '\n') (more : Gap rest cs) :
      Gap rest ('/' :: '/' :: (body ++ cs))
  | blockComment {body cs : List Char} (closing : ¬ ['*', '/'] <:+: body) (more : Gap rest cs) :
      Gap rest ('/' :: '*' :: (body ++ '*' :: '/' :: cs))

namespace Trivia

/-- A block comment ends at its first closing. -/
theorem closeComment?_eq_some {cs body rest : List Char}
    (h : closeComment? cs = some (body, rest)) :
    ∃ inner, body = inner ++ ['*', '/'] ∧ ¬ ['*', '/'] <:+: inner := by
  fun_induction closeComment? cs generalizing body rest with
  | case1 =>
    cases h
    exact ⟨[], rfl, by simp⟩
  | case2 c cs hclosing ih =>
    obtain ⟨⟨body, rest⟩, hrest, heq⟩ := Option.map_eq_some_iff.1 h
    cases heq
    obtain ⟨inner, rfl, hinner⟩ := ih hrest
    refine ⟨c :: inner, rfl, ?_⟩
    rw [List.infix_cons_iff, not_or]
    refine ⟨?_, hinner⟩
    rintro ⟨more, hmore⟩
    cases hmore
    exact hclosing _ rfl (closeComment?_append hrest).symm
  | case3 => simp at h

/-- What never closes a block comment has no closing anywhere. -/
theorem not_closing_of_closeComment? {cs : List Char} (h : closeComment? cs = none) :
    ¬ ['*', '/'] <:+: cs := by
  fun_induction closeComment? cs with
  | case1 => simp at h
  | case2 c cs hclosing ih =>
    rw [List.infix_cons_iff, not_or]
    refine ⟨?_, ih (Option.map_eq_none_iff.1 h)⟩
    rintro ⟨more, hmore⟩
    cases hmore
    exact hclosing _ rfl rfl
  | case3 => simp

/-- A piece of trivia and the gap behind it are one gap. -/
theorem gap_piece_append {cs piece gap rest : List Char}
    (h : piece? cs = some (piece, gap ++ rest)) (hgap : Gap rest gap) :
    Gap rest (piece ++ gap) := by
  unfold piece? at h
  split at h
  next cs =>
    simp only [Option.some.injEq, Prod.mk.injEq] at h
    obtain ⟨rfl, hdrop⟩ := h
    refine .lineComment (fun hmem => ?_) (fun c hc => ?_) hgap
    · simpa using List.mem_takeWhile_imp hmem
    · rw [← hdrop] at hc
      have hhead := List.head?_dropWhile_not (· != '\n') cs
      rw [Option.mem_def.1 hc] at hhead
      simpa using hhead
  next cs =>
    obtain ⟨⟨body, after⟩, hclose, heq⟩ := Option.map_eq_some_iff.1 h
    obtain ⟨inner, rfl, hinner⟩ := closeComment?_eq_some hclose
    cases heq
    rw [List.cons_append, List.cons_append, List.append_assoc]
    exact .blockComment hinner hgap
  next c cs _ _ =>
    split at h
    next hblank =>
      cases h
      exact .blank hblank hgap
    next => cases h
  next => cases h

/-- What is split off a text is a gap. -/
theorem gap_split (cs : List Char) : Gap (split cs).2 (split cs).1 := by
  fun_induction split cs with
  | case1 cs piece rest h gap rest' hs ih =>
    have happ := split_append rest
    rw [hs] at ih happ
    rw [← happ] at h
    exact gap_piece_append h ih
  | case2 => exact .nil

/-- What is left of a text begins with no trivia. -/
theorem piece?_split (cs : List Char) : piece? (split cs).2 = none := by
  fun_induction split cs with
  | case1 cs piece rest h gap rest' hs ih =>
    rw [hs] at ih
    exact ih
  | case2 cs h => exact h

end Trivia
end TeachLang
