import TeachLang.Text.Unicode.Blank

/-! # Trivia

What stands between tokens: blank characters, line comments and closed block comments.  A line
comment ends before its newline; a block comment that is never closed is no trivia.
-/

namespace TeachLang.Trivia

/-- Splits what follows the opening of a block comment after the first closing. -/
def closeComment? : List Char → Option (List Char × List Char)
  | '*' :: '/' :: rest => some (['*', '/'], rest)
  | c :: rest => (closeComment? rest).map fun (body, rest) => (c :: body, rest)
  | [] => none

/-- Splits a text after the piece of trivia that it starts with. -/
def piece? : List Char → Option (List Char × List Char)
  | '/' :: '/' :: rest =>
    some ('/' :: '/' :: rest.takeWhile (· != '\n'), rest.dropWhile (· != '\n'))
  | '/' :: '*' :: rest =>
    (closeComment? rest).map fun (body, rest) => ('/' :: '*' :: body, rest)
  | c :: rest => if Unicode.isBlank c then some ([c], rest) else none
  | [] => none

theorem closeComment?_append {cs body rest : List Char} (h : closeComment? cs = some (body, rest)) :
    body ++ rest = cs := by
  fun_induction closeComment? cs generalizing body rest with
  | case1 =>
    cases h
    rfl
  | case2 c cs _ ih =>
    obtain ⟨⟨b, r⟩, hb, heq⟩ := Option.map_eq_some_iff.1 h
    cases heq
    simp [ih hb]
  | case3 => simp at h

theorem piece?_append {cs piece rest : List Char} (h : piece? cs = some (piece, rest)) :
    piece ++ rest = cs := by
  unfold piece? at h
  split at h
  · cases h
    simp [List.takeWhile_append_dropWhile]
  · obtain ⟨⟨b, r⟩, hb, heq⟩ := Option.map_eq_some_iff.1 h
    cases heq
    simp [closeComment?_append hb]
  · split at h
    · cases h
      rfl
    · simp at h
  · simp at h

theorem piece?_ne_nil {cs piece rest : List Char} (h : piece? cs = some (piece, rest)) :
    piece ≠ [] := by
  unfold piece? at h
  split at h
  · cases h
    simp
  · obtain ⟨⟨b, r⟩, _, heq⟩ := Option.map_eq_some_iff.1 h
    cases heq
    simp
  · split at h
    · cases h
      simp
    · simp at h
  · simp at h

theorem piece?_length_lt {cs piece rest : List Char} (h : piece? cs = some (piece, rest)) :
    rest.length < cs.length := by
  have hpos := List.length_pos_iff.2 (piece?_ne_nil h)
  rw [← piece?_append h, List.length_append]
  omega

/-- Splits a text after all the trivia that it starts with. -/
def split (cs : List Char) : List Char × List Char :=
  match _h : piece? cs with
  | some (piece, rest) =>
    let (gap, rest) := split rest
    (piece ++ gap, rest)
  | none => ([], cs)
termination_by cs.length
decreasing_by exact piece?_length_lt _h

theorem split_append (cs : List Char) : (split cs).1 ++ (split cs).2 = cs := by
  fun_induction split cs with
  | case1 cs piece rest h gap rest' hs ih =>
    simp only [hs] at ih
    simp [ih, piece?_append h]
  | case2 cs h => rfl

end TeachLang.Trivia
