import Mathlib.Data.List.Infix
import TeachLang.Diagnostic.Window
import TeachLang.Proofs.Text.Bytes

/-! # Lines of a text

A text is its lines with newlines between them.  A line starts behind the lines in front of it, and
the newlines in what a text starts with tell how many lines it has been through.
-/

namespace TeachLang

/-- Lines with a newline between one and the next. -/
def joined (lines : List (List Char)) : List Char := ['\n'].intercalate lines

def ended (lines : List (List Char)) : List Char := lines.flatMap (· ++ ['\n'])

@[simp] theorem ended_nil : ended [] = [] := rfl

@[simp] theorem ended_cons (l : List Char) (ls : List (List Char)) :
    ended (l :: ls) = l ++ '\n' :: ended ls := by
  simp [ended]

@[simp] theorem joined_singleton (l : List Char) : joined [l] = l := by simp [joined]

theorem joined_append (as : List (List Char)) {bs : List (List Char)} (h : bs ≠ []) :
    joined (as ++ bs) = ended as ++ joined bs := by
  induction as with
  | nil => rfl
  | cons a as ih =>
    obtain ⟨c, cs, hc⟩ := List.exists_cons_of_ne_nil (List.append_ne_nil_of_right_ne_nil as h)
    rw [ended_cons, List.append_assoc, List.cons_append, List.cons_append, ← ih, hc, joined,
      List.intercalate_cons_cons]
    simp [joined]

theorem ended_eq {ls : List (List Char)} (h : ls ≠ []) : ended ls = joined ls ++ ['\n'] := by
  obtain ⟨as, l, rfl⟩ := (List.eq_nil_or_concat ls).resolve_left h
  rw [List.concat_eq_append, joined_append as (List.cons_ne_nil l []), joined_singleton]
  simp [ended]

theorem byteCount_ended {ls : List (List Char)} (h : ls ≠ []) :
    byteCount (ended ls) = byteCount (joined ls) + 1 := by
  rw [ended_eq h, byteCount_append]
  rfl

theorem joined_splitOn (cs : List Char) : joined (cs.splitOn '\n') = cs :=
  List.intercalate_splitOn '\n'

theorem newline_not_mem_of_mem_splitOn {cs l : List Char} (h : l ∈ cs.splitOn '\n') :
    '\n' ∉ l := by
  rw [List.splitOn_eq_splitOnP] at h
  induction cs generalizing l with
  | nil =>
    rw [List.splitOnP_nil, List.mem_singleton] at h
    simp [h]
  | cons c cs ih =>
    rw [List.splitOnP_cons_eq_if_modifyHead] at h
    split at h
    next =>
      rcases List.mem_cons.1 h with rfl | h
      · exact List.not_mem_nil
      · exact ih h
    next hc =>
      obtain ⟨part, parts, hparts⟩ :=
        List.exists_cons_of_ne_nil (List.splitOnP_ne_nil (· == '\n') cs)
      rw [hparts] at ih h
      rcases List.mem_cons.1 h with rfl | h
      · have hne : '\n' ≠ c := fun heq => hc (beq_iff_eq.2 heq.symm)
        exact mt List.mem_cons.1 (not_or.2 ⟨hne, ih List.mem_cons_self⟩)
      · exact ih (List.mem_cons_of_mem _ h)

theorem newlineStops_append {l : List Char} (h : '\n' ∉ l) (offset : Nat) (cs : List Char) :
    newlineStops offset (l ++ cs) = newlineStops (offset + byteCount l) cs := by
  induction l generalizing offset with
  | nil => rfl
  | cons c l ih =>
    obtain ⟨hc, hl⟩ := not_or.1 (mt List.mem_cons.2 h)
    rw [List.cons_append, newlineStops, if_neg (Ne.symm hc), ih hl, byteCount_cons, Nat.add_assoc]

section

variable {lines : List (List Char)}

theorem getElem?_newlineStops (hfree : ∀ l ∈ lines, '\n' ∉ l) (hne : lines ≠ []) (offset k : Nat) :
    (newlineStops offset (joined lines))[k]? = if k + 1 < lines.length then
      some (offset + byteCount (ended (lines.take (k + 1)))) else none := by
  induction lines generalizing offset k with
  | nil => exact absurd rfl hne
  | cons l ls ih =>
    obtain ⟨hl, hls⟩ := List.forall_mem_cons.1 hfree
    rcases eq_or_ne ls [] with rfl | hls'
    · have hstops := newlineStops_append hl offset []
      rw [List.append_nil] at hstops
      simp [hstops, newlineStops]
    · have hjoined : joined (l :: ls) = l ++ '\n' :: joined ls := by
        simpa using joined_append [l] hls'
      rw [hjoined, newlineStops_append hl, newlineStops, if_pos rfl]
      cases k with
      | zero =>
        have hlength := List.length_pos_iff.2 hls'
        simp [hlength, Nat.add_assoc]
      | succ k =>
        have hlength : k + 1 + 1 < (l :: ls).length ↔ k + 1 < ls.length := Nat.succ_lt_succ_iff
        rw [List.getElem?_cons_succ, ih hls hls', List.take_succ_cons, ended_cons]
        simp only [hlength, byteCount_append, byteCount_cons, Nat.add_assoc]

theorem count_ended (hfree : ∀ l ∈ lines, '\n' ∉ l) :
    (ended lines).count '\n' = lines.length := by
  induction lines with
  | nil => rfl
  | cons l ls ih =>
    obtain ⟨hl, hls⟩ := List.forall_mem_cons.1 hfree
    simp [List.count_append, List.count_eq_zero_of_not_mem hl, ih hls]

theorem count_joined (hfree : ∀ l ∈ lines, '\n' ∉ l) (hne : lines ≠ []) :
    (joined lines).count '\n' + 1 = lines.length := by
  rw [← count_ended hfree, ended_eq hne]
  simp

theorem joined_take {i j : Nat} (hij : i < j) (hj : j ≤ lines.length) :
    joined (lines.take j) = ended (lines.take i) ++ joined ((lines.take j).drop i) := by
  have hmiddle : (lines.take j).drop i ≠ [] := by
    rw [← List.length_pos_iff, List.length_drop, List.length_take]
    omega
  have htake := List.take_append_drop i (lines.take j)
  rw [List.take_take, Nat.min_eq_left (Nat.le_of_lt hij)] at htake
  rw [← joined_append _ hmiddle, htake]

/-- Lines in the middle stand behind the lines in front of them, and in front of a newline or the
end of the text. -/
theorem exists_joined_eq {i j : Nat} (hij : i < j) (hj : j ≤ lines.length) :
    ∃ rest, joined lines = ended (lines.take i) ++ (joined ((lines.take j).drop i) ++ rest) ∧
      (∀ c ∈ rest.head?, c = '\n') ∧ (j = lines.length → rest = []) := by
  rcases Nat.lt_or_eq_of_le hj with hlt | rfl
  · have hdrop : lines.drop j ≠ [] := by simpa using hlt
    have htake : lines.take j ≠ [] := by
      rw [← List.length_pos_iff, List.length_take]
      omega
    refine ⟨'\n' :: joined (lines.drop j), ?_, by simp, fun heq => absurd heq (Nat.ne_of_lt hlt)⟩
    have hsplit := joined_append (lines.take j) hdrop
    rw [List.take_append_drop, ended_eq htake, joined_take hij hj] at hsplit
    simpa using hsplit
  · refine ⟨[], ?_, by simp, fun _ => rfl⟩
    rw [List.append_nil, ← joined_take hij hj, List.take_length]

/-- What a text starts with has been through as many lines as it has newlines. -/
theorem ended_prefix (hfree : ∀ l ∈ lines, '\n' ∉ l) (hne : lines ≠ []) {cs : List Char} {i : Nat}
    (hcs : cs <+: joined lines) (hi : i ≤ cs.count '\n') : ended (lines.take i) <+: cs := by
  have hcount := count_joined hfree hne
  have hle := hcs.count_le '\n'
  obtain ⟨rest, hrest, -⟩ := exists_joined_eq (Nat.lt_succ_self i) (by omega : i + 1 ≤ lines.length)
  have hprefix : ended (lines.take i) <+: joined lines := ⟨_, hrest.symm⟩
  rcases List.prefix_or_prefix_of_prefix hprefix hcs with h | h
  · exact h
  · rcases eq_or_ne (lines.take i) [] with htake | htake
    · simp [htake]
    · have hfree' : ∀ l ∈ lines.take i, '\n' ∉ l := fun l hl => hfree l (List.mem_of_mem_take hl)
      rw [ended_eq htake] at h ⊢
      rcases List.prefix_concat_iff.1 h with rfl | h
      · exact List.prefix_rfl
      · -- in front of the last of these newlines there is one newline less
        have hshorter := h.count_le '\n'
        have htaken := count_joined hfree' htake
        have hlength := List.length_take_le i lines
        omega

theorem prefix_joined (hfree : ∀ l ∈ lines, '\n' ∉ l) {cs : List Char} {j : Nat}
    (hcs : cs <+: joined lines) (hj : cs.count '\n' < j) (hle : j ≤ lines.length) :
    cs <+: joined (lines.take j) := by
  obtain ⟨rest, hrest, hhead, -⟩ := exists_joined_eq (Nat.zero_lt_of_lt hj) hle
  rw [List.take_zero, ended_nil, List.nil_append, List.drop_zero] at hrest
  have hprefix : joined (lines.take j) <+: joined lines := ⟨_, hrest.symm⟩
  rcases List.prefix_or_prefix_of_prefix hcs hprefix with h | ⟨more, rfl⟩
  · exact h
  · rw [hrest, List.prefix_append_right_inj] at hcs
    cases more with
    | nil => rw [List.append_nil]
    | cons c more =>
      -- what goes on behind these lines goes on with a newline
      obtain ⟨after, rfl⟩ := hcs
      obtain rfl := hhead c rfl
      have hfree' : ∀ l ∈ lines.take j, '\n' ∉ l := fun l hl => hfree l (List.mem_of_mem_take hl)
      have htake : lines.take j ≠ [] := by
        rw [← List.length_pos_iff, List.length_take]
        omega
      have hcount := count_joined hfree' htake
      rw [List.length_take, Nat.min_eq_left hle] at hcount
      rw [List.count_append, List.count_cons_self] at hj
      omega

end

def sourceLines (source : String) : List (List Char) := source.toList.splitOn '\n'

section

variable (source : String)

theorem joined_sourceLines : joined (sourceLines source) = source.toList := joined_splitOn _

theorem sourceLines_ne_nil : sourceLines source ≠ [] := List.splitOn_ne_nil _ _

theorem newline_not_mem_sourceLines : ∀ l ∈ sourceLines source, '\n' ∉ l :=
  fun _ => newline_not_mem_of_mem_splitOn

theorem length_sourceLines : (sourceLines source).length = source.toList.count '\n' + 1 := by
  rw [← joined_sourceLines source,
    count_joined (newline_not_mem_sourceLines source) (sourceLines_ne_nil source)]

theorem getElem?_lineStarts (k : Nat) : (lineStarts source)[k]? =
    if k < (sourceLines source).length then
      some (byteCount (ended ((sourceLines source).take k))) else none := by
  cases k with
  | zero =>
    have hpos := List.length_pos_iff.2 (sourceLines_ne_nil source)
    simp [lineStarts, hpos]
  | succ k =>
    have hstops := getElem?_newlineStops (newline_not_mem_sourceLines source)
      (sourceLines_ne_nil source) 0 k
    rw [joined_sourceLines] at hstops
    rw [lineStarts, List.getElem?_cons_succ, hstops]
    simp only [Nat.zero_add]

end
end TeachLang
