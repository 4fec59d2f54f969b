import Mathlib.Data.List.DropRight
import TeachLang.Text.Position
import TeachLang.Text.Span

/-! # Places in a text

A text that is split between two characters.  The bytes in front of the split give back the
two parts, and the place there counts the lines and the columns in front of it.
-/

namespace TeachLang

@[simp] theorem byteCount_nil : byteCount [] = 0 := rfl

@[simp] theorem byteCount_cons (c : Char) (cs : List Char) :
    byteCount (c :: cs) = c.utf8Size + byteCount cs := rfl

@[simp] theorem byteCount_append (before after : List Char) :
    byteCount (before ++ after) = byteCount before + byteCount after := by
  induction before with
  | nil => simp
  | cons c before ih => simp [ih, Nat.add_assoc]

theorem byteCount_pos {cs : List Char} (h : cs ≠ []) : 0 < byteCount cs := by
  obtain ⟨c, cs, rfl⟩ := List.exists_cons_of_ne_nil h
  have hc := c.utf8Size_pos
  rw [byteCount_cons]
  omega

theorem utf8ByteSize_ofList (cs : List Char) : (String.ofList cs).utf8ByteSize = byteCount cs := by
  induction cs with
  | nil => rfl
  | cons c cs ih =>
    rw [String.ofList_cons, String.utf8ByteSize_append, String.utf8ByteSize_singleton, ih,
      byteCount_cons]

theorem byteCount_toList (text : String) : byteCount text.toList = text.utf8ByteSize := by
  rw [← utf8ByteSize_ofList, String.ofList_toList]

section

variable (c : Char) (cs : List Char) (bytes : Nat)

theorem exists_utf8Size_add_eq : ∃ n, c.utf8Size + bytes = n + 1 ∧ n + 1 - c.utf8Size = bytes := by
  have hc := c.utf8Size_pos
  exact ⟨c.utf8Size + bytes - 1, by omega, by omega⟩

theorem isBoundary_cons : isBoundary (c :: cs) (c.utf8Size + bytes) = isBoundary cs bytes := by
  obtain ⟨n, hn, hrest⟩ := exists_utf8Size_add_eq c bytes
  have hle : c.utf8Size ≤ n + 1 := by omega
  simp only [hn, isBoundary, hrest, hle, decide_true, Bool.true_and]

theorem takeBytes_cons : takeBytes (c.utf8Size + bytes) (c :: cs) = c :: takeBytes bytes cs := by
  obtain ⟨n, hn, hrest⟩ := exists_utf8Size_add_eq c bytes
  simp only [hn, takeBytes, hrest]

theorem dropBytes_cons : dropBytes (c.utf8Size + bytes) (c :: cs) = dropBytes bytes cs := by
  obtain ⟨n, hn, hrest⟩ := exists_utf8Size_add_eq c bytes
  simp only [hn, dropBytes, hrest]

end

section

variable (before after : List Char)

theorem isBoundary_append : isBoundary (before ++ after) (byteCount before) := by
  induction before with
  | nil => cases after <;> rfl
  | cons c before ih => rw [byteCount_cons, List.cons_append, isBoundary_cons, ih]

theorem takeBytes_append : takeBytes (byteCount before) (before ++ after) = before := by
  induction before with
  | nil => cases after <;> rfl
  | cons c before ih => rw [byteCount_cons, List.cons_append, takeBytes_cons, ih]

theorem dropBytes_append : dropBytes (byteCount before) (before ++ after) = after := by
  induction before with
  | nil => cases after <;> rfl
  | cons c before ih => rw [byteCount_cons, List.cons_append, dropBytes_cons, ih]

end

/-- The characters of a span between two splits of its source. -/
theorem Span.chars_eq {source : String} {before text after : List Char}
    (h : source.toList = before ++ (text ++ after)) :
    (⟨source, byteCount before, byteCount before + byteCount text⟩ : Span).chars = text := by
  rw [chars, h, dropBytes_append, Nat.add_sub_cancel_left, takeBytes_append]

/-- A span between two splits of its source is good. -/
theorem Span.new?_eq_some {source : String} {before text after : List Char}
    (h : source.toList = before ++ (text ++ after)) :
    new? source (byteCount before) (byteCount before + byteCount text) =
      some ⟨source, byteCount before, byteCount before + byteCount text⟩ := by
  have hstart := isBoundary_append before (text ++ after)
  have hstop := isBoundary_append (before ++ text) after
  rw [byteCount_append, List.append_assoc] at hstop
  rw [new?, h, hstart, hstop, if_pos (by simp)]

namespace Position

theorem offset_advanceAll (p : Position) (cs : List Char) :
    (p.advanceAll cs).offset = p.offset + byteCount cs := by
  induction cs generalizing p with
  | nil => rfl
  | cons c cs ih =>
    rw [advanceAll_cons, ih, byteCount_cons, ← Nat.add_assoc]
    by_cases hc : c = '\n' <;> simp [advance, hc]

theorem line_advanceAll (p : Position) (cs : List Char) :
    (p.advanceAll cs).line = p.line + cs.count '\n' := by
  induction cs generalizing p with
  | nil => rfl
  | cons c cs ih =>
    rw [advanceAll_cons, ih, List.count_cons]
    by_cases hc : c = '\n'
    · simp [advance, hc]
      omega
    · simp [advance, hc]

/-- Columns count the characters behind the last newline. -/
theorem column_advanceAll_start (cs : List Char) :
    (start.advanceAll cs).column = 1 + (cs.rtakeWhile (· != '\n')).length := by
  induction cs using List.reverseRecOn with
  | nil => rfl
  | append_singleton cs c ih =>
    rw [advanceAll_append, advanceAll_cons, advanceAll_nil]
    by_cases hc : c = '\n'
    · rw [List.rtakeWhile_concat_neg _ _ _ (by simp [hc]), advance, if_pos hc]
      rfl
    · rw [List.rtakeWhile_concat_pos _ _ _ (by simp [hc]), advance, if_neg hc, ih]
      simp [Nat.add_assoc]

end Position
end TeachLang
