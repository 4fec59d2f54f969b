import TeachLang.Proofs.Diagnostic.Window

/-! # Marked lines

The line on which the mark of a report starts, counted by the newlines in front of it in the window.
It is the line of the error, but for an end of input behind a last newline: the mark then stands on
that newline, which ends the line before.  What is printed of it is up to the renderer, of which one
thing is asked: that it numbers the line of a mark whose first byte it is given.
-/

namespace TeachLang

theorem splitLines_ne_nil {cs : List Char} (h : cs ≠ []) : splitLines cs ≠ [] := by
  unfold splitLines
  split <;> try split
  all_goals simp_all

namespace Snippet

/-- The number of the line that a mark at a byte of the text starts on. -/
def numberAt (start : Nat) (lines : List Line) : Option Nat :=
  (lines.find? fun l => l.offset ≤ start && start < l.stop + l.slack).map (·.number)

section

variable {ls : List (List Char × LineEnding)} {text : List Char} {ending : LineEnding}
  {number offset start : Nat}

theorem numberAt_place_of_lt (hle : offset ≤ start)
    (hlt : start < offset + byteCount text + max ending.size 1) :
    numberAt start (place number offset ((text, ending) :: ls)) = some number := by
  simp [numberAt, place, Line.stop, Line.slack, hle, hlt]

theorem numberAt_place_of_le (hle : offset + byteCount text + max ending.size 1 ≤ start) :
    numberAt start (place number offset ((text, ending) :: ls)) =
      numberAt start (place (number + 1) (offset + byteCount text + ending.size) ls) := by
  have hlt : ¬ start < offset + byteCount text + max ending.size 1 := Nat.not_lt.2 hle
  simp [numberAt, place, Line.stop, Line.slack, hlt]

theorem numberAt_place_start (h : ls ≠ []) (number offset : Nat) :
    numberAt offset (place number offset ls) = some number := by
  obtain ⟨⟨text, ending⟩, ls, rfl⟩ := List.exists_cons_of_ne_nil h
  exact numberAt_place_of_lt (Nat.le_refl _) (by omega)

/-- Behind its first character a line is found as it is without that character. -/
theorem numberAt_place_cons (c : Char) (hle : offset + c.utf8Size ≤ start) :
    numberAt start (place number offset ((c :: text, ending) :: ls)) =
      numberAt start (place number (offset + c.utf8Size) ((text, ending) :: ls)) := by
  have hcount : offset + byteCount (c :: text) = offset + c.utf8Size + byteCount text := by
    rw [byteCount_cons, Nat.add_assoc]
  by_cases hlt : start < offset + c.utf8Size + byteCount text + max ending.size 1
  · rw [numberAt_place_of_lt hle hlt, numberAt_place_of_lt (by omega) (by rwa [hcount])]
  · rw [numberAt_place_of_le (Nat.not_lt.1 hlt), numberAt_place_of_le (by omega), hcount]

end

/-- As many lines are in front of a mark as newlines. -/
theorem numberAt_place {cs front rest : List Char} (hcs : cs = front ++ rest) (hrest : rest ≠ [])
    (number offset : Nat) : numberAt (offset + byteCount front)
      (place number offset (splitLines cs)) = some (number + front.count '\n') := by
  have hreturn : '\r'.utf8Size = 1 := rfl
  have hnewline : '\n'.utf8Size = 1 := rfl
  induction cs using splitLines.induct generalizing front number offset with
  | case1 => exact absurd (List.append_eq_nil_iff.1 hcs.symm).2 hrest
  | case2 cs ih =>
    -- the mark may stand on either character of the ending
    rw [splitLines]
    rcases List.append_eq_cons_iff.1 hcs.symm with ⟨rfl, -⟩ | ⟨front, rfl, hbehind⟩
    · exact numberAt_place_start (List.cons_ne_nil _ _) number offset
    rcases List.append_eq_cons_iff.1 hbehind.symm with ⟨rfl, -⟩ | ⟨front, rfl, hbehind'⟩
    · exact numberAt_place_of_lt (by simp) (by simp [hreturn, LineEnding.size])
    · have hplace : offset + byteCount ('\r' :: '\n' :: front) = offset + 2 + byteCount front := by
        simp only [byteCount_cons, hreturn, hnewline]
        omega
      have hlater := ih hbehind' (number + 1) (offset + 2)
      rw [hplace, numberAt_place_of_le (by simp [LineEnding.size])]
      simpa [LineEnding.size, Nat.add_assoc, Nat.add_comm 1] using hlater
  | case3 cs ih =>
    rw [splitLines]
    rcases List.append_eq_cons_iff.1 hcs.symm with ⟨rfl, -⟩ | ⟨front, rfl, hbehind⟩
    · exact numberAt_place_start (List.cons_ne_nil _ _) number offset
    · have hplace : offset + byteCount ('\n' :: front) = offset + 1 + byteCount front := by
        rw [byteCount_cons, hnewline, Nat.add_assoc]
      have hlater := ih hbehind (number + 1) (offset + 1)
      rw [hplace, numberAt_place_of_le (by simp [LineEnding.size])]
      simpa [LineEnding.size, Nat.add_assoc, Nat.add_comm 1] using hlater
  | case4 c cs _ _ hnil _ =>
    rcases List.append_eq_cons_iff.1 hcs.symm with ⟨rfl, -⟩ | ⟨front, rfl, hbehind⟩
    · exact numberAt_place_start (splitLines_ne_nil (List.cons_ne_nil _ _)) number offset
    · have hsome : cs ≠ [] := hbehind ▸ List.append_ne_nil_of_right_ne_nil front hrest
      exact absurd hnil (splitLines_ne_nil hsome)
  | case5 c cs hreturned hended line ending more hlines ih =>
    rcases List.append_eq_cons_iff.1 hcs.symm with ⟨rfl, -⟩ | ⟨front, rfl, hbehind⟩
    · exact numberAt_place_start (splitLines_ne_nil (List.cons_ne_nil _ _)) number offset
    · have hlonger : splitLines (c :: cs) = (c :: line, ending) :: more := by
        rw [splitLines, hlines]
        · exact hreturned
        · exact hended
      have hlater := ih hbehind number (offset + c.utf8Size)
      rw [hlines] at hlater
      rw [hlonger, byteCount_cons, ← Nat.add_assoc, numberAt_place_cons c (by omega), hlater,
        List.count_cons_of_ne hended]

/-- What is asked of the line that a renderer prints for a snippet: that it is the one on which the
marked bytes start, told by the newlines in front of them and the number of the first line. -/
def PrintsMarkedLine (printed : Snippet → Nat) : Prop :=
  ∀ (s : Snippet) (front rest : List Char), s.text = front ++ rest → s.start = byteCount front →
    s.start < s.stop → s.stop ≤ byteCount s.text → printed s = s.firstLine + front.count '\n'

theorem printsMarkedLine_position : PrintsMarkedLine (·.position.1) := by
  intro s front rest htext hstart hlt hle
  have hrest : rest ≠ [] := by
    rintro rfl
    rw [htext, List.append_nil] at hle
    omega
  have hnumber := numberAt_place htext hrest s.firstLine 0
  rw [Nat.zero_add, ← hstart, numberAt, Option.map_eq_some_iff] at hnumber
  obtain ⟨l, hfind, hl⟩ := hnumber
  simp only [position, lines, hfind, hl]

end Snippet

/-- Characters of one byte each take as many bytes as there are. -/
theorem byteCount_eq_length {cs : List Char} (h : ∀ c ∈ cs, c.utf8Size = 1) :
    byteCount cs = cs.length := by
  induction cs with
  | nil => rfl
  | cons c cs ih =>
    obtain ⟨hc, hcs⟩ := List.forall_mem_cons.1 h
    rw [byteCount_cons, hc, ih hcs, List.length_cons, Nat.add_comm]

theorem length_le_byteCount (cs : List Char) : cs.length ≤ byteCount cs := by
  induction cs with
  | nil => exact Nat.le_refl _
  | cons c cs ih =>
    have hpos := c.utf8Size_pos
    rw [byteCount_cons, List.length_cons]
    omega

/-- What a text starts with is told by how many bytes it takes. -/
theorem eq_of_byteCount_eq {cs as bs : List Char} (has : as <+: cs) (hbs : bs <+: cs)
    (h : byteCount as = byteCount bs) : as = bs := by
  obtain ⟨a, rfl⟩ := has
  obtain ⟨b, hb⟩ := hbs
  rw [← takeBytes_append as a, h, ← hb, takeBytes_append]

namespace Window

variable {source : String} {line : Nat}

/-- The line on which a character of the window stands, by the newlines in front of it. -/
def lineAt (w : Window) (index : Nat) : Nat := w.firstLine + (w.text.take index).count '\n'

/-- What the window starts with stands behind the lines in front of the window. -/
theorem Shows.ended_append {w : Window} (h : w.Shows source line)
    {front behind before after : List Char} (htext : w.text = front ++ behind)
    (hsource : source.toList = before ++ after)
    (hplace : w.offset + byteCount front = byteCount before) :
    ended ((sourceLines source).take (w.firstLine - 1)) ++ front = before := by
  obtain ⟨rest, hcut, -⟩ := exists_cut h.line_pos h.line_le
  have hfirst : firstAround line = w.firstLine := h.firstLine_eq.symm
  rw [hfirst] at hcut
  have hprefix :
      ended ((sourceLines source).take (w.firstLine - 1)) ++ front <+: source.toList := by
    refine ⟨behind ++ rest, ?_⟩
    rw [hcut, List.append_assoc, ← List.append_assoc front, ← htext, h.text_eq]
    rfl
  refine eq_of_byteCount_eq hprefix ⟨after, hsource.symm⟩ ?_
  rw [byteCount_append, ← h.offset_eq, hplace]

/-- The line of a place in the window is the line of that place in the source. -/
theorem Shows.lineAt_eq {w : Window} (h : w.Shows source line)
    {front behind before after : List Char} (htext : w.text = front ++ behind)
    (hsource : source.toList = before ++ after)
    (hplace : w.offset + byteCount front = byteCount before) :
    w.lineAt front.length = before.count '\n' + 1 := by
  have hfirst := h.firstLine_eq
  have hlength : w.firstLine - 1 ≤ (sourceLines source).length := by
    have := h.line_le
    omega
  have hfree : ∀ l ∈ (sourceLines source).take (w.firstLine - 1), '\n' ∉ l :=
    fun l hl => newline_not_mem_sourceLines source l (List.mem_of_mem_take hl)
  have hcount := count_ended hfree
  rw [List.length_take, Nat.min_eq_left hlength] at hcount
  rw [← h.ended_append htext hsource hplace, List.count_append, hcount, lineAt, htext,
    List.take_left]
  omega

/-- What the mark of a token starts with: a character of its line, or for the end of input the last
character of the source, which is of the line before if it is a newline. -/
theorem lineAt_highlight {t : Token} (h : t ∈ lex source) (hsome : source ≠ "") {start : Nat}
    (hstart : ((around source t.line).highlight t.span.start t.span.stop).1 = start) :
    ∃ c, (around source t.line).text[start]? = some c ∧
      (t.kind = .eof → source.toList.getLast? = some c) ∧
      (t.kind = .eof ∧ c = '\n' → (around source t.line).lineAt start + 1 = t.line) ∧
      (¬ (t.kind = .eof ∧ c = '\n') → (around source t.line).lineAt start = t.line) := by
  obtain ⟨before, text, after, hstands, hscanned⟩ := exists_stands_of_mem_lex h
  have hshows := around_shows hstands.line_pos hstands.line_le
  obtain ⟨front, behind, htext, hoffset, hend⟩ := exists_text_eq hstands.source_eq
    hscanned.newline_not_mem hstands.line_eq.symm hstands.line_le
  have hline := (hshows.lineAt_eq htext hstands.source_eq hoffset).trans hstands.line_eq.symm
  have hplace := highlight_append htext
  rw [hoffset] at hplace
  rw [hstands.span_eq, hplace] at hstart
  by_cases hkind : t.kind = .eof
  · obtain ⟨rfl, rfl⟩ := hscanned.eq_nil hkind
    obtain ⟨rfl, hfront⟩ := hend rfl
    have hbefore := hshows.ended_append htext hstands.source_eq hoffset
    have hsource := hstands.source_eq
    obtain ⟨front, c, rfl⟩ := (List.eq_nil_or_concat front).resolve_left (hfront hsome)
    obtain rfl : front.length = start := by simpa using hstart
    have hlast : source.toList.getLast? = some c := by
      rw [hsource, ← hbefore]
      simp
    -- the line of the end counts the marked character as well
    have hcount : (around source t.line).lineAt front.length + [c].count '\n' = t.line := by
      refine Eq.trans ?_ hline
      have hall : (front ++ [c]).take (front.length + 1) = front ++ [c] :=
        List.take_of_length_le (by simp)
      simp [lineAt, htext, hall, Nat.add_assoc]
    refine ⟨c, by simp [htext], fun _ => hlast, ?_, ?_⟩
    · rintro ⟨-, rfl⟩
      simpa using hcount
    · intro hother
      have hc : c ≠ '\n' := fun heq => hother ⟨hkind, heq⟩
      simpa [hc] using hcount
  · obtain ⟨c, text, rfl⟩ := List.exists_cons_of_ne_nil (hscanned.ne_nil hkind)
    obtain rfl : front.length = start := by simpa using hstart
    exact ⟨c, by simp [htext], fun heof => absurd heof hkind, fun heof => absurd heof.1 hkind,
      fun _ => hline⟩

end Window

/-- What is marked takes one character at least. -/
theorem Window.highlight_lt {source : String} {t : Token} (h : t ∈ lex source)
    (hsome : source ≠ "") : ((around source t.line).highlight t.span.start t.span.stop).1 <
      ((around source t.line).highlight t.span.start t.span.stop).2 := by
  obtain ⟨before, text, after, hstands, hscanned⟩ := exists_stands_of_mem_lex h
  have hmarks := highlight_marks h
  by_cases hkind : t.kind = .eof
  · have hsource : t.span.source ≠ "" := by rwa [hstands.span_eq]
    rw [(hmarks.eof hkind hsource).1]
    exact Nat.lt_succ_self _
  · refine Nat.lt_of_not_le fun hle => hscanned.ne_nil hkind ?_
    rw [← String.toList_ofList (l := text), ← hstands.text_eq, ← (hmarks.lexeme hkind).1]
    exact List.drop_eq_nil_of_le ((List.length_take_le _ _).trans hle)

section

variable {printed : Snippet → Nat} (hprinted : Snippet.PrintsMarkedLine printed)

include hprinted

/-- The line that is printed for a report is the one that its mark starts on, if the characters in
front of the mark take one byte each. -/
theorem CompileError.printed_snippet (e : CompileError) (origin : Option String) {start stop : Nat}
    (hmark : e.window.highlight e.span.start e.span.stop = (start, stop)) (hlt : start < stop)
    (hle : stop ≤ e.window.text.length)
    (hbytes : ∀ c ∈ e.window.text.take start, c.utf8Size = 1) :
    printed (e.snippet origin) = e.window.lineAt start := by
  have hcount : byteCount (e.window.text.take start) = start := by
    rw [byteCount_eq_length hbytes, List.length_take]
    omega
  have hsnippet : e.snippet origin =
      ⟨e.title, e.message, origin, e.window.text, e.window.firstLine, start, stop⟩ := by
    rw [snippet, hmark]
  rw [hsnippet]
  exact hprinted _ (e.window.text.take start) (e.window.text.drop start)
    (List.take_append_drop start e.window.text).symm hcount.symm hlt
    (hle.trans (length_le_byteCount _))

/-- A refused source that is not empty is marked on the line of the error, at the end of input as
well.  Only an end of input behind a newline is marked at that newline, on the line before.  The
line of the mark is printed where the characters in front of it take one byte each. -/
theorem markedLine_of_compile {source : String} {e : CompileError}
    (h : compile source = .error e) (hsome : source ≠ "") :
    let start := (e.window.highlight e.span.start e.span.stop).1
    ∃ c, e.window.text[start]? = some c ∧
      (e.token.kind = .eof → source.toList.getLast? = some c) ∧
      (e.token.kind = .eof ∧ c = '\n' → e.window.lineAt start + 1 = e.lineCol.line) ∧
      (¬ (e.token.kind = .eof ∧ c = '\n') → e.window.lineAt start = e.lineCol.line) ∧
      ∀ origin, (∀ d ∈ e.window.text.take start, d.utf8Size = 1) →
        printed (e.snippet origin) = e.window.lineAt start := by
  intro start
  have hmem := token_mem_lex h
  have hwindow : e.window = Window.around source e.token.line := by
    obtain ⟨before, text, after, hstands, -⟩ := exists_stands_of_mem_lex hmem
    exact congrArg (Window.around · e.token.line) (congrArg Span.source hstands.span_eq)
  obtain ⟨c, hc, hlast, hnewline, hother⟩ := Window.lineAt_highlight hmem hsome rfl
  have hlt := Window.highlight_lt hmem hsome
  have hle := (Window.highlight_marks hmem).le_length
  rw [← hwindow] at hc hnewline hother hlt hle
  exact ⟨c, hc, hlast, hnewline, hother,
    fun origin => e.printed_snippet hprinted origin rfl hlt hle⟩

end

/-- A source is refused with a certain error. -/
theorem exists_of_refused {source : String} {P : CompileError → Prop} [DecidablePred P]
    (h : (match compile source with
      | .error e => decide (P e)
      | .ok _ => false) = true) : ∃ e, compile source = .error e ∧ P e := by
  split at h
  next e he => exact ⟨e, he, of_decide_eq_true h⟩
  next => cases h

/-- The end of a source with an empty line at its end, marked on the line before. -/
theorem markedLine_of_compile_end :
    let source := "program\n\n  WrLn();\n\n"
    let printed := fun s : Snippet => s.position.1
    Snippet.PrintsMarkedLine printed ∧
    ∃ e, compile source = .error e ∧ source ≠ "" ∧ e.lineCol.line = 5 ∧
      let start := (e.window.highlight e.span.start e.span.stop).1
      ∃ c, e.window.text[start]? = some c ∧
        (e.token.kind = .eof → source.toList.getLast? = some c) ∧
        (e.token.kind = .eof ∧ c = '\n' → e.window.lineAt start + 1 = e.lineCol.line) ∧
        (¬ (e.token.kind = .eof ∧ c = '\n') → e.window.lineAt start = e.lineCol.line) ∧
        ∀ origin, (∀ d ∈ e.window.text.take start, d.utf8Size = 1) →
          printed (e.snippet origin) = e.window.lineAt start := by
  intro source printed
  have hprinted : Snippet.PrintsMarkedLine printed := Snippet.printsMarkedLine_position
  have hsome : source ≠ "" := by decide
  have hrefused : ∃ e, compile source = .error e ∧ e.lineCol.line = 5 :=
    exists_of_refused (by decide +kernel)
  obtain ⟨e, h, hline⟩ := hrefused
  exact ⟨hprinted, e, h, hsome, hline, markedLine_of_compile hprinted h hsome⟩

/-- An end of input behind a newline is marked on the line before. -/
theorem markedLine_ne_lineCol :
    ∃ e, compile "program\n" = .error e ∧ e.lineCol.line = 2 ∧
      e.window.lineAt (e.window.highlight e.span.start e.span.stop).1 = 1 :=
  exists_of_refused (by decide +kernel)

end TeachLang
