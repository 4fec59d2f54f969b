import TeachLang.Diagnostic.Report
import TeachLang.Proofs.Check.Reported
import TeachLang.Proofs.Text.Lines
import TeachLang.Proofs.Token.Munch

/-! # Windows on a source

The lines around a line of a source are cut out of it between the offsets at which lines start.
What stands on that line is found in the window by counting characters: a token at its lexeme, and
the end of input at the last character.
-/

namespace TeachLang

namespace Token.Stands

variable {t : Token} {source : String} {before text after : List Char}
  (h : t.Stands source before text after)

include h

theorem line_eq : t.line = before.count '\n' + 1 := by
  have hline := Position.line_advanceAll .start before
  rw [h.eq_covering]
  exact hline.trans (Nat.add_comm _ _)

theorem line_pos : 1 ≤ t.line := by
  rw [h.line_eq]
  exact Nat.le_add_left 1 _

theorem line_le : t.line ≤ (sourceLines source).length := by
  rw [h.line_eq, length_sourceLines, h.source_eq, List.count_append]
  omega

end Token.Stands

namespace Window

variable {source : String} {line : Nat}

def lastAround (source : String) (line : Nat) : Nat :=
  min (sourceLines source).length (line + margin)

/-- The lines that are cut out stand between whole lines, and the bytes that are cut are theirs. -/
theorem exists_cut (hpos : 1 ≤ line) (hle : line ≤ (sourceLines source).length) :
    let before := ended ((sourceLines source).take (firstAround line - 1))
    let text := joined (((sourceLines source).take (lastAround source line)).drop
      (firstAround line - 1))
    ∃ rest, source.toList = before ++ (text ++ rest) ∧
      rangeAround source line = ⟨source, byteCount before, byteCount before + byteCount text⟩ := by
  intro before text
  have hlast : lastAround source line ≤ (sourceLines source).length := Nat.min_le_left _ _
  have hfirst : firstAround line - 1 < lastAround source line := by
    simp only [firstAround, lastAround, margin]
    omega
  obtain ⟨rest, hrest, -, hend⟩ := exists_joined_eq hfirst hlast
  rw [joined_sourceLines] at hrest
  have hstart : (lineStarts source)[firstAround line - 1]? = some (byteCount before) := by
    rw [getElem?_lineStarts, if_pos (Nat.lt_of_lt_of_le hfirst hlast)]
  have hstop : ((lineStarts source)[line + margin]?.map (· - 1)).getD source.utf8ByteSize =
      byteCount before + byteCount text := by
    rw [getElem?_lineStarts]
    split
    next hlt =>
      have heq : lastAround source line = line + margin := Nat.min_eq_right (Nat.le_of_lt hlt)
      have htake : (sourceLines source).take (line + margin) ≠ [] := by
        rw [← List.length_pos_iff, List.length_take]
        omega
      rw [heq] at hfirst hlast
      rw [Option.map_some, Option.getD_some, byteCount_ended htake, joined_take hfirst hlast,
        byteCount_append, Nat.add_sub_cancel, ← heq]
    next hge =>
      have heq : lastAround source line = (sourceLines source).length :=
        Nat.min_eq_left (Nat.le_of_not_lt hge)
      rw [Option.map_none, Option.getD_none, ← byteCount_toList, hrest, hend heq, List.append_nil,
        byteCount_append]
  refine ⟨rest, hrest, ?_⟩
  simp only [rangeAround, hstart, hstop, Option.getD_some]
  rw [Nat.max_eq_right (Nat.le_add_right _ _)]

/-- How many characters stand before the end of the first part of the text. -/
theorem charsBefore_append {w : Window} {before after : List Char} (h : w.text = before ++ after) :
    w.charsBefore (w.offset + byteCount before) = before.length := by
  have hmin : min (byteCount before) (byteCount w.text) = byteCount before := by
    rw [h, byteCount_append]
    exact Nat.min_eq_left (Nat.le_add_right _ _)
  rw [charsBefore, Nat.add_sub_cancel_left, hmin, h, isBoundary_append, if_pos rfl,
    takeBytes_append]

/-- What a window shows around a line of a source: the lines from two before it to two behind it, as
far as the source has them, with newlines between.  The bytes that are cut out of the source for it
are a good range, and no line starts at its first byte behind others. -/
structure Shows (w : Window) (source : String) (line : Nat) : Prop where
  line_pos : 1 ≤ line
  line_le : line ≤ (sourceLines source).length
  firstLine_eq : w.firstLine = max 1 (line - 2)
  text_eq : w.text = joined (((sourceLines source).take
    (min (sourceLines source).length (line + 2))).drop (w.firstLine - 1))
  offset_eq : w.offset = byteCount (ended ((sourceLines source).take (w.firstLine - 1)))
  range_eq : rangeAround source line = ⟨source, w.offset, w.offset + byteCount w.text⟩
  range_ok : Span.new? source w.offset (w.offset + byteCount w.text) =
    some (rangeAround source line)
  chars_eq : (rangeAround source line).chars = w.text
  next_pos : ∀ start, (lineStarts source)[line + 2]? = some start → 0 < start

/-- What a pair of character counts marks in a window for a token of its source: the place of its
lexeme, and of the end of input the last character. -/
structure Marks (w : Window) (t : Token) (start stop : Nat) : Prop where
  le : start ≤ stop
  le_length : stop ≤ w.text.length
  lexeme : t.kind ≠ .eof → (w.text.take stop).drop start = t.text.toList ∧
    w.offset + byteCount (w.text.take start) = t.span.start ∧
    w.offset + byteCount (w.text.take stop) = t.span.stop
  eof : t.kind = .eof → t.span.source ≠ "" → stop = start + 1 ∧ stop = w.text.length

theorem around_shows (hpos : 1 ≤ line) (hle : line ≤ (sourceLines source).length) :
    (around source line).Shows source line := by
  obtain ⟨rest, hrest, hrange⟩ := exists_cut hpos hle
  have hchars := Span.chars_eq hrest
  have hgood := Span.new?_eq_some hrest
  rw [← hrange] at hchars hgood
  have htext : (around source line).text = _ := hchars
  have hoffset : (around source line).offset = _ := congrArg Span.start hrange
  refine ⟨hpos, hle, rfl, htext, hoffset, ?_, ?_, rfl, ?_⟩
  · rw [htext, hoffset, hrange]
  · rw [htext, hoffset, hgood]
  · intro start hstart
    have htake : (sourceLines source).take (line + 2) ≠ [] := by
      rw [← List.length_pos_iff, List.length_take]
      omega
    rw [getElem?_lineStarts] at hstart
    split at hstart
    next =>
      obtain rfl := Option.some.inj hstart
      rw [byteCount_ended htake]
      exact Nat.succ_pos _
    next => cases hstart

/-- The text around the line of something that stays on its line holds it, at its place in the
source.  If that is the end of the source, nothing is behind it there, but something in front. -/
theorem exists_text_eq {before text after : List Char}
    (hsource : source.toList = before ++ (text ++ after)) (htext : '\n' ∉ text)
    (hline : before.count '\n' + 1 = line) (hle : line ≤ (sourceLines source).length) :
    ∃ front behind, (around source line).text = front ++ (text ++ behind) ∧
      (around source line).offset + byteCount front = byteCount before ∧
      (text ++ after = [] → behind = [] ∧ (source ≠ "" → front ≠ [])) := by
  have hfree := newline_not_mem_sourceLines source
  have hshows := around_shows (hline ▸ Nat.succ_pos _) hle
  have hjoined := (joined_sourceLines source).trans hsource
  have hfirst : firstAround line - 1 < line := by
    simp only [firstAround, margin]
    omega
  have hbetween : line ≤ lastAround source line := Nat.le_min.2 ⟨hle, Nat.le_add_right _ _⟩
  have hlast : lastAround source line ≤ (sourceLines source).length := Nat.min_le_left _ _
  -- the lines in front of the window are in front of the text
  obtain ⟨front, hfront⟩ := ended_prefix hfree (sourceLines_ne_nil source) ⟨_, hjoined.symm⟩
    (by omega : firstAround line - 1 ≤ before.count '\n')
  -- and the lines through its end go on behind the text
  have hcount : (before ++ text).count '\n' < lastAround source line := by
    rw [List.count_append, List.count_eq_zero_of_not_mem htext]
    omega
  obtain ⟨behind, hbehind⟩ := prefix_joined hfree
    ⟨after, by rw [hjoined, List.append_assoc]⟩ hcount hlast
  have hcut : (around source line).text = front ++ (text ++ behind) := by
    rw [joined_take (Nat.lt_of_lt_of_le hfirst hbetween) hlast, ← hfront] at hbehind
    simp only [List.append_assoc, List.append_cancel_left_eq] at hbehind
    exact hshows.text_eq.trans hbehind.symm
  refine ⟨front, behind, hcut, ?_, fun hend => ?_⟩
  · rw [hshows.offset_eq, ← hfront, byteCount_append]
    rfl
  · obtain ⟨rfl, rfl⟩ := List.append_eq_nil_iff.1 hend
    rw [List.append_nil, List.append_nil] at hsource
    constructor
    · have hend : lastAround source line = (sourceLines source).length := by
        rw [lastAround, length_sourceLines, hsource, hline]
        exact Nat.min_eq_left (Nat.le_add_right _ _)
      rw [hend, List.take_length, hjoined] at hbehind
      simpa using hbehind
    · rintro hsome rfl
      -- nothing in front of it on these lines makes its line the first one around it
      rw [List.append_nil] at hfront
      have hstart : firstAround line - 1 = 0 := by
        have hfree' : ∀ l ∈ (sourceLines source).take (firstAround line - 1), '\n' ∉ l :=
          fun l hl => hfree l (List.mem_of_mem_take hl)
        have hended := count_ended hfree'
        rw [hfront, List.length_take] at hended
        simp only [firstAround, margin] at hended ⊢
        omega
      rw [hstart, List.take_zero, ended_nil] at hfront
      rw [← hfront] at hsource
      exact hsome (String.toList_eq_nil_iff.1 hsource)

/-- The characters between two places in the text. -/
theorem highlight_append {w : Window} {front text behind : List Char}
    (htext : w.text = front ++ (text ++ behind)) :
    w.highlight (w.offset + byteCount front) (w.offset + byteCount front + byteCount text) =
      if text ≠ [] then (front.length, front.length + text.length)
      else if behind ≠ [] then (front.length, front.length + 1)
      else (front.length - 1, front.length) := by
  have hstart := charsBefore_append htext
  have hstop := charsBefore_append (htext.trans (List.append_assoc front text behind).symm)
  rw [byteCount_append, ← Nat.add_assoc, List.length_append] at hstop
  simp only [highlight, hstart, hstop, htext, List.length_append]
  rcases text with _ | ⟨c, text⟩
  · rcases behind with _ | ⟨d, behind⟩ <;> simp
  · simp

theorem highlight_marks {t : Token} (h : t ∈ lex source) : (around source t.line).Marks t
    ((around source t.line).highlight t.span.start t.span.stop).1
    ((around source t.line).highlight t.span.start t.span.stop).2 := by
  obtain ⟨before, text, after, hstands, hscanned⟩ := exists_stands_of_mem_lex h
  obtain ⟨front, behind, htext, hoffset, hend⟩ := exists_text_eq hstands.source_eq
    hscanned.newline_not_mem hstands.line_eq.symm hstands.line_le
  have hplace := highlight_append htext
  rw [hoffset] at hplace
  rw [hstands.span_eq, hplace]
  by_cases hkind : t.kind = .eof
  · obtain ⟨rfl, rfl⟩ := hscanned.eq_nil hkind
    obtain ⟨rfl, hfront⟩ := hend rfl
    refine ⟨?_, ?_, ?_, ?_⟩
    · simp
    · simp [htext]
    · exact fun hne => absurd hkind hne
    · intro _ hsome
      rw [hstands.span_eq] at hsome
      have hpos := List.length_pos_iff.2 (hfront hsome)
      have hlength : front.length - 1 + 1 = front.length := Nat.sub_add_cancel hpos
      simp [htext, hlength]
  · rw [if_pos (hscanned.ne_nil hkind)]
    refine ⟨?_, ?_, ?_, ?_⟩
    · simp
    · simp [htext]
    · intro _
      have hthrough : (front ++ (text ++ behind)).take (front.length + text.length) =
          front ++ text := by
        rw [← List.append_assoc, ← List.length_append, List.take_left]
      rw [htext, hthrough, List.take_left, List.drop_left, hstands.text_eq, String.toList_ofList,
        byteCount_append, ← Nat.add_assoc, hoffset, hstands.span_eq]
      exact ⟨rfl, rfl, rfl⟩
    · exact fun heof => absurd heof hkind

end Window

/-- A refused source is shown on the lines around the token that the error is reported at, and the
marked characters there are those of the token. -/
theorem shows_marks_of_compile {source : String} {e : CompileError}
    (h : compile source = .error e) :
    e.span.source = source ∧ e.window.Shows source e.lineCol.line ∧
      e.window.Marks e.token (e.window.highlight e.span.start e.span.stop).1
        (e.window.highlight e.span.start e.span.stop).2 := by
  have hmem := token_mem_lex h
  obtain ⟨before, text, after, hstands, -⟩ := exists_stands_of_mem_lex hmem
  have hsource : e.span.source = source := congrArg Span.source hstands.span_eq
  rw [CompileError.window, hsource]
  exact ⟨rfl, Window.around_shows hstands.line_pos hstands.line_le, Window.highlight_marks hmem⟩

/-- A statement that is refused behind characters of more than one byte. -/
theorem shows_marks_of_compile_exit :
    let source := "// ñ\n\nprogram\n  /*é*/ exit;\nend;\n"
    ∃ e, compile source = .error e ∧ e.window.highlight e.span.start e.span.stop = (17, 21) ∧
      e.span.source = source ∧ e.window.Shows source e.lineCol.line ∧
        e.window.Marks e.token (e.window.highlight e.span.start e.span.stop).1
          (e.window.highlight e.span.start e.span.stop).2 := by
  intro source
  have hrefused : (match compile source with
      | .error e => decide (e.window.highlight e.span.start e.span.stop = (17, 21))
      | .ok _ => false) = true := by decide +kernel
  split at hrefused
  next e h => exact ⟨e, h, of_decide_eq_true hrefused, shows_marks_of_compile h⟩
  next => cases hrefused

end TeachLang
