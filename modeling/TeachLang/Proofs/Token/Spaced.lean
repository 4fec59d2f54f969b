import TeachLang.Proofs.Token.Tiling

/-! # Texts of spaced lexemes

Lexemes with separators between are scanned back one by one, each with its kind, whatever the
separators are.  A separator is trivia that does not depend on what follows it, and between two
lexemes it is not empty.
-/

namespace TeachLang

/-- An admitted text is not empty, and no trivia begins where it begins. -/
theorem TokenKind.Admits.exists_cons {kind : TokenKind} {text : List Char} (h : kind.Admits text) :
    ∃ c body, text = c :: body ∧ Unicode.isBlank c = false ∧ c ≠ '/' := by
  unfold Admits at h
  split at h
  · obtain ⟨⟨c, cs, rfl, hc, -⟩, -⟩ := h
    refine ⟨c, cs, rfl, ?_, ?_⟩
    · rw [Bool.eq_false_iff]
      intro hblank
      have hcontinue := Unicode.not_isXidContinue_of_isBlank hblank
      simp [Unicode.isXidContinue, hc] at hcontinue
    · rintro rfl
      revert hc
      decide +kernel
  · obtain ⟨hne, hdigits⟩ := h
    obtain ⟨c, cs, rfl⟩ := List.exists_cons_of_ne_nil hne
    have hc := hdigits c List.mem_cons_self
    refine ⟨c, cs, rfl, ?_, ?_⟩
    · rw [Bool.eq_false_iff]
      intro hblank
      rw [Lexeme.not_isDigit_of_isBlank hblank] at hc
      cases hc
    · rintro rfl
      revert hc
      decide
  · obtain ⟨body, rfl, -⟩ := h
    exact ⟨'"', body ++ ['"'], rfl, by decide, by decide⟩
  · exact h.elim
  · exact h.elim
  · have hfixed : ∀ e ∈ keywords ++ symbols, e.1.toList.head?.any fun c =>
        !Unicode.isBlank c && c ≠ '/' := by decide +kernel
    obtain ⟨spelling, hspelling, rfl⟩ := Option.map_eq_some_iff.1 h
    obtain ⟨e, he, rfl⟩ := Option.map_eq_some_iff.1 hspelling
    have hstart := hfixed e (List.mem_of_find?_eq_some he)
    cases hchars : e.1.toList with
    | nil => simp [hchars] at hstart
    | cons c body =>
      obtain ⟨hblank, hslash⟩ : Unicode.isBlank c = false ∧ c ≠ '/' := by
        simpa [hchars] using hstart
      exact ⟨c, body, rfl, hblank, hslash⟩

/-- What may be put between lexemes: blank characters, comments up to a newline and comments
between their brackets. -/
inductive Separator : List Char → Prop
  | nil : Separator []
  | blank {c : Char} {cs : List Char} (blank : Unicode.isBlank c) (more : Separator cs) :
      Separator (c :: cs)
  | lineComment {body cs : List Char} (newline : '\n' ∉ body) (more : Separator cs) :
      Separator ('/' :: '/' :: (body ++ '\n' :: cs))
  | blockComment {body cs : List Char} (closing : ¬ ['*', '/'] <:+: body) (more : Separator cs) :
      Separator ('/' :: '*' :: (body ++ '*' :: '/' :: cs))

namespace Separator

variable {g : List Char}

/-- A separator is a gap in front of every text. -/
theorem gap (h : Separator g) (rest : List Char) : Gap rest g := by
  induction h with
  | nil => exact .nil
  | blank hblank _ ih => exact .blank hblank ih
  | lineComment hnewline _ ih =>
    exact .lineComment hnewline (by simp) (.blank (by decide +kernel) ih)
  | blockComment hclosing _ ih => exact .blockComment hclosing ih

/-- A lexeme ends in front of a separator. -/
theorem stops (h : Separator g) (hne : g ≠ []) (rest : List Char) : Lexeme.Stops (g ++ rest) := by
  cases h with
  | nil => exact absurd rfl hne
  | blank hblank _ => exact Lexeme.stops_cons (.inl hblank)
  | lineComment _ _ => exact Lexeme.stops_cons (.inr rfl)
  | blockComment _ _ => exact Lexeme.stops_cons (.inr rfl)

theorem space : Separator [' '] := .blank (by decide +kernel) .nil

end Separator

namespace Trivia

theorem piece?_eq_none {c : Char} {cs : List Char} (hblank : Unicode.isBlank c = false)
    (hslash : c ≠ '/') : piece? (c :: cs) = none := by
  unfold piece?
  split
  next heq =>
    cases heq
    exact absurd rfl hslash
  next heq =>
    cases heq
    exact absurd rfl hslash
  next heq =>
    cases heq
    rw [hblank, if_neg Bool.false_ne_true]
  next heq => cases heq

theorem piece?_blank {c : Char} (hblank : Unicode.isBlank c) (cs : List Char) :
    piece? (c :: cs) = some ([c], cs) := by
  have hslash : Unicode.isBlank '/' = false := by decide +kernel
  unfold piece?
  split
  next heq =>
    cases heq
    rw [hslash] at hblank
    cases hblank
  next heq =>
    cases heq
    rw [hslash] at hblank
    cases hblank
  next heq =>
    cases heq
    rw [if_pos hblank]
  next heq => cases heq

theorem piece?_lineComment {body cs : List Char} (hnewline : '\n' ∉ body)
    (hends : ∀ c ∈ cs.head?, c = '\n') :
    piece? ('/' :: '/' :: (body ++ cs)) = some ('/' :: '/' :: body, cs) := by
  have hbody : ∀ c ∈ body, (c != '\n') = true := by
    rintro c hc
    rw [bne_iff_ne]
    rintro rfl
    exact hnewline hc
  have hstop : cs.takeWhile (· != '\n') = [] ∧ cs.dropWhile (· != '\n') = cs := by
    cases cs with
    | nil => exact ⟨rfl, rfl⟩
    | cons c cs =>
      obtain rfl := hends c rfl
      exact ⟨rfl, rfl⟩
  rw [piece?, List.takeWhile_append_of_pos hbody, List.dropWhile_append_of_pos hbody, hstop.1,
    hstop.2, List.append_nil]

theorem closeComment?_append_closing {body : List Char} (hclosing : ¬ ['*', '/'] <:+: body)
    (rest : List Char) :
    closeComment? (body ++ '*' :: '/' :: rest) = some (body ++ ['*', '/'], rest) := by
  induction body with
  | nil => rfl
  | cons c body ih =>
    rw [List.infix_cons_iff, not_or] at hclosing
    obtain ⟨hhead, htail⟩ := hclosing
    have hstep : closeComment? (c :: (body ++ '*' :: '/' :: rest)) =
        (closeComment? (body ++ '*' :: '/' :: rest)).map fun p => (c :: p.1, p.2) := by
      rw [closeComment?.eq_def]
      split
      next heq =>
        -- a star here and a slash behind it would close the comment in its body
        obtain ⟨rfl, hslash⟩ := List.cons.inj heq
        cases body with
        | nil => cases hslash
        | cons d body =>
          cases hslash
          exact absurd ⟨body, rfl⟩ hhead
      next heq =>
        cases heq
        rfl
      next heq => cases heq
    rw [List.cons_append, hstep, ih htail]
    rfl

theorem split_of_piece? {cs piece rest : List Char} (h : piece? cs = some (piece, rest)) :
    split cs = (piece ++ (split rest).1, (split rest).2) := by
  rw [split]
  split
  next heq =>
    rw [h] at heq
    cases heq
    rfl
  next heq =>
    rw [h] at heq
    cases heq

/-- A gap in front of a text that begins with no trivia is what is split off. -/
theorem split_of_gap {rest gap : List Char} (h : Gap rest gap) (hrest : piece? rest = none) :
    split (gap ++ rest) = (gap, rest) := by
  induction h with
  | nil =>
    rw [List.nil_append, split]
    split
    next heq =>
      rw [hrest] at heq
      cases heq
    next => rfl
  | blank hblank _ ih => rw [List.cons_append, split_of_piece? (piece?_blank hblank _), ih]; rfl
  | @lineComment body cs hnewline hends _ ih =>
    have hpiece := piece?_lineComment hnewline hends
    rw [List.cons_append, List.cons_append, List.append_assoc, split_of_piece? hpiece, ih]
    rfl
  | @blockComment body cs hclosing _ ih =>
    have hpiece : piece? ('/' :: '*' :: (body ++ '*' :: '/' :: (cs ++ rest))) =
        some ('/' :: '*' :: (body ++ ['*', '/']), cs ++ rest) := by
      rw [piece?, closeComment?_append_closing hclosing]
      rfl
    simp only [List.cons_append, List.append_assoc]
    rw [split_of_piece? hpiece, ih]
    simp

end Trivia

def Token.label (t : Token) : TokenKind × String := (t.kind, t.text)

/-- Gaps and the texts of the tokens behind them in turn. -/
def fill (gaps : List (List Char)) (ts : List Token) : List Char :=
  (gaps.zip ts).flatMap fun x => x.1 ++ x.2.text.toList

@[simp]
theorem fill_cons (g : List Char) (gs : List (List Char)) (t : Token) (ts : List Token) :
    fill (g :: gs) (t :: ts) = g ++ (t.text.toList ++ fill gs ts) := by
  simp [fill]

namespace Scanner

/-- A scanner in front of an admitted lexeme takes it. -/
theorem step_eq_of_admits {s : Scanner} {gap text rest : List Char} {kind : TokenKind}
    (hsplit : Trivia.split s.unread = (gap, text ++ rest)) (htext : kind.Admits text)
    (hrest : Lexeme.Stops rest) :
    s.step = (.covering s.source kind (s.position.advanceAll gap) text,
      ⟨s.source, (s.position.advanceAll gap).advanceAll text, rest, s.finished⟩) := by
  obtain ⟨c, body, rfl, -, -⟩ := htext.exists_cons
  have hread := Lexeme.read_of_admits htext hrest
  rw [List.cons_append] at hsplit
  simp only [step, hsplit, hread]

theorem step_of_admits {s : Scanner} {gap : List Char} {t : Token} {rest : List Char}
    (hsplit : Trivia.split s.unread = (gap, t.text.toList ++ rest))
    (ht : t.kind.Admits t.text.toList) (hrest : Lexeme.Stops rest) :
    s.step.1.label = t.label ∧ s.step.2.unread = rest ∧ s.step.2.finished = s.finished := by
  rw [step_eq_of_admits hsplit ht hrest]
  exact ⟨by rw [Token.label, Token.covering, String.ofList_toList, Token.label], rfl, rfl⟩

/-- Behind a separator, lexemes with separators between are produced one by one. -/
theorem tokens_fill {w : List Token} {eof : Token} (heof : eof.label = (.eof, ""))
    (hw : ∀ t ∈ w, t.kind.Admits t.text.toList) {gaps : List (List Char)}
    (hlength : gaps.length = w.length + 1) (hgaps : ∀ g ∈ gaps, Separator g)
    (hbetween : ∀ g ∈ gaps.tail.dropLast, g ≠ []) {s : Scanner}
    (hunread : s.unread = fill gaps (w ++ [eof])) (hfinished : s.finished = false) :
    s.tokens.map Token.label = (w ++ [eof]).map Token.label := by
  have htext : eof.text = "" := congrArg Prod.snd heof
  induction w generalizing gaps s with
  | nil =>
    obtain ⟨g, rfl⟩ := List.length_eq_one_iff.1 hlength
    have hsplit : Trivia.split s.unread = (g, []) := by
      have hgap := (hgaps g List.mem_cons_self).gap []
      rw [hunread, ← Trivia.split_of_gap hgap rfl]
      simp [fill, htext]
    have hstep : s.step.1.label = (.eof, "") ∧ s.step.2.finished := by
      simp only [step, hsplit]
      exact ⟨rfl, trivial⟩
    rw [tokens_of_unfinished hfinished, tokens_of_finished hstep.2, List.map_singleton, hstep.1,
      List.nil_append, List.map_singleton, heof]
  | cons t w ih =>
    obtain ⟨ht, htail⟩ := List.forall_mem_cons.1 hw
    obtain ⟨g, gaps, rfl⟩ : ∃ g gs, gaps = g :: gs :=
      List.exists_cons_of_length_eq_add_one hlength
    obtain ⟨g', gaps, rfl⟩ : ∃ g gs, gaps = g :: gs :=
      List.exists_cons_of_length_eq_add_one (Nat.succ.inj hlength)
    obtain ⟨hg, hgaps⟩ := List.forall_mem_cons.1 hgaps
    have hnext := List.forall_mem_cons.1 hgaps
    have hsplit : Trivia.split s.unread =
        (g, t.text.toList ++ fill (g' :: gaps) (w ++ [eof])) := by
      obtain ⟨c, body, hbody, hblank, hslash⟩ := ht.exists_cons
      rw [hunread, List.cons_append, fill_cons]
      refine Trivia.split_of_gap (hg.gap _) ?_
      rw [hbody]
      exact Trivia.piece?_eq_none hblank hslash
    have hstops : Lexeme.Stops (fill (g' :: gaps) (w ++ [eof])) := by
      by_cases hg' : g' = []
      · -- an empty separator is the last one, and the text ends there
        have hlast : gaps = [] := by
          by_contra hne
          refine hbetween g' ?_ hg'
          simp [List.dropLast_cons_of_ne_nil hne]
        obtain rfl : w = [] := by simpa [hlast] using hlength
        simp [hg', hlast, fill, htext, Lexeme.stops_nil]
      · obtain ⟨u, us, hu⟩ : ∃ u us, w ++ [eof] = u :: us := List.exists_cons_of_ne_nil (by simp)
        rw [hu, fill_cons]
        exact hnext.1.stops hg' _
    have hrest : ∀ g ∈ (g' :: gaps).tail.dropLast, g ≠ [] := by
      intro g hmem
      rw [← List.tail_dropLast] at hmem
      exact hbetween g (List.mem_of_mem_tail hmem)
    obtain ⟨hlabel, hunread', hfinished'⟩ := step_of_admits hsplit ht hstops
    rw [tokens_of_unfinished hfinished, List.map_cons, hlabel,
      ih htail (by simpa using hlength) hgaps hrest hunread' (hfinished'.trans hfinished),
      List.cons_append, List.map_cons]

end Scanner

theorem toList_intercalate_cons (t : Token) (w : List Token) {eof : Token} (heof : eof.text = "") :
    (" ".intercalate ((t :: w).map (·.text))).toList =
      t.text.toList ++ fill (w.map (fun _ => [' ']) ++ [[]]) (w ++ [eof]) := by
  induction w generalizing t with
  | nil => simp [fill, heof]
  | cons u w ih =>
    have hu := ih u
    rw [List.map_cons] at hu
    rw [List.map_cons, List.map_cons, String.intercalate_cons_cons, String.toList_append, hu]
    simp

/-- Admitted texts with single spaces between are scanned back. -/
theorem lex_intercalate (w : List Token) (hw : ∀ t ∈ w, t.kind.Admits t.text.toList) :
    (lex (" ".intercalate (w.map (·.text)))).map Token.label =
      w.map Token.label ++ [(.eof, "")] := by
  let eof : Token := ⟨.eof, "", .dummy, 1, 1⟩
  have heof : eof.text = "" := rfl
  obtain ⟨gaps, hlength, hgaps, hbetween, htext⟩ : ∃ gaps : List (List Char),
      gaps.length = w.length + 1 ∧ (∀ g ∈ gaps, Separator g) ∧
        (∀ g ∈ gaps.tail.dropLast, g ≠ []) ∧
          (" ".intercalate (w.map (·.text))).toList = fill gaps (w ++ [eof]) := by
    cases w with
    | nil => exact ⟨[[]], rfl, by simp [Separator.nil], by simp, rfl⟩
    | cons t w =>
      refine ⟨[] :: (w.map (fun _ => [' ']) ++ [[]]), by simp, ?_, by simp, ?_⟩
      · simp only [List.mem_cons, List.mem_append, List.mem_map, List.not_mem_nil, or_false]
        rintro g (rfl | ⟨-, -, rfl⟩ | rfl)
        · exact .nil
        · exact .space
        · exact .nil
      · rw [toList_intercalate_cons t w heof, List.cons_append, fill_cons, List.nil_append]
  rw [lex, Scanner.tokens_fill rfl hw hlength hgaps hbetween htext rfl, List.map_append]
  rfl

/-- The end of input is the last token of a source, and covers nothing. -/
theorem exists_lex_eq_label (source : String) : ∃ w eof, lex source = w ++ [eof] ∧
    eof.label = (.eof, "") ∧ ∀ t ∈ w, Scanner.Produces t := by
  obtain ⟨w, eof, hlex, hkind, hall⟩ := exists_lex_eq source
  obtain ⟨before, text, after, hstands, hscanned⟩ :=
    exists_stands_of_mem_lex (show eof ∈ lex source by simp [hlex])
  obtain ⟨rfl, -⟩ := hscanned.eq_nil hkind
  exact ⟨w, eof, hlex, by rw [Token.label, hkind, hstands.text_eq], hall⟩

/-- Separators do not matter.  Lexemes of a source without illegal characters, with any other
separators in front of them, between them and behind them, are the lexemes of a source with the same
kinds; the end of input has no lexeme. -/
theorem lex_separated {source : String} (hlegal : ∀ t ∈ lex source, t.kind ≠ .illegalChar)
    {gaps : List (List Char)} (hlength : gaps.length = (lex source).length)
    (hgaps : ∀ g ∈ gaps, Separator g) (hbetween : ∀ g ∈ gaps.tail.dropLast, g ≠ []) :
    (lex (String.ofList (fill gaps (lex source)))).map Token.label =
      (lex source).map Token.label := by
  obtain ⟨w, eof, hlex, heof, hproduces⟩ := exists_lex_eq_label source
  have hadmits : ∀ t ∈ w, t.kind.Admits t.text.toList := by
    intro t ht
    exact (hproduces t ht).2 (hlegal t (by simp [hlex, ht]))
  rw [hlex] at hlength ⊢
  have hunread : (Scanner.ofSource (String.ofList (fill gaps (w ++ [eof])))).unread =
      fill gaps (w ++ [eof]) := String.toList_ofList
  exact Scanner.tokens_fill heof hadmits (by simpa using hlength) hgaps hbetween hunread rfl

/-- Comments that hold quotes, slashes and openings of comments, right beside the lexemes. -/
theorem lex_separated_comments :
    let source := "a:=-\"/*\";"
    let gaps := ["/*\"/**/", "//\"/*\n", "/***/", " /*//*/", "/**/\n", ""].map String.toList
    (∀ t ∈ lex source, t.kind ≠ .illegalChar) ∧ gaps.length = (lex source).length ∧
      (∀ g ∈ gaps, Separator g) ∧ (∀ g ∈ gaps.tail.dropLast, g ≠ []) ∧
        (lex (String.ofList (fill gaps (lex source)))).map Token.label =
          (lex source).map Token.label := by
  intro source gaps
  have hlegal : ∀ t ∈ lex source, t.kind ≠ .illegalChar := by decide +kernel
  have hlength : gaps.length = (lex source).length := by decide +kernel
  have hgaps : ∀ g ∈ gaps, Separator g := by
    have hspace : Unicode.isBlank ' ' := by decide +kernel
    have hnewline : Unicode.isBlank '\n' := by decide +kernel
    simp only [gaps, List.forall_mem_map, List.forall_mem_cons]
    refine ⟨?_, ?_, ?_, ?_, ?_, .nil, by simp⟩
    · exact @Separator.blockComment ['"', '/', '*'] _ (by decide) .nil
    · exact @Separator.lineComment ['"', '/', '*'] _ (by decide) .nil
    · exact @Separator.blockComment ['*'] _ (by decide) .nil
    · exact .blank hspace (@Separator.blockComment ['/', '/'] _ (by decide) .nil)
    · exact @Separator.blockComment [] _ (by decide) (.blank hnewline .nil)
  have hbetween : ∀ g ∈ gaps.tail.dropLast, g ≠ [] := by decide
  exact ⟨hlegal, hlength, hgaps, hbetween, lex_separated hlegal hlength hgaps hbetween⟩

end TeachLang
