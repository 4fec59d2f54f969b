import TeachLang.Proofs.Token.Munch

/-! # Scanning line by line

No lexeme but a block comment goes on behind a newline, so that a text is scanned apart from what
stands on the lines behind it.  The tokens of two texts with a newline between them are those of
the first and then those of the second, unless the first text opens a comment that it does not
close.
-/

namespace TeachLang

/-- A slash that would begin a block comment, if that were closed. -/
def Token.OpensComment (t : Token) : Prop :=
  t.kind = .illegalChar ∧ t.text = "/" ∧
    (dropBytes t.span.stop t.span.source.toList).head? = some '*'

instance (t : Token) : Decidable t.OpensComment :=
  inferInstanceAs (Decidable (_ ∧ _ ∧ _))

def Token.moved (source : String) (bytes lines : Nat) (t : Token) : Token where
  kind := t.kind
  text := t.text
  span := ⟨source, t.span.start + bytes, t.span.stop + bytes⟩
  line := t.line + lines
  column := t.column

def Position.moved (bytes lines : Nat) (p : Position) : Position :=
  ⟨p.offset + bytes, p.line + lines, p.column⟩

section

variable (bytes lines : Nat) (p : Position)

theorem Position.advance_moved (c : Char) :
    (p.moved bytes lines).advance c = (p.advance c).moved bytes lines := by
  unfold advance
  split <;> simp [moved, Nat.add_right_comm]

theorem Position.advanceAll_moved (cs : List Char) :
    (p.moved bytes lines).advanceAll cs = (p.advanceAll cs).moved bytes lines := by
  induction cs generalizing p with
  | nil => rfl
  | cons c cs ih => rw [advanceAll_cons, advance_moved, ih, advanceAll_cons]

theorem Token.moved_covering (source source' : String) (kind : TokenKind) (cs : List Char) :
    (covering source kind p cs).moved source' bytes lines =
      .covering source' kind (p.moved bytes lines) cs := by
  rw [covering, covering, Position.advanceAll_moved]
  rfl

end

namespace Gap

variable {rest gap : List Char}

/-- A gap is one in front of every text that begins with the same character or with a newline. -/
theorem of_head? (h : Gap rest gap) {rest' : List Char}
    (hhead : ∀ c ∈ rest'.head?, c = '\n' ∨ c ∈ rest.head?) : Gap rest' gap := by
  induction h with
  | nil => exact .nil
  | blank hblank _ ih => exact .blank hblank ih
  | @lineComment body cs hnewline hends _ ih =>
    refine .lineComment hnewline ?_ ih
    cases cs with
    | nil => exact fun c hc => (hhead c hc).elim id (hends c)
    | cons d cs => exact hends
  | blockComment hclosing _ ih => exact .blockComment hclosing ih

theorem append {gap' : List Char} (h : Gap (gap' ++ rest) gap) (h' : Gap rest gap') :
    Gap rest (gap ++ gap') := by
  induction h with
  | nil => exact h'
  | blank hblank _ ih => exact .blank hblank ih
  | @lineComment body cs hnewline hends _ ih =>
    simp only [List.cons_append, List.append_assoc]
    exact .lineComment hnewline (by rwa [List.append_assoc]) ih
  | @blockComment body cs hclosing _ ih =>
    simp only [List.cons_append, List.append_assoc]
    exact .blockComment hclosing ih

end Gap

theorem Trivia.piece?_slash {cs : List Char} (hline : cs.head? ≠ some '/')
    (hblock : cs.head? ≠ some '*') : piece? ('/' :: cs) = none := by
  unfold piece?
  split
  next heq =>
    cases heq
    exact absurd rfl hline
  next heq =>
    cases heq
    exact absurd rfl hblock
  next heq =>
    cases heq
    rfl
  next heq => cases heq

/-- Where no trivia begins, none begins if the text goes on behind a newline, unless a comment that
is open might be closed there. -/
theorem Trivia.piece?_append_newline {c : Char} {cs : List Char} (h : piece? (c :: cs) = none)
    (hopen : c = '/' → cs.head? ≠ some '*') (more : List Char) :
    piece? (c :: (cs ++ '\n' :: more)) = none := by
  by_cases hslash : c = '/'
  · subst hslash
    have hline := (slash_of_piece? h).1
    have hblock := hopen rfl
    cases cs with
    | nil => exact piece?_slash (by simp) (by simp)
    | cons d cs => exact piece?_slash hline hblock
  · exact piece?_eq_none (not_isBlank_of_piece? h) hslash

namespace Lexeme

variable (cs more : List Char)

theorem closeString?_append_newline : closeString? (cs ++ '\n' :: more) =
    (closeString? cs).map fun p => (p.1, p.2 ++ '\n' :: more) := by
  fun_induction closeString? cs with
  | case1 cs ih =>
    simp only [List.cons_append, closeString?, ih, Option.map_map]
    rfl
  | case2 cs hpair =>
    cases cs with
    | nil => rfl
    | cons d cs =>
      have hd : d ≠ '"' := fun heq => hpair cs (heq ▸ rfl)
      simp [closeString?, hd]
  | case3 => rfl
  | case4 c cs hpair hquote hnewline ih =>
    have hstep : closeString? (c :: (cs ++ '\n' :: more)) =
        (closeString? (cs ++ '\n' :: more)).map fun p => (c :: p.1, p.2) := by
      rw [closeString?.eq_def]
      split <;> simp_all
    rw [List.cons_append, hstep, ih, Option.map_map, Option.map_map]
    rfl
  | case5 => rfl

theorem takeWhile_append_newline {p : Char → Bool} (hp : p '\n' = false) :
    (cs ++ '\n' :: more).takeWhile p = cs.takeWhile p ∧
      (cs ++ '\n' :: more).dropWhile p = cs.dropWhile p ++ '\n' :: more := by
  induction cs with
  | nil => simp [hp]
  | cons c cs ih => cases hc : p c <;> simp [hc, ih]

theorem symbol_append_newline (c : Char) : symbol c (cs ++ '\n' :: more) = symbol c cs := by
  cases cs with
  | nil =>
    unfold symbol
    split <;> simp_all
  | cons d cs =>
    unfold symbol
    split <;> simp_all

theorem length_symbol_le (c : Char) : (symbol c cs).2 ≤ cs.length := by
  unfold symbol
  split <;> simp

/-- A lexeme is read without a look behind its line. -/
theorem read_append_newline (c : Char) : read c (cs ++ '\n' :: more) =
    ((read c cs).1, (read c cs).2.1, (read c cs).2.2 ++ '\n' :: more) := by
  have hword := takeWhile_append_newline cs more
    (Unicode.not_isXidContinue_of_isBlank (c := '\n') (by decide +kernel))
  have hdigits := takeWhile_append_newline cs more (p := Char.isDigit) (by decide)
  have hle := length_symbol_le cs c
  rw [read, closeString?_append_newline, symbol_append_newline, hword.1, hword.2, hdigits.1,
    hdigits.2, read]
  split
  · rfl
  split
  · cases closeString? cs <;> rfl
  split
  · rfl
  split
  · rfl
  · simp only [List.take_append_of_le_length hle, List.drop_append_of_le_length hle]

end Lexeme

namespace Tiles

variable {source source' : String} {p : Position} {cs : List Char} {ts : List Token}

theorem moved (h : Tiles source p cs ts) (source' : String) (bytes lines : Nat) :
    Tiles source' (p.moved bytes lines) cs (ts.map (Token.moved source' bytes lines)) := by
  induction h with
  | eof hgap =>
    rw [List.map_singleton, Token.moved_covering, ← Position.advanceAll_moved]
    exact .eof hgap
  | lexeme hgap hnone hread _ ih =>
    rw [← Position.advanceAll_moved, ← Position.advanceAll_moved] at ih
    rw [List.map_cons, Token.moved_covering, ← Position.advanceAll_moved]
    exact .lexeme hgap hnone hread ih

/-- A gap in front of a text belongs to the gap that the text begins with. -/
theorem gap_append {gap : List Char} (hgap : Gap cs gap)
    (h : Tiles source (p.advanceAll gap) cs ts) : Tiles source p (gap ++ cs) ts := by
  cases h with
  | @eof _ gap' hgap' =>
    rw [← Position.advanceAll_append]
    exact .eof (.append (by rwa [List.append_nil]) hgap')
  | @lexeme _ gap' body rest c kind ts hgap' hnone hread hmore =>
    rw [← Position.advanceAll_append p gap gap'] at hmore ⊢
    rw [← List.append_assoc]
    exact .lexeme (hgap.append hgap') hnone hread hmore

/-- The tokens of a text that leaves no comment open stay where a newline and more text follow. -/
theorem append_newline (h : Tiles source p cs ts) (before : List Char)
    (hsource : source.toList = before ++ cs) (hp : p.offset = byteCount before)
    (hopen : ∀ t ∈ ts, ¬ t.OpensComment) {more : List Char} {us : List Token}
    (hmore : Tiles source' (p.advanceAll cs) ('\n' :: more) us) :
    Tiles source' p (cs ++ '\n' :: more)
      ((ts.filter (·.kind ≠ .eof)).map (Token.moved source' 0 0) ++ us) := by
  induction h generalizing before with
  | @eof p gap hgap => exact gap_append (hgap.of_head? (by simp)) hmore
  | @lexeme p gap body rest c kind ts hgap hnone hread _ ih =>
    obtain ⟨hfirst, hopen⟩ := List.forall_mem_cons.1 hopen
    have hstop := Position.offset_eq (Position.offset_eq hp gap) (c :: body)
    have hsplit : source.toList = (before ++ gap ++ c :: body) ++ rest := by simp [hsource]
    have hslash : c = '/' → (body ++ rest).head? ≠ some '*' := by
      rintro rfl hstar
      obtain ⟨rfl, rfl, -⟩ : TokenKind.illegalChar = kind ∧ [] = body ∧ body ++ rest = rest := by
        simpa [Lexeme.read] using hread
      refine hfirst ⟨rfl, rfl, ?_⟩
      simpa only [Token.covering, hstop, hsplit, dropBytes_append, List.nil_append] using hstar
    have hreads := Lexeme.read_append_newline (body ++ rest) more c
    rw [hread, List.append_assoc] at hreads
    have hkind : kind ≠ .eof := by
      rintro rfl
      exact Lexeme.read_ne_eof c (body ++ rest) (congrArg Prod.fst hread)
    have hrest := ih (before ++ gap ++ c :: body) hsplit hstop hopen (by
      rwa [← Position.advanceAll_append, ← Position.advanceAll_append])
    rw [List.filter_cons_of_pos (by simpa [Token.covering] using hkind), List.map_cons,
      Token.moved_covering]
    simp only [List.append_assoc, List.cons_append]
    refine .lexeme (hgap.of_head? (by simp)) ?_ hreads hrest
    rw [← List.append_assoc]
    exact Trivia.piece?_append_newline hnone hslash more

/-- A text is tiled by the tokens that are scanned and by no others. -/
theorem tokens_eq (h : Tiles source p cs ts) :
    (⟨source, p, cs, false⟩ : Scanner).tokens = ts := by
  induction h with
  | @eof p gap hgap =>
    have hsplit := Trivia.split_of_gap hgap rfl
    rw [List.append_nil] at hsplit
    rw [Scanner.tokens_of_unfinished rfl]
    simp only [Scanner.step, hsplit]
    rw [Scanner.tokens_of_finished rfl]
  | @lexeme p gap body rest c kind ts hgap hnone hread _ ih =>
    have hsplit := Trivia.split_of_gap hgap hnone
    rw [Scanner.tokens_of_unfinished rfl]
    simp only [Scanner.step, hsplit, hread]
    rw [ih]

end Tiles

/-- A newline ends every lexeme.  The tokens of a text that leaves no comment open and of another
text on the lines behind it are the tokens of the first text without its end of input, and behind
them those of the second text, as many bytes and lines further on as the first text and the newline
take and in the same columns. -/
theorem lex_append_newline {a b : String} (h : ∀ t ∈ lex a, ¬ t.OpensComment) :
    lex (a ++ "\n" ++ b) =
      ((lex a).filter (·.kind ≠ .eof)).map (Token.moved (a ++ "\n" ++ b) 0 0) ++
        (lex b).map (Token.moved (a ++ "\n" ++ b) (a.utf8ByteSize + 1)
          (a.toList.count '\n' + 1)) := by
  set source := a ++ "\n" ++ b with hsource
  have hchars : source.toList = a.toList ++ '\n' :: b.toList := by
    simp [hsource, String.toList_append]
  have hplace : ((Position.start.advanceAll a.toList).advanceAll ['\n']) =
      Position.start.moved (a.utf8ByteSize + 1) (a.toList.count '\n' + 1) := by
    have hoffset := Position.offset_advanceAll .start a.toList
    have hline := Position.line_advanceAll .start a.toList
    rw [byteCount_toList] at hoffset
    generalize Position.start.advanceAll a.toList = p at hoffset hline
    change (⟨p.offset + 1, p.line + 1, 1⟩ : Position) = _
    rw [hoffset, hline, Nat.add_assoc, Nat.add_assoc]
    rfl
  have hsecond := (tiles_lex b).moved source (a.utf8ByteSize + 1) (a.toList.count '\n' + 1)
  rw [← hplace] at hsecond
  have hnewline : Gap b.toList ['\n'] := .blank (by decide +kernel) .nil
  have hbehind : Tiles source (Position.start.advanceAll a.toList) ('\n' :: b.toList) _ :=
    Tiles.gap_append hnewline hsecond
  have htiles := (tiles_lex a).append_newline [] rfl rfl h hbehind
  rw [← hchars] at htiles
  exact htiles.tokens_eq

/-- An open string, and openings of comments in a string and behind a line comment; what follows
would close them. -/
theorem lex_append_newline_openings :
    let a := "x := \"/*\" \"ñ // /*"
    let b := "\ty */ \" /* z"
    (∀ t ∈ lex a, ¬ t.OpensComment) ∧
      lex (a ++ "\n" ++ b) =
        ((lex a).filter (·.kind ≠ .eof)).map (Token.moved (a ++ "\n" ++ b) 0 0) ++
          (lex b).map (Token.moved (a ++ "\n" ++ b) (a.utf8ByteSize + 1)
            (a.toList.count '\n' + 1)) := by
  intro a b
  have h : ∀ t ∈ lex a, ¬ t.OpensComment := by decide +kernel
  exact ⟨h, lex_append_newline h⟩

end TeachLang
