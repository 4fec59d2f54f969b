import TeachLang.Proofs.Text.Bytes
import TeachLang.Proofs.Token.Scanning
import TeachLang.Proofs.Token.Trivia

/-! # Tiling

The tokens of a source and the gaps between them cover it from its first byte to its last.
A token stands where it says: its span, its line and its column belong to the one place
of the source at which its text was read.
-/

namespace TeachLang

/-- Tokens that cover a text, which begins at a position of its source, up to its end. -/
inductive Tiles (source : String) : Position → List Char → List Token → Prop
  | eof {p : Position} {gap : List Char} (gap_ok : Gap [] gap) :
      Tiles source p gap [.covering source .eof (p.advanceAll gap) []]
  | lexeme {p : Position} {gap body rest : List Char} {c : Char} {kind : TokenKind}
      {ts : List Token} (gap_ok : Gap (c :: (body ++ rest)) gap)
      (no_trivia : Trivia.piece? (c :: (body ++ rest)) = none)
      (read_ok : Lexeme.read c (body ++ rest) = (kind, body, rest))
      (more : Tiles source ((p.advanceAll gap).advanceAll (c :: body)) rest ts) :
      Tiles source p (gap ++ c :: (body ++ rest))
        (.covering source kind (p.advanceAll gap) (c :: body) :: ts)

/-- One step of a scanner produces the end of input behind a gap, or a lexeme behind a gap. -/
theorem Scanner.tiles_tokens {s : Scanner} (h : s.finished = false) :
    Tiles s.source s.position s.unread s.tokens := by
  induction hn : s.bound using Nat.strongRecOn generalizing s with
  | ind n ih =>
    subst hn
    have hlt : s.step.2.bound < s.bound :=
      bound_lt_of_next? (by rw [next?, h, if_neg Bool.false_ne_true])
    have happ := Trivia.split_append s.unread
    have hgap := Trivia.gap_split s.unread
    have hnone := Trivia.piece?_split s.unread
    have hmore : s.step.2.finished = false →
        Tiles s.step.2.source s.step.2.position s.step.2.unread s.step.2.tokens :=
      fun hfinished => ih _ hlt hfinished rfl
    rw [tokens_of_unfinished h]
    rcases hs : Trivia.split s.unread with ⟨gap, rest⟩
    rw [hs] at happ hgap hnone
    cases rest with
    | nil =>
      obtain rfl : gap = s.unread := by simpa using happ
      simp only [step, hs]
      rw [tokens_of_finished rfl]
      exact .eof hgap
    | cons c cs =>
      have hread := Lexeme.read_append c cs
      rcases hr : Lexeme.read c cs with ⟨kind, body, rest⟩
      rw [hr] at hread
      obtain rfl : body ++ rest = cs := hread
      simp only [step, hs, hr] at hmore ⊢
      rw [← happ]
      exact .lexeme hgap hnone hr (hmore h)

theorem tiles_lex (source : String) : Tiles source .start source.toList (lex source) :=
  Scanner.tiles_tokens (s := .ofSource source) rfl

/-- A token covers its text in a source that is split in front of the text and behind it. -/
structure Token.Stands (t : Token) (source : String) (before text after : List Char) : Prop where
  source_eq : source.toList = before ++ (text ++ after)
  eq_covering : t = .covering source t.kind (Position.start.advanceAll before) text

namespace Token.Stands

variable {t : Token} {source : String} {before text after : List Char}
  (h : t.Stands source before text after)

include h

theorem text_eq : t.text = String.ofList text := by rw [h.eq_covering, covering]

theorem span_eq :
    t.span = ⟨source, byteCount before, byteCount before + byteCount text⟩ := by
  rw [h.eq_covering, covering, ← Position.advanceAll_append, Position.offset_advanceAll,
    Position.offset_advanceAll, byteCount_append]
  simp [Position.start]

theorem chars_span : t.span.chars = text := by
  rw [h.span_eq, Span.chars_eq h.source_eq]

theorem dropBytes_stop : dropBytes t.span.stop source.toList = after := by
  rw [h.span_eq, h.source_eq, ← List.append_assoc, ← byteCount_append, dropBytes_append]

end Token.Stands

/-- How the scanner came to a token: at the end of its source, or by the lexeme that begins where no
trivia does. -/
inductive Token.Scanned (t : Token) : List Char → List Char → Prop
  | eof (kind_eq : t.kind = .eof) : Scanned t [] []
  | lexeme {c : Char} {body rest : List Char}
      (no_trivia : Trivia.piece? (c :: (body ++ rest)) = none)
      (read_ok : Lexeme.read c (body ++ rest) = (t.kind, body, rest)) : Scanned t (c :: body) rest

theorem Tiles.exists_stands {source : String} {p : Position} {cs : List Char} {ts : List Token}
    (h : Tiles source p cs ts) (before : List Char) (hsource : source.toList = before ++ cs)
    (hp : p = Position.start.advanceAll before) {t : Token} (ht : t ∈ ts) :
    ∃ before text after, t.Stands source before text after ∧ t.Scanned text after := by
  induction h generalizing before with
  | @eof p gap _ =>
    obtain rfl := List.mem_singleton.1 ht
    refine ⟨before ++ gap, [], [], ⟨by simp [hsource], ?_⟩, .eof rfl⟩
    rw [Position.advanceAll_append, ← hp]
    rfl
  | @lexeme p gap body rest c kind ts _ hnone hread _ ih =>
    rcases List.mem_cons.1 ht with rfl | ht
    · refine ⟨before ++ gap, c :: body, rest, ⟨by simp [hsource], ?_⟩, .lexeme hnone hread⟩
      rw [Position.advanceAll_append, ← hp]
      rfl
    · refine ih (before ++ (gap ++ c :: body)) (by simp [hsource]) ?_ ht
      rw [Position.advanceAll_append, Position.advanceAll_append, ← hp]

theorem exists_stands_of_mem_lex {source : String} {t : Token} (h : t ∈ lex source) :
    ∃ before text after, t.Stands source before text after ∧ t.Scanned text after :=
  (tiles_lex source).exists_stands [] rfl rfl h

/-- The characters of a span are trivia in front of what follows the span. -/
def Span.IsTrivia (s : Span) : Prop := Gap (dropBytes s.stop s.source.toList) s.chars

/-- The spans in front of some tokens, each from the end of the token before; the first begins at a
given offset. -/
def gapsFrom (source : String) (offset : Nat) : List Token → List Span
  | [] => []
  | t :: ts => ⟨source, offset, t.span.start⟩ :: gapsFrom source t.span.stop ts

/-- Some gaps and the texts of the tokens behind them in turn. -/
def interleave (gaps : List Span) (ts : List Token) : List Char :=
  (gaps.zip ts).flatMap fun x => x.1.chars ++ x.2.text.toList

theorem Span.isTrivia_of_gap {source : String} {before gap rest : List Char}
    (hsource : source.toList = before ++ (gap ++ rest)) (hgap : Gap rest gap) :
    (⟨source, byteCount before, byteCount before + byteCount gap⟩ : Span).IsTrivia := by
  rw [IsTrivia, chars_eq hsource]
  dsimp only
  rwa [hsource, ← byteCount_append, ← List.append_assoc, dropBytes_append]

theorem Position.offset_eq {p : Position} {before : List Char} (hp : p.offset = byteCount before)
    (cs : List Char) : (p.advanceAll cs).offset = byteCount (before ++ cs) := by
  rw [offset_advanceAll, hp, byteCount_append]

theorem gapsFrom_covering {source : String} {p : Position} {before : List Char}
    (hp : p.offset = byteCount before) (kind : TokenKind) (gap text : List Char) (ts : List Token) :
    gapsFrom source (byteCount before) (.covering source kind (p.advanceAll gap) text :: ts) =
      ⟨source, byteCount before, byteCount before + byteCount gap⟩ ::
        gapsFrom source (byteCount (before ++ gap ++ text)) ts := by
  have hstart := Position.offset_eq hp gap
  have hstop := Position.offset_eq hstart text
  simp only [gapsFrom, Token.covering, hstop, hstart]
  rw [byteCount_append before gap]

theorem interleave_cons (g : Span) (gs : List Span) (t : Token) (ts : List Token) :
    interleave (g :: gs) (t :: ts) = g.chars ++ (t.text.toList ++ interleave gs ts) := by
  simp [interleave]

namespace Tiles

variable {source : String} {p : Position} {cs : List Char} {ts : List Token}

theorem isTrivia (h : Tiles source p cs ts) (before : List Char)
    (hsource : source.toList = before ++ cs) (hp : p.offset = byteCount before) :
    ∀ g ∈ gapsFrom source (byteCount before) ts, g.IsTrivia := by
  induction h generalizing before with
  | @eof p gap hgap =>
    rw [gapsFrom_covering hp, List.forall_mem_cons]
    exact ⟨Span.isTrivia_of_gap (by simp [hsource]) hgap, by simp [gapsFrom]⟩
  | @lexeme p gap body rest c kind ts hgap _ _ _ ih =>
    rw [gapsFrom_covering hp, List.forall_mem_cons]
    refine ⟨Span.isTrivia_of_gap hsource hgap, ih _ (by simp [hsource]) ?_⟩
    exact Position.offset_eq (Position.offset_eq hp gap) (c :: body)

theorem interleave_eq (h : Tiles source p cs ts) (before : List Char)
    (hsource : source.toList = before ++ cs) (hp : p.offset = byteCount before) :
    interleave (gapsFrom source (byteCount before) ts) ts = cs := by
  induction h generalizing before with
  | @eof p gap _ =>
    have hsplit : source.toList = before ++ (gap ++ []) := by simpa using hsource
    have hchars := Span.chars_eq hsplit
    rw [gapsFrom_covering hp, interleave_cons, hchars]
    simp [interleave, gapsFrom, Token.covering]
  | @lexeme p gap body rest c kind ts _ _ _ _ ih =>
    have hstop := Position.offset_eq (Position.offset_eq hp gap) (c :: body)
    rw [gapsFrom_covering hp, interleave_cons, Span.chars_eq hsource,
      ih _ (by simp [hsource]) hstop]
    simp [Token.covering]

theorem offset_le (h : Tiles source p cs ts) : ∀ t ∈ ts, p.offset ≤ t.span.start := by
  induction h with
  | eof _ =>
    simp only [List.mem_singleton, forall_eq, Token.covering, Position.offset_advanceAll]
    omega
  | lexeme _ _ _ _ ih =>
    simp only [Position.offset_advanceAll] at ih
    simp only [List.forall_mem_cons, Token.covering, Position.offset_advanceAll]
    refine ⟨by omega, fun t ht => ?_⟩
    have := ih t ht
    omega

/-- Tokens stand one behind the other. -/
theorem pairwise (h : Tiles source p cs ts) :
    ts.Pairwise fun t u => t.span.start < u.span.start ∧ t.span.stop ≤ u.span.start := by
  induction h with
  | eof _ => exact List.pairwise_singleton _ _
  | @lexeme p gap body rest c kind ts _ _ _ hmore ih =>
    refine List.pairwise_cons.2 ⟨fun u hu => ?_, ih⟩
    have hle := hmore.offset_le u hu
    have hpos := byteCount_pos (List.cons_ne_nil c body)
    simp only [Position.offset_advanceAll] at hle
    simp only [Token.covering, Position.offset_advanceAll]
    exact ⟨by omega, by omega⟩

end Tiles

/-- A scanner that is asked again and again produces all its tokens, and then nothing any more. -/
theorem Scanner.take_length_add (s : Scanner) (extra : Nat) :
    s.take (s.tokens.length + extra) = s.tokens.map some ++ List.replicate extra none := by
  fun_induction tokens s with
  | case1 s t r h ih =>
    rw [List.length_cons, Nat.add_right_comm, take, h]
    simp [ih]
  | case2 s h =>
    rw [List.length_nil, Nat.zero_add]
    induction extra with
    | zero => rfl
    | succ extra ih =>
      rw [take, h]
      simp [ih, List.replicate_succ]

theorem Lexeme.read_ne_eof (c : Char) (cs : List Char) : (read c cs).1 ≠ .eof := by
  intro heof
  have hadmits := admits_read c cs
  rw [heof] at hadmits
  exact hadmits (by decide)

theorem Token.Scanned.eq_nil {t : Token} {text after : List Char} (h : t.Scanned text after)
    (hkind : t.kind = .eof) : text = [] ∧ after = [] := by
  cases h with
  | eof _ => exact ⟨rfl, rfl⟩
  | @lexeme c body _ _ hread =>
    have hne := Lexeme.read_ne_eof c (body ++ after)
    rw [hread] at hne
    exact absurd hkind hne

theorem Token.Scanned.ne_nil {t : Token} {text after : List Char} (h : t.Scanned text after)
    (hkind : t.kind ≠ .eof) : text ≠ [] := by
  cases h with
  | eof heof => exact absurd heof hkind
  | lexeme _ _ => exact List.cons_ne_nil _ _

/-- The tokens of a source tile it.  The last one and no other is the end of input, right behind the
last byte; all spans are good ones, and those of the other tokens are not empty and stand one behind
the other; all gaps are trivia, and with the texts of the tokens they are the source.  A scanner
that has produced the end of input produces nothing more. -/
theorem lex_tiles (source : String) :
    (∃ w eof, lex source = w ++ [eof] ∧ eof.kind = .eof ∧ eof.text = "" ∧
      eof.span = .endOf source ∧ ∀ t ∈ w, t.kind ≠ .eof) ∧
    (∀ t ∈ lex source, Span.new? source t.span.start t.span.stop = some t.span ∧
      t.text = t.span.text ∧ (t.kind ≠ .eof → t.span.start < t.span.stop)) ∧
    ((lex source).Pairwise fun t u =>
      t.span.start < u.span.start ∧ t.span.stop ≤ u.span.start) ∧
    (∀ g ∈ gapsFrom source 0 (lex source), g.IsTrivia) ∧
    interleave (gapsFrom source 0 (lex source)) (lex source) = source.toList ∧
    ∀ extra, (Scanner.ofSource source).take ((lex source).length + extra) =
      (lex source).map some ++ List.replicate extra none := by
  have htiles := tiles_lex source
  refine ⟨?_, fun t ht => ?_, htiles.pairwise, htiles.isTrivia [] rfl rfl,
    htiles.interleave_eq [] rfl rfl, Scanner.take_length_add _⟩
  · obtain ⟨w, eof, hlex, heof, hw⟩ := exists_lex_eq source
    obtain ⟨before, text, after, hstands, hscanned⟩ :=
      exists_stands_of_mem_lex (show eof ∈ lex source by simp [hlex])
    obtain ⟨rfl, rfl⟩ := hscanned.eq_nil heof
    have hend : byteCount before = source.utf8ByteSize := by
      rw [← byteCount_toList, hstands.source_eq, List.append_nil, List.append_nil]
    refine ⟨w, eof, hlex, heof, by rw [hstands.text_eq], ?_, fun t ht => (hw t ht).1⟩
    rw [hstands.span_eq, byteCount_nil, Nat.add_zero, hend, Span.endOf]
  · obtain ⟨before, text, after, hstands, hscanned⟩ := exists_stands_of_mem_lex ht
    rw [hstands.text_eq, Span.text, hstands.chars_span, hstands.span_eq]
    refine ⟨Span.new?_eq_some hstands.source_eq, rfl, fun hkind => ?_⟩
    have hpos := byteCount_pos (hscanned.ne_nil hkind)
    dsimp only
    omega

end TeachLang
