import TeachLang.Proofs.Grammar.Cursor
import TeachLang.Proofs.Grammar.Prediction.Declaration
import TeachLang.Proofs.Grammar.RoundTrip
import TeachLang.Proofs.Token.Tiling

/-! # Earliest syntax errors

A syntax error reports the first token that no program has there.  The kinds in front of it go on
to a program, since the parser is predictive for the documented grammar; no program starts with
them and the kind of the reported token, since the parser would fail on it in the same way.
-/

namespace TeachLang

open TokenStream (Reads)

namespace TokenKind

/-- A text of each kind of token that stands in programs. -/
def sample : TokenKind → String
  | identifier => "x"
  | intLiteral => "0"
  | stringLiteral => "\"\""
  | kind => kind.spelling?.getD ""

theorem admits_sample {kind : TokenKind} (heof : kind ≠ eof) (hillegal : kind ≠ illegalChar) :
    kind.Admits kind.sample.toList := by
  have hfixed : ∀ kind : TokenKind,
      kind ∉ [identifier, intLiteral, stringLiteral, illegalChar, eof] →
        kind.spelling? = some kind.sample := by
    intro kind
    cases kind <;> decide
  by_cases hmem : kind ∈ [identifier, intLiteral, stringLiteral, illegalChar, eof]
  · simp only [List.mem_cons, List.not_mem_nil, heof, hillegal, or_false] at hmem
    rcases hmem with rfl | rfl | rfl
    · exact ⟨⟨'x', [], rfl, by decide +kernel, by simp⟩, by decide +kernel⟩
    · refine ⟨List.cons_ne_nil _ _, fun c hc => ?_⟩
      obtain rfl : c = '0' := List.mem_singleton.1 hc
      decide
    · exact ⟨[], rfl, .nil⟩
  · exact admits_of_spelling? (hfixed kind hmem)

end TokenKind

/-- Every sentence of the grammar is the kinds of some source. -/
theorem exists_kinds_lex_eq {ks : List TokenKind} (h : Derives (.part .program) ks) :
    ∃ source, kinds (lex source) = ks := by
  have hillegal := h.illegalChar_not_mem
  obtain ⟨js, rfl, heof⟩ := h.program_eq
  let w : List Token := js.map fun kind => ⟨kind, kind.sample, ⟨"", 0, 0⟩, 0, 0⟩
  refine ⟨" ".intercalate (w.map (·.text)), ?_⟩
  have hadmitted : ∀ t ∈ w, t.kind.Admits t.text.toList := by
    intro t ht
    obtain ⟨kind, hkind, rfl⟩ := List.mem_map.1 ht
    refine TokenKind.admits_sample ?_ ?_
    · rintro rfl
      exact heof hkind
    · rintro rfl
      exact hillegal (List.mem_append_left _ hkind)
  have hlabels : (lex (" ".intercalate (w.map (·.text)))).map Token.label =
      (w ++ [Token.fixed .eof]).map Token.label := by
    rw [lex_intercalate w hadmitted, List.map_append]
    rfl
  rw [kinds_congr hlabels, kinds, List.map_append, List.map_map]
  simp [Function.comp_def, Token.fixed]

/-- In front of a kind that goes on to a program, there is no end of input. -/
theorem Viable.eof_not_mem {k : TokenKind} {ks : List TokenKind}
    (h : Viable (.part .program) (ks ++ [k])) : .eof ∉ ks := by
  obtain ⟨more, hmore⟩ := h
  obtain ⟨js, hjs, heof⟩ := hmore.program_eq
  have hlength := congrArg List.length hjs
  have hstart : ks <+: js ++ [.eof] := ⟨k :: more, by rw [← hjs]; simp⟩
  rcases List.prefix_concat_iff.1 hstart with rfl | hstart
  · simp at hlength
  · exact fun hmem => heof (hstart.subset hmem)

/-- Kinds in a row that the tokens of some source that parses start with. -/
def StartsProgram (ks : List TokenKind) : Prop :=
  ∃ source p, (parseProgram source).1 = .ok p ∧ ks <+: kinds (lex source)

/-- The programs that parse start as the sentences of the documented grammar do. -/
theorem startsProgram_iff (ks : List TokenKind) :
    StartsProgram ks ↔ Viable (.part .program) ks := by
  constructor
  · rintro ⟨source, p, hp, more, hmore⟩
    refine ⟨more, ?_⟩
    rw [hmore]
    exact ((parseProgram_eq_ok_iff source p).1 hp).derives
  · rintro ⟨more, hmore⟩
    obtain ⟨source, hsource⟩ := exists_kinds_lex_eq hmore
    rw [← hsource] at hmore
    obtain ⟨p, hp⟩ := exists_program_written hmore
    exact ⟨source, p, (parseProgram_eq_ok_iff source p).2 hp, more, hsource.symm⟩

theorem StartsProgram.illegalChar_not_mem {ks : List TokenKind} (h : StartsProgram ks) :
    .illegalChar ∉ ks := by
  obtain ⟨more, hmore⟩ := (startsProgram_iff ks).1 h
  exact fun hmem => hmore.illegalChar_not_mem (List.mem_append_left _ hmem)

/-- What is in sight behind some tokens, none of which is of the sort that all tokens end with. -/
theorem TokenStream.exists_reads_current {σ : Type} [TokenStream σ] {P : Token → Prop}
    {s left end' : σ} {w v : List Token} {d : Token} (hw : Reads s w left)
    (hv : Reads s (v ++ [d]) end') (hd : P d) (hne : ∀ t ∈ w, ¬ P t) :
    ∃ rest, v ++ [d] = w ++ current left :: rest := by
  induction w generalizing s v with
  | nil =>
    obtain rfl := reads_nil.1 hw
    cases v with
    | nil => exact ⟨[], by rw [hv.1]⟩
    | cons t v => exact ⟨v ++ [d], by rw [hv.1, List.nil_append, List.cons_append]⟩
  | cons t w ih =>
    obtain ⟨ht, htail⟩ := List.forall_mem_cons.1 hne
    cases v with
    | nil =>
      have htd : t = d := hw.1.symm.trans hv.1
      exact absurd (htd ▸ hd) ht
    | cons t' v =>
      obtain ⟨rest, hrest⟩ := ih hw.2 hv.2 htail
      have htt : t = t' := hw.1.symm.trans hv.1
      exact ⟨rest, by rw [List.cons_append, hrest, htt, List.cons_append]⟩

/-- The tokens of a source are all different, as they start at different places. -/
theorem lex_index_unique {source : String} {i j : Nat} {t : Token}
    (hi : (lex source)[i]? = some t) (hj : (lex source)[j]? = some t) : i = j := by
  have hlt : ∀ i j : Nat, i < j → (lex source)[i]? = some t →
      (lex source)[j]? = some t → False := by
    intro i j hij hi hj
    obtain ⟨hlength', rfl⟩ := List.getElem?_eq_some_iff.1 hi
    obtain ⟨hlength, hsame⟩ := List.getElem?_eq_some_iff.1 hj
    have hpairwise := List.pairwise_iff_getElem.1 (tiles_lex source).pairwise
    have hstart := (hpairwise i j hlength' hlength hij).1
    rw [hsame] at hstart
    exact Nat.lt_irrefl _ hstart
  rcases Nat.lt_trichotomy i j with h | h | h
  · exact (hlt i j h hi hj).elim
  · exact h
  · exact (hlt j i h hj hi).elim

section

variable {source : String} {e : SyntaxError}

/-- What a syntax error tells about the tokens in front of the one that it reports: what it offers
goes on with them, and a parser with at least as much fuel fails behind them in any stream. -/
theorem exists_of_parseProgram_error (h : (parseProgram source).1 = .error e) {more : Nat}
    (hmore : TokenStream.bound (Cursor.ofSource source) ≤ more) :
    ∃ w rest, lex source = w ++ e.found :: rest ∧
      Fits (.part .program) (kinds w) (.error e : Except SyntaxError Program) ∧
      ∀ s left : List Token, Reads s w left → TokenStream.current left = e.found →
        (Grammar.program more s).1 = .error e := by
  obtain ⟨w, hw⟩ := Grammar.program_predictive (τ := List Token) (Nat.le_refl _) hmore
    (Cursor.ofSource source) (Cursor.legible_ofSource source)
  change Parser.Explains _ _ _ _ (parseProgram source) w at hw
  rcases hp : parseProgram source with ⟨result, left⟩
  rw [hp] at h hw
  obtain rfl : result = .error e := h
  -- something still goes on, so the end of input was not read and the tokens are the first ones
  obtain ⟨⟨k, hk⟩, -⟩ := hw.fits
  obtain ⟨z, d, hlex, hd, -⟩ := exists_lex_eq source
  obtain ⟨end', hreads⟩ := Cursor.exists_reads_lex source
  rw [hlex] at hreads
  obtain ⟨rest, hrest⟩ := TokenStream.exists_reads_current (P := fun t => t.kind = .eof) hw.reads
    hreads hd fun t ht hkind => hk.eof_not_mem (List.mem_map.2 ⟨t, ht, hkind⟩)
  rw [← hlex, ← hw.found e rfl] at hrest
  refine ⟨w, rest, hrest, hw.fits, fun s left hs hleft => ?_⟩
  have hlength : w.length < TokenStream.bound (Cursor.ofSource source) := by
    have hbound := Cursor.length_lex_le_bound source
    rw [hrest, List.length_append, List.length_cons] at hbound
    omega
  rw [hw.same hlength hs (hleft.trans (hw.found e rfl))]

/-- The tokens in front of the one that a syntax error reports go on to a program, and by any kind
that the error offers. -/
theorem startsProgram_of_error (h : (parseProgram source).1 = .error e) {k : Nat}
    (hk : (lex source)[k]? = some e.found) :
    StartsProgram (kinds ((lex source).take k)) ∧
      ∀ q, e.expected.Offers q → StartsProgram (kinds ((lex source).take k) ++ [q]) := by
  obtain ⟨w, rest, hlex, ⟨⟨q, hq⟩, hoffers⟩, -⟩ := exists_of_parseProgram_error h (Nat.le_refl _)
  obtain rfl : k = w.length := lex_index_unique hk (by simp [hlex])
  rw [hlex, List.take_left]
  exact ⟨(startsProgram_iff _).2 hq.of_append, fun q hq => (startsProgram_iff _).2 (hoffers q hq)⟩

/-- No program starts with the kinds of the tokens up to the one that a syntax error reports. -/
theorem not_startsProgram_of_error (h : (parseProgram source).1 = .error e) {k : Nat}
    (hk : (lex source)[k]? = some e.found) :
    ¬ StartsProgram (kinds ((lex source).take (k + 1))) := by
  rw [startsProgram_iff]
  rintro ⟨ks, hks⟩
  -- tokens of the kinds that go on, with some texts, are a stream that parses and fails at once
  let more : List Token := ks.map fun kind => ⟨kind, kind.sample, ⟨"", 0, 0⟩, 0, 0⟩
  have hmore : kinds more = ks := by
    simp [more, Function.comp_def]
  have hlegible : ∀ t ∈ more, t.isLegible := by
    intro t ht
    obtain ⟨kind, -, rfl⟩ := List.mem_map.1 ht
    refine Token.isLegible_of_admits ?_
    rintro (rfl : kind = .intLiteral)
    exact TokenKind.admits_sample (by decide) (by decide)
  obtain ⟨w, rest, hlex, -, hfail⟩ :=
    exists_of_parseProgram_error h (Nat.le_max_left _ (k + 1 + ks.length))
  obtain rfl : k = w.length := lex_index_unique hk (by simp [hlex])
  have htake : (lex source).take (w.length + 1) = w ++ [e.found] := by
    rw [hlex, List.take_length_add_append]
    rfl
  rw [htake, ← hmore, ← List.map_append, List.append_assoc, List.singleton_append] at hks
  have hlegible' : ∀ t ∈ w ++ e.found :: more, t.isLegible := by
    intro t ht
    rw [← List.singleton_append, ← List.append_assoc, List.mem_append, ← htake] at ht
    exact ht.elim (fun hmem => isLegible_of_mem_lex (List.mem_of_mem_take hmem)) (hlegible t)
  obtain ⟨p, hp⟩ := exists_written_of_isLegible hlegible' hks
  have hlength : (w ++ e.found :: more).length ≤
      max (TokenStream.bound (Cursor.ofSource source)) (w.length + 1 + ks.length) := by
    refine Nat.le_trans (Nat.le_of_eq ?_) (Nat.le_max_right _ _)
    simp [more]
    omega
  have hok := Grammar.program_complete _ hp hlength (reads_self _) List.not_mem_nil
  have herror := hfail _ _ (reads_append_self w (e.found :: more)) rfl
  rw [hok] at herror
  cases herror

end

/-- A syntax error is reported at the earliest possible token, which is never behind a character
that begins no token. -/
theorem syntaxError_earliest (source : String) :
    (∀ e, (parseProgram source).1 = .error e →
      (∃ k : Nat, (lex source)[k]? = some e.found) ∧
        ∀ k : Nat, (lex source)[k]? = some e.found →
          StartsProgram (kinds ((lex source).take k)) ∧
            ¬ StartsProgram (kinds ((lex source).take (k + 1)))) ∧
      ∀ (i : Nat) (t : Token), (lex source)[i]? = some t → t.kind = .illegalChar →
        ∃ (e : SyntaxError) (k : Nat), (parseProgram source).1 = .error e ∧
          (lex source)[k]? = some e.found ∧ k ≤ i := by
  have hfound : ∀ e, (parseProgram source).1 = .error e →
      ∃ k : Nat, (lex source)[k]? = some e.found := by
    intro e he
    obtain ⟨w, rest, hlex, -⟩ := exists_of_parseProgram_error he (Nat.le_refl _)
    exact ⟨w.length, by simp [hlex]⟩
  refine ⟨fun e he => ⟨hfound e he, fun k hk => ?_⟩, fun i t hi hkind => ?_⟩
  · exact ⟨(startsProgram_of_error he hk).1, not_startsProgram_of_error he hk⟩
  · cases hresult : (parseProgram source).1 with
    | ok p =>
      have hlegal := ((parseProgram_eq_ok_iff source p).1 hresult).derives.illegalChar_not_mem
      exact absurd (List.mem_map.2 ⟨t, List.mem_of_getElem? hi, hkind⟩) hlegal
    | error e =>
      obtain ⟨k, hk⟩ := hfound e hresult
      have hlegal := (startsProgram_of_error hresult hk).1.illegalChar_not_mem
      refine ⟨e, k, rfl, hk, Nat.le_of_not_lt fun hlt => hlegal ?_⟩
      have ht : ((lex source).take k)[i]? = some t := by rwa [List.getElem?_take_of_lt hlt]
      exact List.mem_map.2 ⟨t, List.mem_of_getElem? ht, hkind⟩

/-- An equals sign in an assignment, in front of a character that begins no token. -/
theorem syntaxError_earliest_equal :
    let source := "program x = 1 $ end;"
    let e : SyntaxError := ⟨.anyOf First.afterName, ⟨.equal, "=", ⟨source, 10, 11⟩, 1, 11⟩⟩
    let t : Token := ⟨.illegalChar, "$", ⟨source, 14, 15⟩, 1, 15⟩
    (parseProgram source).1 = .error e ∧ (lex source)[2]? = some e.found ∧
      StartsProgram (kinds ((lex source).take 2)) ∧
      ¬ StartsProgram (kinds ((lex source).take 3)) ∧
      (lex source)[4]? = some t ∧ t.kind = .illegalChar ∧
      ∃ (e : SyntaxError) (k : Nat), (parseProgram source).1 = .error e ∧
        (lex source)[k]? = some e.found ∧ k ≤ 4 := by
  intro source e t
  have herror : (match (parseProgram source).1 with
      | .ok _ => none
      | .error e => some e) = some e := by decide +kernel
  have hfails : (parseProgram source).1 = .error e := by
    cases hresult : (parseProgram source).1 with
    | ok p =>
      rw [hresult] at herror
      cases herror
    | error e' =>
      rw [hresult] at herror
      rw [Option.some.inj herror]
  have hfound : (lex source)[2]? = some e.found := by decide +kernel
  have hillegal : (lex source)[4]? = some t := by decide +kernel
  obtain ⟨hearliest, hcharacters⟩ := syntaxError_earliest source
  obtain ⟨hstarts, hends⟩ := (hearliest e hfails).2 2 hfound
  exact ⟨hfails, hfound, hstarts, hends, hillegal, rfl, hcharacters 4 t hillegal rfl⟩

end TeachLang
