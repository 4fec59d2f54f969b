import TeachLang.Proofs.Grammar.Completeness.Declaration
import TeachLang.Proofs.Grammar.Derived
import TeachLang.Proofs.Grammar.Sentence
import TeachLang.Proofs.Token.Scanning

/-! # Parsing a source

A source parses to exactly the trees that its tokens write, and to one whenever the kinds
of its tokens are a sentence of the documented grammar.
-/

namespace TeachLang

open TokenStream (Reads)

/-- Two readings that end with the first token of some sort are the same. -/
theorem TokenStream.reads_unique {σ : Type} [TokenStream σ] {P : Token → Prop} {s l m : σ}
    {u v : List Token} {d e : Token} (hu : ∀ t ∈ u, ¬ P t) (hv : ∀ t ∈ v, ¬ P t) (hd : P d)
    (he : P e) (hl : Reads s (u ++ [d]) l) (hm : Reads s (v ++ [e]) m) : u ++ [d] = v ++ [e] := by
  induction u generalizing s v with
  | nil =>
    cases v with
    | nil => rw [← hl.1, ← hm.1]
    | cons t v =>
      have ht : t = d := hm.1.symm.trans hl.1
      rw [ht] at hv
      exact absurd hd (hv d List.mem_cons_self)
  | cons t u ih =>
    have htail := (List.forall_mem_cons.1 hu).2
    cases v with
    | nil =>
      have ht : t = e := hl.1.symm.trans hm.1
      rw [ht] at hu
      exact absurd he (hu e List.mem_cons_self)
    | cons t' v =>
      have ht : t = t' := hl.1.symm.trans hm.1
      rw [List.cons_append, List.cons_append, ht,
        ih htail (List.forall_mem_cons.1 hv).2 hl.2 hm.2]

namespace Cursor

/-- A cursor reads the token in sight and all that its scanner still produces. -/
theorem exists_reads (scanner : Scanner) (t : Token) :
    ∃ left, Reads (⟨scanner, t⟩ : Cursor) (t :: scanner.tokens) left := by
  induction hn : scanner.bound using Nat.strongRecOn generalizing scanner t with
  | ind n ih =>
    subst hn
    cases hfinished : scanner.finished with
    | true =>
      rw [Scanner.tokens_of_finished hfinished]
      exact ⟨_, rfl, rfl⟩
    | false =>
      have hnext : scanner.next? = some scanner.step := by
        rw [Scanner.next?, hfinished, if_neg Bool.false_ne_true]
      obtain ⟨left, hleft⟩ := ih _ (Scanner.bound_lt_of_next? hnext) _ scanner.step.1 rfl
      rw [Scanner.tokens_of_unfinished hfinished]
      refine ⟨left, rfl, ?_⟩
      have hadvance : TokenStream.advance (⟨scanner, t⟩ : Cursor) =
          ⟨scanner.step.2, scanner.step.1⟩ := by
        simp only [TokenStream.advance, advance, hnext]
      rw [hadvance]
      exact hleft

theorem exists_reads_lex (source : String) :
    ∃ left, Reads (ofSource source) (lex source) left := by
  rw [lex_eq_cons]
  exact exists_reads _ _

theorem length_lex_le_bound (source : String) :
    (lex source).length ≤ TokenStream.bound (ofSource source) := by
  rw [lex_eq_cons, List.length_cons]
  exact Nat.succ_le_succ (Scanner.length_tokens_le_bound _)

/-- What is read off a source up to the end of input is all of its tokens. -/
theorem eq_lex_of_reads {source : String} {w : List Token} {left : Cursor}
    (h : Reads (ofSource source) w left) (hw : Derives (.part .program) (kinds w)) :
    w = lex source := by
  obtain ⟨js, hjs, heof⟩ := hw.program_eq
  obtain ⟨u, v, rfl, rfl, hv⟩ := List.map_eq_append_iff.1 hjs
  obtain ⟨d, rfl, hd⟩ := List.map_eq_singleton_iff.1 hv
  obtain ⟨z, e, hlex, he, hz⟩ := exists_lex_eq source
  obtain ⟨end', hreads⟩ := exists_reads_lex source
  rw [hlex] at hreads ⊢
  refine TokenStream.reads_unique (P := fun t => t.kind = .eof) ?_ (fun t ht => (hz t ht).1) hd he h
    hreads
  intro t ht hkind
  exact heof (List.mem_map.2 ⟨t, ht, hkind⟩)

end Cursor

/-- The integer literals of a source are runs of digits. -/
theorem isLegible_of_mem_lex {source : String} {t : Token} (h : t ∈ lex source) : t.isLegible := by
  obtain ⟨w, eof, hlex, heof, hall⟩ := exists_lex_eq source
  refine Token.isLegible_of_admits fun hkind => ?_
  rw [hlex] at h
  rcases List.mem_append.1 h with hmem | hmem
  · exact (hall t hmem).2 (by rw [hkind]; decide)
  · obtain rfl := List.mem_singleton.1 hmem
    rw [heof] at hkind
    cases hkind

/-- Every source whose kinds are a sentence of the documented grammar writes a program. -/
theorem exists_program_written {source : String}
    (h : Derives (.part .program) ((lex source).map (·.kind))) :
    ∃ p : Program, p.Written (lex source) :=
  exists_written_of_isLegible (fun _ => isLegible_of_mem_lex) h

/-- A source parses to the tree that its tokens write. -/
theorem parseProgram_eq_ok_iff (source : String) (p : Program) :
    (parseProgram source).1 = .ok p ↔ p.Written (lex source) := by
  constructor
  · intro h
    rcases hp : parseProgram source with ⟨result, left⟩
    rw [hp] at h
    obtain rfl : result = .ok p := h
    obtain ⟨w, hreads, hw⟩ := Grammar.program_sound _ hp
    rwa [← Cursor.eq_lex_of_reads hreads hw.derives]
  · intro h
    obtain ⟨left, hreads⟩ := Cursor.exists_reads_lex source
    have hp : parseProgram source = (.ok p, left) :=
      Grammar.program_complete _ h (Cursor.length_lex_le_bound source) hreads (List.not_mem_nil)
    rw [hp]

/-- A source parses exactly if the kinds of its tokens are a sentence of the documented grammar. -/
theorem exists_parseProgram_eq_ok_iff (source : String) :
    (∃ p, (parseProgram source).1 = .ok p) ↔
      Derives (.part .program) ((lex source).map (·.kind)) := by
  constructor
  · rintro ⟨p, hp⟩
    exact ((parseProgram_eq_ok_iff source p).1 hp).derives
  · intro h
    obtain ⟨p, hp⟩ := exists_program_written h
    exact ⟨p, (parseProgram_eq_ok_iff source p).2 hp⟩

end TeachLang
