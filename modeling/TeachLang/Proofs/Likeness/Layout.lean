import TeachLang.Proofs.Check.Parsed
import TeachLang.Proofs.Grammar.EarliestError
import TeachLang.Proofs.Likeness.Tokens

/-! # Layout

What becomes of a source depends on the kinds and the texts of its tokens only.  The tokens of two
sources that differ in whitespace and comments correspond to each other one by one; so do the runs
of the parser, with the same fuel, and then the checks.
-/

namespace TeachLang

/-- The outcomes for two sources with the tokens `v` and `w` that differ in the places of tokens
only. -/
inductive OutcomeAlike (v w : List Token) :
    Except CompileError TypedProgram → Except CompileError TypedProgram → Prop
  | ok {a b : TypedProgram} (program : b.program.unplaced = a.program.unplaced)
      (tables : b.tables = a.tables) : OutcomeAlike v w (.ok a) (.ok b)
  | parse {e e' : SyntaxError} {k : Nat} (expected : e'.expected = e.expected)
      (found : v[k]? = some e.found) (found' : w[k]? = some e'.found) :
      OutcomeAlike v w (.error (.parse e)) (.error (.parse e'))
  | check {e e' : SemanticError} {k : Nat} (violation : e'.violation = e.violation)
      (token : v[k]? = some e.token) (token' : w[k]? = some e'.token) :
      OutcomeAlike v w (.error (.check e)) (.error (.check e'))

theorem Program.unplaced_map {g : Token → Token} (hg : Relabels g) (p : Program) :
    (p.map g id).unplaced = p.unplaced := by
  have hcomp : Token.unplaced ∘ g = Token.unplaced := by
    funext t
    rw [Function.comp_apply, Token.unplaced, hg.kind, hg.text]
    rfl
  rw [unplaced, map_map, hcomp]
  rfl

section

variable {source source' : String}

/-- The tokens of one source are found from those of another one with the same labels. -/
theorem exists_relabels_lex (h : (lex source).map Token.label = (lex source').map Token.label) :
    ∃ g, Relabels g ∧ g (.fixed .eof) = .fixed .eof ∧ (lex source).map g = lex source' := by
  have hlabels : (lex source').map Token.label =
      (lex source).map fun t => (t.renamed id).label := by
    simp only [Token.renamed_id]
    exact h.symm
  obtain ⟨g, hg, heof, hmap⟩ :=
    exists_respells (nodup_lex source) (fixed_eof_not_mem_lex source) hlabels
  exact ⟨g, hg.relabels, heof, hmap⟩

/-- A syntax error is found again at the corresponding token. -/
theorem syntaxError_alike {g : Token → Token} (hg : Recasts id g id)
    (hmap : (lex source).map g = lex source') {e e' : SyntaxError}
    (he : (parseProgram source).1 = .error e) (he' : (parseProgram source').1 = .error e') :
    OutcomeAlike (lex source) (lex source') (.error (.parse e)) (.error (.parse e')) := by
  obtain ⟨u, rest, hlex, -, hfail⟩ := exists_of_parseProgram_error he (Nat.le_max_left _
    (TokenStream.bound (Cursor.ofSource source')))
  obtain ⟨u', rest', hlex', -, hfail'⟩ := exists_of_parseProgram_error he' (Nat.le_max_right
    (TokenStream.bound (Cursor.ofSource source)) _)
  have hrun := hfail _ _ (reads_append_self u (e.found :: rest)) rfl
  have hrun' := hfail' _ _ (reads_append_self u' (e'.found :: rest')) rfl
  rw [← hlex] at hrun
  rw [← hlex', ← hmap, Grammar.program_carries hg] at hrun'
  generalize Grammar.program _ (lex source) = left at hrun hrun'
  obtain ⟨result, left⟩ := left
  obtain rfl : result = .error e := hrun
  obtain rfl : e.map g = e' := by cases hrun'; rfl
  have hfound : (lex source)[u.length]? = some e.found := by simp [hlex]
  refine .parse rfl hfound ?_
  rw [← hmap, List.getElem?_map, hfound]
  rfl

/-- The tree of one source is the tree of another one with the corresponding tokens. -/
theorem parseProgram_map {g : Token → Token} (hg : Relabels g)
    (hmap : (lex source).map g = lex source') {p : Program}
    (hp : (parseProgram source).1 = .ok p) : (parseProgram source').1 = .ok (p.map g id) := by
  rw [parseProgram_eq_ok_iff] at hp ⊢
  rw [← hmap]
  exact hp.map hg

/-- Sources whose tokens have the same kinds and texts have the same outcome, up to places. -/
theorem compile_alike (h : (lex source).map Token.label = (lex source').map Token.label) :
    OutcomeAlike (lex source) (lex source') (compile source) (compile source') := by
  obtain ⟨g, hg, heof, hmap⟩ := exists_relabels_lex h
  cases hp : (parseProgram source).1 with
  | error e =>
    cases hp' : (parseProgram source').1 with
    | error e' =>
      rw [compile, compile, hp, hp']
      exact syntaxError_alike ⟨hg.renames, heof, rfl⟩ hmap hp hp'
    | ok q =>
      obtain ⟨g', hg', -, hmap'⟩ := exists_relabels_lex h.symm
      rw [parseProgram_map hg' hmap' hp'] at hp
      cases hp
  | ok p =>
    have hgrammatical := grammatical_of_parseProgram hp
    have hwritten := (parseProgram_eq_ok_iff source p).1 hp
    have hmem (e : SemanticError) (he : (p.check .initial).2.2 = .error e) : e.token ∈ lex source :=
      hwritten.token_mem hgrammatical he
    rw [compile, compile, hp, parseProgram_map hg hmap hp]
    dsimp only
    rw [hgrammatical.check_map hg]
    generalize p.check .initial = checked at hmem ⊢
    obtain ⟨q, t, e | _⟩ := checked
    · obtain ⟨k, hk⟩ := List.getElem?_of_mem (hmem e rfl)
      refine .check rfl hk ?_
      rw [← hmap, List.getElem?_map, hk]
      rfl
    · exact .ok (q.unplaced_map hg) rfl

end

def tightSource : String := "var l:list of integer;program l[true]:=1;end;"

def looseSource : String :=
  "var l : list of integer; // all of them\n\nprogram\n  l[/* no integer */ true] := 1;\nend;\n"

theorem compile_alike_loose : (lex tightSource).map Token.label = (lex looseSource).map Token.label ∧
    OutcomeAlike (lex tightSource) (lex looseSource) (compile tightSource)
      (compile looseSource) := by
  have h : (lex tightSource).map Token.label = (lex looseSource).map Token.label := by
    decide +kernel
  exact ⟨h, compile_alike h⟩

end TeachLang
