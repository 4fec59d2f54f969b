import TeachLang.Proofs.Grammar.EarliestError
import TeachLang.Proofs.History.Explained
import TeachLang.Proofs.Likeness.Renaming

/-! # Reported tokens

Every error of a compilation is reported at a token of the source, and what it quotes is the text
that the token covers there.
-/

namespace TeachLang

variable {source : String}

theorem Token.text_span_of_mem_lex {t : Token} (h : t ∈ lex source) : t.span.text = t.text := by
  obtain ⟨before, text, after, hstands, -⟩ := exists_stands_of_mem_lex h
  rw [Span.text, hstands.chars_span, hstands.text_eq]

theorem Token.Admitted.kind_ne_eof {t : Token} (h : t.Admitted) : t.kind ≠ .eof := by
  intro hkind
  rw [Admitted, hkind] at h
  exact h

theorem compile_eq_error_check_iff {e : SemanticError} :
    compile source = .error (.check e) ↔
      ∃ p, (parseProgram source).1 = .ok p ∧ (p.check .initial).2.2 = .error e := by
  unfold compile
  rcases (parseProgram source).1 with syntaxError | p
  · simp
  · rcases hcheck : p.check .initial with ⟨program, tables, e' | _⟩ <;> simp [hcheck]

theorem compile_eq_error_parse_iff {e : SyntaxError} :
    compile source = .error (.parse e) ↔ (parseProgram source).1 = .error e := by
  unfold compile
  rcases (parseProgram source).1 with syntaxError | p
  · simp
  · rcases hcheck : p.check .initial with ⟨program, tables, e' | _⟩ <;> simp [hcheck]

/-- A syntax error is reported at the token that ends what could be read. -/
theorem found_mem_lex {e : SyntaxError} (h : (parseProgram source).1 = .error e) :
    e.found ∈ lex source := by
  obtain ⟨w, rest, hlex, -⟩ := exists_of_parseProgram_error h (Nat.le_refl _)
  simp [hlex]

section

variable {p : Program} {t : Tables} {e : SemanticError}

theorem token_mem_lex_of_check (h : (parseProgram source).1 = .ok p)
    (he : (p.check t).2.2 = .error e) : e.token ∈ lex source :=
  ((parseProgram_eq_ok_iff source p).1 h).token_mem (grammatical_of_parseProgram h) he

/-- A violation is reported at a token of the program, never at the end of the source. -/
theorem token_ne_eof_of_check (h : (parseProgram source).1 = .ok p)
    (he : (p.check t).2.2 = .error e) : e.token.kind ≠ .eof := by
  have hadmitted := (grammatical_of_parseProgram h).admitted e.token (mem_write_of_check h he)
  exact hadmitted.kind_ne_eof

/-- Whatever name, operator or literal a violation carries is the text of its token. -/
theorem Program.texts_of_check (he : (p.check t).2.2 = .error e) :
    ∀ text ∈ e.violation.texts, text = e.token.text := by
  have hexcused := p.check_excused t
  rw [he] at hexcused
  intro text htext
  cases hexcused.explained with
  | argument => simp [Violation.texts] at htext
  | other _ htexts => simpa using htexts htext

end

theorem token_mem_lex {e : CompileError} (h : compile source = .error e) :
    e.token ∈ lex source := by
  cases e with
  | parse e => exact found_mem_lex (compile_eq_error_parse_iff.1 h)
  | check e =>
    obtain ⟨p, hp, he⟩ := compile_eq_error_check_iff.1 h
    exact token_mem_lex_of_check hp he

/-- A failed compilation reports a token of the source.  A violation is not reported at the end of
the source, and every name, operator or literal that it carries is the lexeme of the token. -/
theorem reported_token_mem_lex {e : CompileError} (h : compile source = .error e) :
    e.token ∈ lex source ∧ ∀ violated, e = .check violated → violated.token.kind ≠ .eof ∧
      ∀ text ∈ violated.violation.texts,
        violated.token.lexeme? = some text ∧ violated.token.span.text = text := by
  cases e with
  | parse e =>
    refine ⟨found_mem_lex (compile_eq_error_parse_iff.1 h), ?_⟩
    rintro _ ⟨⟩
  | check e =>
    obtain ⟨p, hp, he⟩ := compile_eq_error_check_iff.1 h
    have hmem := token_mem_lex_of_check hp he
    have heof := token_ne_eof_of_check hp he
    refine ⟨hmem, ?_⟩
    rintro _ ⟨⟩
    refine ⟨heof, fun text htext => ?_⟩
    obtain rfl := Program.texts_of_check he text htext
    exact ⟨if_neg heof, Token.text_span_of_mem_lex hmem⟩

/-- A constant that is assigned to, behind a line break. -/
def reassigningSource : String := "const Limit := 10; program\n  Limit := 11; end;"

theorem reported_token_mem_lex_reassigned : ∃ violated : SemanticError,
    compile reassigningSource = .error (.check violated) ∧
      violated.violation = .assignmentToConstant "Limit" ∧ violated.token ∈ lex reassigningSource ∧
        violated.token.kind ≠ .eof ∧ violated.token.lexeme? = some "Limit" ∧
          violated.token.span.text = "Limit" := by
  have hrejected : (match compile reassigningSource with
      | .error (.check e) => decide (e.violation = .assignmentToConstant "Limit")
      | _ => false) = true := by decide +kernel
  split at hrejected
  next violated h =>
    have hviolation := of_decide_eq_true hrejected
    obtain ⟨hmem, hcarried⟩ := reported_token_mem_lex h
    obtain ⟨heof, htexts⟩ := hcarried violated rfl
    obtain ⟨hlexeme, hspan⟩ := htexts "Limit" (by simp [hviolation, Violation.texts])
    exact ⟨violated, h, hviolation, hmem, heof, hlexeme, hspan⟩
  next => cases hrejected

end TeachLang
