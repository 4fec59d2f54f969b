import TeachLang.Proofs.Grammar.DeclarationOrder
import TeachLang.Proofs.Grammar.EarliestError
import TeachLang.Proofs.Grammar.ExpectedSets

/-! # What syntax errors expect goes on

Every kind that a syntax error expects goes on to a program from where the error stands, except
for keywords of declarations that come too late: in front of a program's keyword, all declarations
are expected whatever was declared before.
-/

namespace TeachLang

variable {source : String} {e : SyntaxError}

/-- An error can be read off a source, as trees need not be compared for it. -/
theorem parseProgram_eq_error (h : (match (parseProgram source).1 with
      | .ok _ => none
      | .error e => some e) = some e) : (parseProgram source).1 = .error e := by
  cases hresult : (parseProgram source).1 with
  | ok p =>
    rw [hresult] at h
    cases h
  | error e' =>
    rw [hresult] at h
    rw [Option.some.inj h]

/-- A syntax error that expects declarations stands behind whole declarations. -/
theorem declarations_of_error (h : (parseProgram source).1 = .error e) {k : Nat}
    (hk : (lex source)[k]? = some e.found) {q : TokenKind} (hq : q ∈ First.declaration)
    (haccepts : e.expected.accepts q) :
    Derives (.seq declarationForms) (kinds ((lex source).take k)) := by
  have hexpected := Expected.eq_beforeProgram (expected_mem_catalogue h) hq haccepts
  have hoffers : e.expected.Offers .kwProgram := by
    rw [hexpected]
    exact ⟨by decide, by decide⟩
  exact ((startsProgram_iff _).1 ((startsProgram_of_error h hk).2 _ hoffers)).declarations

/-- A kind that a syntax error expects goes on to a program exactly if it is not the keyword of
declarations that come too late; only such a keyword can be both expected and found. -/
theorem expected_startsProgram_iff (h : (parseProgram source).1 = .error e) :
    (∃ k : Nat, (lex source)[k]? = some e.found) ∧
      ∀ k : Nat, (lex source)[k]? = some e.found →
        (∀ q, e.expected.accepts q → (StartsProgram (kinds ((lex source).take k) ++ [q]) ↔
          ¬ ComesLate q (kinds ((lex source).take k)))) ∧
        (e.expected.accepts e.found.kind →
          ComesLate e.found.kind (kinds ((lex source).take k))) := by
  obtain ⟨w, rest, hlex, -⟩ := exists_of_parseProgram_error h (Nat.le_refl _)
  refine ⟨⟨w.length, by simp [hlex]⟩, fun k hk => ?_⟩
  have hiff : ∀ q, e.expected.accepts q →
      (StartsProgram (kinds ((lex source).take k) ++ [q]) ↔
        ¬ ComesLate q (kinds ((lex source).take k))) := by
    intro q haccepts
    by_cases hq : q ∈ First.declaration
    · rw [startsProgram_iff]
      exact viable_append_iff_not_comesLate (declarations_of_error h hk hq haccepts) hq
    · have hstarts := (startsProgram_of_error h hk).2 q ⟨haccepts, hq⟩
      refine ⟨fun _ hlate => hq ?_, fun _ => hstarts⟩
      rcases hlate with ⟨rfl, -⟩ | ⟨rfl, -⟩ <;> decide
  refine ⟨hiff, fun haccepts => ?_⟩
  -- a token that is found where it goes on to a program would have been read
  by_contra hearly
  have hstarts := (hiff _ haccepts).2 hearly
  have htake : (lex source).take (k + 1) = (lex source).take k ++ [e.found] := by
    rw [List.take_add_one, hk]
    rfl
  refine not_startsProgram_of_error h hk ?_
  rwa [htake, kinds, List.map_append]

/-- Behind constants, variables can be declared and constants cannot, and both are expected. -/
theorem expected_startsProgram_iff_constants :
    let source := "const x := 1; begin"
    let e : SyntaxError := ⟨.beforeProgram, ⟨.kwBegin, "begin", ⟨source, 14, 19⟩, 1, 15⟩⟩
    (parseProgram source).1 = .error e ∧ (lex source)[5]? = some e.found ∧
      e.expected.accepts .kwVar ∧ StartsProgram (kinds ((lex source).take 5) ++ [.kwVar]) ∧
      e.expected.accepts .kwConst ∧
      ¬ StartsProgram (kinds ((lex source).take 5) ++ [.kwConst]) := by
  intro source e
  have hfails : (parseProgram source).1 = .error e := parseProgram_eq_error (by decide +kernel)
  have hfound : (lex source)[5]? = some e.found := by decide +kernel
  have hkinds : kinds ((lex source).take 5) =
      [.kwConst, .identifier, .colonEqual, .intLiteral, .semicolon] := by decide +kernel
  have hiff := ((expected_startsProgram_iff hfails).2 5 hfound).1
  refine ⟨hfails, hfound, by decide, (hiff _ (by decide)).2 ?_, by decide, fun hstarts => ?_⟩
  · rw [hkinds]
    rintro (⟨hvar, -⟩ | ⟨-, hvar | hprocedure⟩)
    · cases hvar
    · simp at hvar
    · simp at hprocedure
  · refine (hiff _ (by decide)).1 hstarts (.inl ⟨rfl, ?_⟩)
    rw [hkinds]
    exact List.cons_ne_nil _ _

/-- Constants behind variables are expected and found. -/
theorem expected_and_found_constants :
    let source := "var x: integer; const y := 1; program end;"
    let e : SyntaxError := ⟨.beforeProgram, ⟨.kwConst, "const", ⟨source, 16, 21⟩, 1, 17⟩⟩
    (parseProgram source).1 = .error e ∧ (lex source)[5]? = some e.found ∧
      e.expected.accepts e.found.kind ∧
      ¬ StartsProgram (kinds ((lex source).take 5) ++ [e.found.kind]) := by
  intro source e
  have hfails : (parseProgram source).1 = .error e := parseProgram_eq_error (by decide +kernel)
  have hfound : (lex source)[5]? = some e.found := by decide +kernel
  have htake : kinds ((lex source).take (5 + 1)) =
      kinds ((lex source).take 5) ++ [e.found.kind] := by decide +kernel
  exact ⟨hfails, hfound, by decide, htake ▸ not_startsProgram_of_error hfails hfound⟩

end TeachLang
