import TeachLang.Compile
import TeachLang.Proofs.Check.Program
import TeachLang.Proofs.Grammar.Spelled

/-! # Checking parsed programs

The trees that sources parse to are grammatical, so that a check accepts exactly the
well-formed ones among them.
-/

namespace TeachLang

theorem compile_eq_ok_iff {source : String} {result : TypedProgram} :
    compile source = .ok result ↔ ∃ p, (parseProgram source).1 = .ok p ∧
      p.check .initial = (result.program, result.tables, .ok ()) := by
  unfold compile
  rcases (parseProgram source).1 with e | p
  · simp
  · simp only [Except.ok.injEq, exists_eq_left']
    rcases p.check .initial with ⟨program, tables, e | _⟩
    · simp
    · cases result
      simp

theorem exists_of_isOk {ε α : Type} {result : Except ε α} (h : result.isOk) :
    ∃ a, result = .ok a := by
  cases result with
  | error e => cases h
  | ok a => exact ⟨a, rfl⟩

/-- A parsed program passes its check exactly if it is well formed. -/
theorem check_parsed_eq_ok_iff {source : String} {p : Program}
    (h : (parseProgram source).1 = .ok p) : (p.check .initial).2.2 = .ok () ↔ p.WellFormed :=
  p.check_eq_ok_iff (grammatical_of_parseProgram h)

/-- A procedure that calls itself, and a loop over its results. -/
def selfCallingSource : String :=
  "var i : integer; procedure next(n : integer;) : integer; begin
    if n > 9 then return next(n - i); end; return n + 1; end;
  program loop i := next(i); exit; end; end;"

theorem selfCallingSource_wellFormed :
    ∃ p, (parseProgram selfCallingSource).1 = .ok p ∧ (p.check .initial).2.2 = .ok () ∧
      p.WellFormed := by
  have haccepted : (compile selfCallingSource).isOk := by decide +kernel
  obtain ⟨result, hresult⟩ := exists_of_isOk haccepted
  obtain ⟨p, hp, hcheck⟩ := compile_eq_ok_iff.1 hresult
  have hok : (p.check .initial).2.2 = .ok () := by rw [hcheck]
  exact ⟨p, hp, hok, (check_parsed_eq_ok_iff hp).1 hok⟩

end TeachLang
