import TeachLang.Proofs.Grammar.Soundness.Statement

/-! # Soundness of the parsers of declarations

Every parser of a declaration, and the parser of programs, yields a tree that is written by
the tokens that it went past.
-/

namespace TeachLang.Grammar

open TeachLang.Parser
open TokenStream (Reads reads_append reads_advance)

variable {σ : Type} [TokenStream σ]

theorem constantValue_sound (fuel : Nat) :
    Sound (constantValue fuel : Parser σ ConstantValue) ConstantValue.Written := by
  intro s v left h
  rw [constantValue, has_bind] at h
  split at h
  next hcurly =>
    simp only [bind_eq_ok, pure_eq_ok] at h
    obtain ⟨l, m, hl, rfl, rfl⟩ := h
    obtain ⟨w, hreads, hw⟩ := listLiteral_sound fuel hl
    refine ⟨w, hreads, .list hw ?_⟩
    cases hw
    rw [← hreads.1]
    exact beq_iff_eq.1 hcurly
  next =>
    rw [hasAny_bind] at h
    split at h
    · exact literal_sound.map (fun _ _ => .simple) h
    · exact (fail_eq_ok.1 h).elim

theorem constantDecl_sound (fuel : Nat) :
    Sound (constantDecl fuel : Parser σ ConstantDecl) (Closed ConstantDecl.Body) := by
  intro s d left h
  simp only [constantDecl, bind_eq_ok, expect_eq_ok, pure_eq_ok] at h
  obtain ⟨name, m₁, ⟨hname, h₁⟩, symbol, m₂, ⟨hsymbol, h₂⟩, value, m₃, hvalue, semicolon, m₄,
    ⟨hsemicolon, h₄⟩, rfl, rfl⟩ := h
  obtain ⟨w, h₃, hw⟩ := constantValue_sound fuel hvalue
  exact ⟨(name :: symbol :: w) ++ [semicolon],
    reads_append.2 ⟨m₃, reads_append.2 ⟨m₁, h₁, reads_append.2 ⟨m₂, h₂, h₃⟩⟩, h₄⟩,
    .mk (.mk hname hsymbol hw) hsemicolon⟩

theorem constantList_sound (fuel : Nat) :
    Sound (constantList fuel : Parser σ ConstantList) ConstantList.Written := by
  intro s l left h
  simp only [constantList, bind_eq_ok, expect_eq_ok, pure_eq_ok] at h
  obtain ⟨keyword, m₁, ⟨hkeyword, h₁⟩, d, m₂, hd, ds, m₃, hds, rfl, rfl⟩ := h
  obtain ⟨v, h₂, hv⟩ := constantDecl_sound fuel hd
  obtain ⟨w, h₃, hw⟩ := many_sound (constantDecl_sound fuel) fuel hds
  exact ⟨keyword :: (v ++ w), reads_append.2 ⟨m₁, h₁, reads_append.2 ⟨m₂, h₂, h₃⟩⟩,
    .mk hkeyword hv hw⟩

theorem simpleTypeName_eq_ok {expected : List TokenKind} {s left : σ} {type : SimpleType} {t : Token} :
    simpleTypeName expected s = (.ok (type, t), left) ↔
      t.kind = type.kind ∧ Reads s [t] left := by
  rw [← SimpleType.ofKind?_eq_some_iff, ← takeAs?_some_eq_ok, simpleTypeName, bind_eq_ok]
  constructor
  · rintro ⟨found, m, hfound, h⟩
    rcases found with _ | ⟨type', t'⟩
    · exact (fail_eq_ok.1 h).elim
    · obtain ⟨heq, rfl⟩ := pure_eq_ok.1 h
      rw [hfound, heq]
  · intro h
    exact ⟨_, _, h, rfl⟩

theorem typeExpr_sound : Sound (typeExpr : Parser σ TypeExpr) TypeExpr.Written := by
  intro s type left h
  rw [typeExpr_eq, bind_eq_ok] at h
  obtain ⟨found, m₁, hfound, h⟩ := h
  cases found with
  | none =>
    obtain ⟨-, rfl⟩ := take?_none_eq_ok.1 hfound
    obtain ⟨⟨simple, t⟩, m₂, hsimple, hpure⟩ := bind_eq_ok.1 h
    obtain ⟨rfl, rfl⟩ := pure_eq_ok.1 hpure
    obtain ⟨hkind, hreads⟩ := simpleTypeName_eq_ok.1 hsimple
    exact ⟨[t], hreads, .simple hkind⟩
  | some keyword =>
    obtain ⟨ofWord, m₂, hof, h⟩ := bind_eq_ok.1 h
    obtain ⟨⟨element, t⟩, m₃, helement, hpure⟩ := bind_eq_ok.1 h
    obtain ⟨rfl, rfl⟩ := pure_eq_ok.1 hpure
    obtain ⟨hkeyword, h₁⟩ := take?_some_eq_ok.1 hfound
    obtain ⟨hof, h₂⟩ := expect_eq_ok.1 hof
    obtain ⟨hkind, h₃⟩ := simpleTypeName_eq_ok.1 helement
    exact ⟨[keyword, ofWord, t], reads_append.2 ⟨m₁, h₁, reads_append.2 ⟨m₂, h₂, h₃⟩⟩,
      .list hkeyword hof hkind⟩

theorem identifier_sound : Sound (identifier : Parser σ Identifier) Identifier.Written := by
  intro s i left h
  simp only [identifier, bind_eq_ok, expect_eq_ok, pure_eq_ok] at h
  obtain ⟨t, m, ⟨hkind, hreads⟩, rfl, rfl⟩ := h
  exact ⟨[t], hreads, .mk hkind⟩

theorem bindingDecl_sound (fuel : Nat) :
    Sound (bindingDecl fuel : Parser σ BindingDecl) BindingDecl.Body := by
  intro s d left h
  simp only [bindingDecl, bind_eq_ok, expect_eq_ok, pure_eq_ok, afterCommas_eq_many] at h
  obtain ⟨name, m₁, hname, names, m₂, hnames, colon, m₃, ⟨hcolon, h₃⟩, type, m₄, htype, rfl, rfl⟩ := h
  obtain ⟨u, h₁, hu⟩ := identifier_sound hname
  obtain ⟨v, h₂, hv⟩ := many_sound (after_sound .comma identifier_sound) fuel hnames
  obtain ⟨w, h₄, hw⟩ := typeExpr_sound htype
  exact ⟨u ++ (v ++ colon :: w), reads_append.2 ⟨m₁, h₁, reads_append.2 ⟨m₂, h₂, reads_append.2
    ⟨m₃, h₃, h₄⟩⟩⟩, .mk hu hv hcolon hw⟩

theorem closedBinding_sound (fuel : Nat) :
    Sound (closedBinding fuel : Parser σ BindingDecl) (Closed BindingDecl.Body) :=
  closed_sound (bindingDecl_sound fuel)

theorem variableList_sound (fuel : Nat) :
    Sound (variableList fuel : Parser σ VariableList) VariableList.Written := by
  intro s l left h
  simp only [variableList, bind_eq_ok, expect_eq_ok, pure_eq_ok] at h
  obtain ⟨keyword, m₁, ⟨hkeyword, h₁⟩, d, m₂, hd, ds, m₃, hds, rfl, rfl⟩ := h
  obtain ⟨v, h₂, hv⟩ := closedBinding_sound fuel hd
  obtain ⟨w, h₃, hw⟩ := many_sound (closedBinding_sound fuel) fuel hds
  exact ⟨keyword :: (v ++ w), reads_append.2 ⟨m₁, h₁, reads_append.2 ⟨m₂, h₂, h₃⟩⟩,
    .mk hkeyword hv hw⟩

theorem returnType_sound : Sound (returnType : Parser σ TypeExpr) TypeExpr.ReturnWritten := by
  intro s type left h
  rw [returnType, bind_eq_ok] at h
  obtain ⟨found, m, hfound, h⟩ := h
  cases found with
  | none =>
    obtain ⟨-, rfl⟩ := take?_none_eq_ok.1 hfound
    obtain ⟨rfl, rfl⟩ := pure_eq_ok.1 h
    exact ⟨[], rfl, .none⟩
  | some colon =>
    obtain ⟨hcolon, h₁⟩ := take?_some_eq_ok.1 hfound
    obtain ⟨w, h₂, hw⟩ := typeExpr_sound h
    exact ⟨colon :: w, reads_append.2 ⟨m, h₁, h₂⟩, .some (.mk hcolon hw)⟩

theorem procedureDecl_sound (fuel : Nat) :
    Sound (procedureDecl fuel : Parser σ ProcedureDecl) (Closed ProcedureDecl.Body) := by
  intro s d left h
  simp only [procedureDecl, bind_eq_ok, expect_eq_ok, pure_eq_ok] at h
  obtain ⟨keyword, m₁, ⟨hkeyword, h₁⟩, name, m₂, ⟨hname, h₂⟩, opening, m₃, ⟨hopening, h₃⟩,
    parameters, m₄, hparameters, closing, m₅, ⟨hclosing, h₅⟩, type, m₆, htype, semicolon, m₇,
    ⟨hsemicolon, h₇⟩, constants, m₈, hconstants, vars, m₉, hvars, beginWord, m₁₀, ⟨hbegin, h₁₀⟩, body,
    m₁₁, hbody, endWord, m₁₂, ⟨hend, h₁₂⟩, last, m₁₃, ⟨hlast, h₁₃⟩, rfl, rfl⟩ := h
  obtain ⟨u, h₄, hu⟩ := many_sound (closedBinding_sound fuel) fuel hparameters
  obtain ⟨v, h₆, hv⟩ := returnType_sound htype
  obtain ⟨w, h₈, hw⟩ := opt_sound (constantList_sound fuel) hconstants
  obtain ⟨x, h₉, hx⟩ := opt_sound (variableList_sound fuel) hvars
  obtain ⟨y, h₁₁, hy⟩ := block_sound fuel hbody
  refine ⟨(keyword :: name :: opening :: (u ++ closing :: (v ++ semicolon :: (w ++ (x ++
    beginWord :: (y ++ [endWord])))))) ++ [last], reads_append.2 ⟨m₁₂, ?_, h₁₃⟩,
    .mk (.mk hkeyword hname hopening hu hclosing hv hsemicolon hw hx hbegin hy hend) hlast⟩
  exact reads_append.2 ⟨m₁, h₁, reads_append.2 ⟨m₂, h₂, reads_append.2 ⟨m₃, h₃, reads_append.2
    ⟨m₄, h₄, reads_append.2 ⟨m₅, h₅, reads_append.2 ⟨m₆, h₆, reads_append.2 ⟨m₇, h₇, reads_append.2
    ⟨m₈, h₈, reads_append.2 ⟨m₉, h₉, reads_append.2 ⟨m₁₀, h₁₀, reads_append.2 ⟨m₁₁, h₁₁,
    h₁₂⟩⟩⟩⟩⟩⟩⟩⟩⟩⟩⟩

theorem programKeyword_eq_ok {s left : σ} {t : Token} :
    programKeyword s = (.ok t, left) ↔ t.kind = .kwProgram ∧ Reads s [t] left := by
  rw [← take?_some_eq_ok, programKeyword, bind_eq_ok]
  constructor
  · rintro ⟨found, m, hfound, h⟩
    cases found with
    | none => exact (fail_eq_ok.1 h).elim
    | some t' =>
      obtain ⟨rfl, rfl⟩ := pure_eq_ok.1 h
      exact hfound
  · intro h
    exact ⟨_, _, h, rfl⟩

/-- A program that has been read is written by the tokens up to the end of its source. -/
theorem program_sound (fuel : Nat) : Sound (program fuel : Parser σ Program) Program.Written := by
  intro s p left h
  simp only [program, procedureList, bind_eq_ok, expect_eq_ok, pure_eq_ok, programKeyword_eq_ok] at h
  obtain ⟨constants, m₁, hconstants, vars, m₂, hvars, list, m₃, ⟨procedures, m₃, hprocedures, rfl,
    rfl⟩, keyword, m₄, ⟨hkeyword, h₄⟩, body, m₅, hbody, endWord, m₆, ⟨hend, h₆⟩, semicolon, m₇,
    ⟨hsemicolon, h₇⟩, eof, m₈, ⟨heof, h₈⟩, rfl, rfl⟩ := h
  obtain ⟨u, h₁, hu⟩ := opt_sound (constantList_sound fuel) hconstants
  obtain ⟨v, h₂, hv⟩ := opt_sound (variableList_sound fuel) hvars
  obtain ⟨w, h₃, hw⟩ := many_sound (procedureDecl_sound fuel) fuel hprocedures
  obtain ⟨x, h₅, hx⟩ := block_sound fuel hbody
  refine ⟨u ++ (v ++ (w ++ keyword :: (x ++ [endWord, semicolon, eof]))), ?_,
    .mk hu hv hw hkeyword hx hend hsemicolon heof⟩
  exact reads_append.2 ⟨m₁, h₁, reads_append.2 ⟨m₂, h₂, reads_append.2 ⟨m₃, h₃, reads_append.2
    ⟨m₄, h₄, reads_append.2 ⟨m₅, h₅, reads_append.2 ⟨m₆, h₆, reads_append.2 ⟨m₇, h₇, h₈⟩⟩⟩⟩⟩⟩⟩

end TeachLang.Grammar
