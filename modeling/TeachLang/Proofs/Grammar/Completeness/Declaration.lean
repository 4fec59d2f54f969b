import TeachLang.Proofs.Grammar.Completeness.Statement
import TeachLang.Proofs.Grammar.Soundness.Declaration

/-! # Completeness of the parsers of declarations

Optional declarations are told by the keyword that they begin with, and programs end with
the source.
-/

namespace TeachLang.Grammar

open TeachLang.Parser
open TokenStream (Reads reads_append reads_advance)

variable {σ : Type} [TokenStream σ]

theorem constantValue_complete (fuel : Nat) :
    Complete (constantValue fuel : Parser σ ConstantValue) fuel ConstantValue.Written [] := by
  intro s w left value h hlength hreads hleft
  rw [constantValue, has_bind]
  cases h with
  | @simple w l hl =>
    have hliteral := literal_complete fuel hl hlength hreads hleft
    have hnot : ∀ k ∈ First.simpleLiteral, (k == .curlyOpen) = false := by decide
    obtain ⟨t, v, rfl, hkind⟩ := begins_literal hl
    rw [hreads.1, if_neg (by simp [hnot _ hkind]), hasAny_bind, hreads.1,
      if_pos (List.contains_iff_mem.2 hkind), bind_eq_ok]
    exact ⟨l, left, hliteral, rfl⟩
  | @list w l hl hopening =>
    have hliteral := listLiteral_complete (Nat.le_refl fuel) hl hlength hreads hleft
    have hcurly : (TokenStream.current s).kind = .curlyOpen := by
      cases hl
      rw [hreads.1, hopening]
    rw [if_pos (by simp [hcurly]), bind_eq_ok]
    exact ⟨l, left, hliteral, rfl⟩

theorem constantDecl_complete (fuel : Nat) :
    Complete (constantDecl fuel : Parser σ ConstantDecl) fuel (Closed ConstantDecl.Body) [] := by
  rintro s _ left _ ⟨⟨hname, hsymbol, hvalue⟩, hsemicolon⟩ hlength hreads -
  obtain ⟨m₃, hreads, h₄⟩ := reads_append.1 hreads
  obtain ⟨m₁, h₁, hreads⟩ := reads_append (v := [_]).1 hreads
  obtain ⟨m₂, h₂, h₃⟩ := reads_append (v := [_]).1 hreads
  simp only [List.length_cons, List.length_append] at hlength
  have hvalue := constantValue_complete fuel hvalue (by omega) h₃ List.not_mem_nil
  simp only [constantDecl, bind_eq_ok, expect_eq_ok, pure_eq_ok]
  exact ⟨_, m₁, ⟨hname, h₁⟩, _, m₂, ⟨hsymbol, h₂⟩, _, m₃, hvalue, _, left, ⟨hsemicolon, h₄⟩, rfl,
    rfl⟩

theorem begins_constantDecl : Begins First.name (Closed ConstantDecl.Body) := by
  refine Begins.closed ?_
  rintro _ _ ⟨hname, -, -⟩
  exact ⟨_, _, rfl, by rw [hname]; decide⟩

theorem constantList_complete (fuel : Nat) :
    Complete (constantList fuel : Parser σ ConstantList) fuel ConstantList.Written First.name := by
  rintro s _ left _ ⟨hkeyword, hhead, htail⟩ hlength hreads hleft
  obtain ⟨m₁, h₁, hreads⟩ := reads_append (v := [_]).1 hreads
  obtain ⟨m₂, h₂, h₃⟩ := reads_append.1 hreads
  simp only [List.length_cons, List.length_append] at hlength
  have hhead := constantDecl_complete fuel hhead (by omega) h₂ List.not_mem_nil
  have htail := many_complete (constantDecl_complete fuel) begins_constantDecl
    (fun _ _ => List.not_mem_nil) (Nat.le_refl fuel) htail (by omega) h₃ (by rwa [List.append_nil])
  simp only [constantList, bind_eq_ok, expect_eq_ok, pure_eq_ok]
  exact ⟨_, m₁, ⟨hkeyword, h₁⟩, _, m₂, hhead, _, left, htail, rfl, rfl⟩

theorem typeExpr_complete (bound : Nat) :
    Complete (typeExpr : Parser σ TypeExpr) bound TypeExpr.Written [] := by
  rintro s w left type h - hreads -
  rw [typeExpr_eq, bind_eq_ok]
  cases h with
  | @simple t simple hkind =>
    have hnot : t.kind ≠ .kwList := by
      rw [hkind]
      cases simple <;> decide
    refine ⟨none, s, take?_none_eq_ok.2 ⟨by rwa [hreads.1], rfl⟩, bind_eq_ok.2 ?_⟩
    exact ⟨(simple, t), left, simpleTypeName_eq_ok.2 ⟨hkind, hreads⟩, rfl⟩
  | @list keyword ofWord t element hkeyword hof hkind =>
    obtain ⟨m₁, h₁, hreads⟩ := reads_append (v := [_]).1 hreads
    obtain ⟨m₂, h₂, h₃⟩ := reads_append (v := [_]).1 hreads
    refine ⟨some keyword, m₁, take?_some_eq_ok.2 ⟨hkeyword, h₁⟩, bind_eq_ok.2 ?_⟩
    exact ⟨ofWord, m₂, expect_eq_ok.2 ⟨hof, h₂⟩,
      bind_eq_ok.2 ⟨(element, t), left, simpleTypeName_eq_ok.2 ⟨hkind, h₃⟩, rfl⟩⟩

theorem identifier_complete (bound : Nat) :
    Complete (identifier : Parser σ Identifier) bound Identifier.Written [] := by
  rintro s _ left _ ⟨hkind⟩ - hreads -
  simp only [identifier, bind_eq_ok, expect_eq_ok, pure_eq_ok]
  exact ⟨_, left, ⟨hkind, hreads⟩, rfl, rfl⟩

theorem bindingDecl_complete (fuel : Nat) :
    Complete (bindingDecl fuel : Parser σ BindingDecl) fuel BindingDecl.Body [] := by
  rintro s _ left _ ⟨hhead, htail, hcolon, htype⟩ hlength hreads -
  obtain ⟨m₁, h₁, hreads⟩ := reads_append.1 hreads
  obtain ⟨m₂, h₂, hreads⟩ := reads_append.1 hreads
  obtain ⟨m₃, h₃, h₄⟩ := reads_append (v := [_]).1 hreads
  simp only [List.length_cons, List.length_append] at hlength
  have hhead := identifier_complete fuel hhead (by omega) h₁ List.not_mem_nil
  have htail := afterCommas_complete (identifier_complete fuel) List.not_mem_nil (Nat.le_refl fuel)
    htail (by omega) h₂ (by rw [h₃.1, hcolon]; decide)
  have htype := typeExpr_complete fuel htype (by omega) h₄ List.not_mem_nil
  simp only [bindingDecl, bind_eq_ok, expect_eq_ok, pure_eq_ok]
  exact ⟨_, m₁, hhead, _, m₂, htail, _, m₃, ⟨hcolon, h₃⟩, _, left, htype, rfl, rfl⟩

theorem closedBinding_complete (fuel : Nat) :
    Complete (closedBinding fuel : Parser σ BindingDecl) fuel (Closed BindingDecl.Body) [] :=
  closed_complete (bindingDecl_complete fuel) List.not_mem_nil

theorem begins_bindingDecl : Begins First.name (Closed BindingDecl.Body) := by
  refine Begins.closed ?_
  rintro _ _ ⟨⟨hname⟩, -, -, -⟩
  exact ⟨_, _, rfl, by rw [hname]; decide⟩

theorem bindings_complete (fuel : Nat) : Complete
    (many First.name (closedBinding fuel) fuel : Parser σ (List BindingDecl)) fuel
    (Repeated (Closed BindingDecl.Body)) First.name := by
  intro s w left ds h hlength hreads hleft
  exact many_complete (closedBinding_complete fuel) begins_bindingDecl
    (fun _ _ => List.not_mem_nil) (Nat.le_refl fuel) h hlength hreads (by rwa [List.append_nil])

theorem variableList_complete (fuel : Nat) :
    Complete (variableList fuel : Parser σ VariableList) fuel VariableList.Written First.name := by
  rintro s _ left _ ⟨hkeyword, hhead, htail⟩ hlength hreads hleft
  obtain ⟨m₁, h₁, hreads⟩ := reads_append (v := [_]).1 hreads
  obtain ⟨m₂, h₂, h₃⟩ := reads_append.1 hreads
  simp only [List.length_cons, List.length_append] at hlength
  have hhead := closedBinding_complete fuel hhead (by omega) h₂ List.not_mem_nil
  have htail := bindings_complete fuel htail (by omega) h₃ hleft
  simp only [variableList, bind_eq_ok, expect_eq_ok, pure_eq_ok]
  exact ⟨_, m₁, ⟨hkeyword, h₁⟩, _, m₂, hhead, _, left, htail, rfl, rfl⟩

theorem returnType_complete {w : List Token} {type : TypeExpr} (h : type.ReturnWritten w)
    {s left : σ} (hreads : Reads s w left) (hleft : (TokenStream.current left).kind = .semicolon) :
    returnType s = (.ok type, left) := by
  rw [returnType, bind_eq_ok]
  rcases h with _ | ⟨hcolon, htype⟩
  · obtain rfl := TokenStream.reads_nil.1 hreads
    exact ⟨none, s, take?_none_eq_ok.2 ⟨by rw [hleft]; decide, rfl⟩, rfl⟩
  · obtain ⟨m, h₁, h₂⟩ := reads_append (v := [_]).1 hreads
    exact ⟨_, m, take?_some_eq_ok.2 ⟨hcolon, h₁⟩,
      typeExpr_complete _ htype (Nat.le_refl _) h₂ List.not_mem_nil⟩

theorem begins_constantList : Begins First.constantList ConstantList.Written := by
  rintro _ _ ⟨hkeyword, -, -⟩
  exact ⟨_, _, rfl, by rw [hkeyword]; decide⟩

theorem begins_variableList : Begins First.variableList VariableList.Written := by
  rintro _ _ ⟨hkeyword, -, -⟩
  exact ⟨_, _, rfl, by rw [hkeyword]; decide⟩

theorem begins_procedureDecl : Begins First.procedure (Closed ProcedureDecl.Body) := by
  refine Begins.closed ?_
  rintro _ _ ⟨hkeyword, -, -, -, -, -, -, -, -, -, -, -⟩
  exact ⟨_, _, rfl, by rw [hkeyword]; decide⟩

/-- What stands in front of an optional part is the part, or what follows it. -/
theorem optional_current {α : Type} {first kinds : List TokenKind} {R : Writing α}
    (hR : Begins first R) (hfirst : ∀ k ∈ first, k ∉ kinds) {w : List Token} {o : Option α}
    (h : Optional R w o) {s left : σ} (hreads : Reads s w left)
    (hleft : (TokenStream.current left).kind ∉ kinds) : (TokenStream.current s).kind ∉ kinds := by
  cases h with
  | none =>
    obtain rfl := TokenStream.reads_nil.1 hreads
    exact hleft
  | some hitem =>
    obtain ⟨t, v, rfl, ht⟩ := hR hitem
    rw [hreads.1]
    exact hfirst _ ht

/-- The constants and the variables of a scope, in front of a token that begins neither. -/
theorem locals_complete (fuel : Nat) {v w : List Token} {constants : Option ConstantList}
    {vars : Option VariableList} (hconstants : Optional ConstantList.Written v constants)
    (hvars : Optional VariableList.Written w vars) (hv : v.length ≤ fuel) (hw : w.length ≤ fuel)
    {s m left : σ} (h₁ : Reads s v m) (h₂ : Reads m w left)
    (hleft : (TokenStream.current left).kind ∉ [TokenKind.kwConst, .kwVar, .identifier]) :
    opt First.constantList (constantList fuel) s = (.ok constants, m) ∧
      opt First.variableList (variableList fuel) m = (.ok vars, left) := by
  have hbefore : ∀ k ∈ [TokenKind.kwConst, .identifier],
      k ∈ [TokenKind.kwConst, .kwVar, .identifier] := by decide
  have hbehind : ∀ k ∈ First.variableList ++ First.name,
      k ∈ [TokenKind.kwConst, .kwVar, .identifier] := by decide
  have hm : (TokenStream.current m).kind ∉ [TokenKind.kwConst, .identifier] :=
    optional_current begins_variableList (by decide) hvars h₂ fun hk => hleft (hbefore _ hk)
  refine ⟨opt_complete (constantList_complete fuel) begins_constantList hconstants hv h₁ hm, ?_⟩
  exact opt_complete (variableList_complete fuel) begins_variableList hvars hw h₂
    fun hk => hleft (hbehind _ hk)

theorem procedureDecl_complete (fuel : Nat) :
    Complete (procedureDecl fuel : Parser σ ProcedureDecl) fuel (Closed ProcedureDecl.Body) [] := by
  rintro s _ left _ ⟨⟨hkeyword, hname, hopening, hparameters, hclosing, hreturn, hsemicolon,
    hconstants, hvars, hbegin, hbody, hend⟩, hlast⟩ hlength hreads -
  obtain ⟨m₁₂, hreads, h₁₃⟩ := reads_append.1 hreads
  obtain ⟨m₁, h₁, hreads⟩ := reads_append (v := [_]).1 hreads
  obtain ⟨m₂, h₂, hreads⟩ := reads_append (v := [_]).1 hreads
  obtain ⟨m₃, h₃, hreads⟩ := reads_append (v := [_]).1 hreads
  obtain ⟨m₄, h₄, hreads⟩ := reads_append.1 hreads
  obtain ⟨m₅, h₅, hreads⟩ := reads_append (v := [_]).1 hreads
  obtain ⟨m₆, h₆, hreads⟩ := reads_append.1 hreads
  obtain ⟨m₇, h₇, hreads⟩ := reads_append (v := [_]).1 hreads
  obtain ⟨m₈, h₈, hreads⟩ := reads_append.1 hreads
  obtain ⟨m₉, h₉, hreads⟩ := reads_append.1 hreads
  obtain ⟨m₁₀, h₁₀, hreads⟩ := reads_append (v := [_]).1 hreads
  obtain ⟨m₁₁, h₁₁, h₁₂⟩ := reads_append.1 hreads
  simp only [List.length_cons, List.length_append] at hlength
  have hparameters := bindings_complete fuel hparameters (by omega) h₄
    (by rw [h₅.1, hclosing]; decide)
  have htype := returnType_complete hreturn h₆ (by rw [h₇.1, hsemicolon])
  obtain ⟨hconstants, hvars⟩ := locals_complete fuel hconstants hvars (by omega) (by omega) h₈ h₉
    (by rw [h₁₀.1, hbegin]; decide)
  have hbody := block_complete fuel hbody (by omega) h₁₁ (by rw [h₁₂.1, hend]; decide)
  simp only [procedureDecl, bind_eq_ok, expect_eq_ok, pure_eq_ok]
  exact ⟨_, m₁, ⟨hkeyword, h₁⟩, _, m₂, ⟨hname, h₂⟩, _, m₃, ⟨hopening, h₃⟩, _, m₄, hparameters, _, m₅,
    ⟨hclosing, h₅⟩, _, m₆, htype, _, m₇, ⟨hsemicolon, h₇⟩, _, m₈, hconstants, _, m₉, hvars, _, m₁₀,
    ⟨hbegin, h₁₀⟩, _, m₁₁, hbody, _, m₁₂, ⟨hend, h₁₂⟩, _, left, ⟨hlast, h₁₃⟩, rfl, rfl⟩

/-- What the tokens up to the end of a source write is read. -/
theorem program_complete (fuel : Nat) :
    Complete (program fuel : Parser σ Program) fuel Program.Written [] := by
  rintro s _ left _ ⟨hconstants, hvars, hprocedures, hkeyword, hbody, hend, hsemicolon, heof⟩ hlength
    hreads -
  obtain ⟨m₁, h₁, hreads⟩ := reads_append.1 hreads
  obtain ⟨m₂, h₂, hreads⟩ := reads_append.1 hreads
  obtain ⟨m₃, h₃, hreads⟩ := reads_append.1 hreads
  obtain ⟨m₄, h₄, hreads⟩ := reads_append (v := [_]).1 hreads
  obtain ⟨m₅, h₅, hreads⟩ := reads_append.1 hreads
  obtain ⟨m₆, h₆, hreads⟩ := reads_append (v := [_]).1 hreads
  obtain ⟨m₇, h₇, h₈⟩ := reads_append (v := [_]).1 hreads
  simp only [List.length_cons, List.length_append] at hlength
  have hm₂ : (TokenStream.current m₂).kind ∉ [TokenKind.kwConst, .kwVar, .identifier] := by
    cases hprocedures with
    | nil =>
      obtain rfl := TokenStream.reads_nil.1 h₃
      rw [h₄.1, hkeyword]
      decide
    | cons hhead _ =>
      have hnot : ∀ k ∈ First.procedure, k ∉ [TokenKind.kwConst, .kwVar, .identifier] := by decide
      obtain ⟨_, hhead', -⟩ := reads_append.1 h₃
      obtain ⟨t, v, rfl, ht⟩ := begins_procedureDecl hhead
      rw [hhead'.1]
      exact hnot _ ht
  obtain ⟨hconstants, hvars⟩ := locals_complete fuel hconstants hvars (by omega) (by omega) h₁ h₂ hm₂
  have hprocedures := many_complete (procedureDecl_complete fuel) begins_procedureDecl
    (fun _ _ => List.not_mem_nil) (Nat.le_refl fuel) hprocedures (by omega) h₃
    (by rw [h₄.1, hkeyword]; decide)
  have hbody := block_complete fuel hbody (by omega) h₅ (by rw [h₆.1, hend]; decide)
  simp only [program, procedureList, bind_eq_ok, expect_eq_ok, pure_eq_ok, programKeyword_eq_ok]
  exact ⟨_, m₁, hconstants, _, m₂, hvars, _, m₃, ⟨_, m₃, hprocedures, rfl, rfl⟩, _, m₄,
    ⟨hkeyword, h₄⟩, _, m₅, hbody, _, m₆, ⟨hend, h₆⟩, _, m₇, ⟨hsemicolon, h₇⟩, _, left, ⟨heof, h₈⟩, rfl,
    rfl⟩

end TeachLang.Grammar
