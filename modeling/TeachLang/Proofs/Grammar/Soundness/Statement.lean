import TeachLang.Proofs.Grammar.Soundness.Expr

/-! # Soundness of the parsers of statements

Every parser of statements yields trees that are written by the tokens that it went past.
-/

namespace TeachLang.Grammar

open TeachLang.Parser
open TokenStream (Reads reads_append reads_advance)

variable {σ : Type} [TokenStream σ]

section

variable {B : Writing Block} {block : Parser σ Block}

theorem nameStatement_sound (fuel : Nat) :
    Sound (nameStatement fuel : Parser σ Statement) (Statement.Layer B) := by
  intro s statement left h
  rw [nameStatement, bind_eq_ok] at h
  obtain ⟨name, m₁, hname, h⟩ := h
  obtain ⟨hname, h₁⟩ := expect_eq_ok.1 hname
  rw [current_bind] at h
  generalize hkind : (TokenStream.current m₁).kind = kind at h
  split at h
  · simp only [bind_eq_ok, advance_eq_ok, pure_eq_ok] at h
    obtain ⟨symbol, m₂, ⟨rfl, rfl⟩, value, m₃, hvalue, rfl, rfl⟩ := h
    obtain ⟨w, h₃, hw⟩ := expr_sound fuel hvalue
    exact ⟨[name] ++ TokenStream.current m₁ :: w,
      reads_append.2 ⟨m₁, h₁, reads_append.2 ⟨_, reads_advance m₁, h₃⟩⟩,
      .assignment (.name hname) hkind hw⟩
  · simp only [bind_eq_ok, advance_eq_ok, expect_eq_ok, pure_eq_ok] at h
    obtain ⟨opening, m₂, ⟨rfl, rfl⟩, position, m₃, hposition, closing, m₄, ⟨hclosing, h₄⟩, symbol,
      m₅, ⟨hsymbol, h₅⟩, value, m₆, hvalue, rfl, rfl⟩ := h
    obtain ⟨v, h₃, hv⟩ := expr_sound fuel hposition
    obtain ⟨w, h₆, hw⟩ := expr_sound fuel hvalue
    exact ⟨(name :: TokenStream.current m₁ :: (v ++ [closing])) ++ symbol :: w,
      reads_append.2 ⟨m₄, reads_append.2 ⟨m₁, h₁, reads_append.2
        ⟨_, reads_advance m₁, reads_append.2 ⟨m₃, h₃, h₄⟩⟩⟩, reads_append.2 ⟨m₅, h₅, h₆⟩⟩,
      .assignment (.element hname hkind hv hclosing) hsymbol hw⟩
  · simp only [bind_eq_ok, pure_eq_ok] at h
    obtain ⟨args, m₂, hargs, rfl, rfl⟩ := h
    obtain ⟨w, h₂, hw⟩ := arguments_sound (expr_sound fuel) fuel hargs
    exact ⟨name :: w, reads_append.2 ⟨m₁, h₁, h₂⟩, .call hname hw⟩
  · exact (fail_eq_ok.1 h).elim

theorem elseIfs_sound (hB : Sound block B) (fuel rounds : Nat) :
    Sound (elseIfs (expr fuel) block rounds) (ElseIfs.Layer B) := by
  induction rounds with
  | zero =>
    intro s b left h
    obtain ⟨rfl, rfl⟩ := pure_eq_ok.1 h
    exact ⟨[], rfl, .nil⟩
  | succ rounds ih =>
    intro s b left h
    rw [elseIfs, bind_eq_ok] at h
    obtain ⟨found, m₁, hfound, h⟩ := h
    cases found with
    | none =>
      obtain ⟨-, rfl⟩ := take?_none_eq_ok.1 hfound
      obtain ⟨rfl, rfl⟩ := pure_eq_ok.1 h
      exact ⟨[], rfl, .nil⟩
    | some keyword =>
      simp only [bind_eq_ok, expect_eq_ok, pure_eq_ok] at h
      obtain ⟨condition, m₂, hcondition, thenWord, m₃, ⟨hthen, h₃⟩, body, m₄, hbody, rest, m₅, hrest,
        rfl, rfl⟩ := h
      obtain ⟨hkeyword, h₁⟩ := take?_some_eq_ok.1 hfound
      obtain ⟨u, h₂, hu⟩ := expr_sound fuel hcondition
      obtain ⟨v, h₄, hv⟩ := hB hbody
      obtain ⟨w, h₅, hw⟩ := ih hrest
      exact ⟨keyword :: (u ++ thenWord :: (v ++ w)),
        reads_append.2 ⟨m₁, h₁, reads_append.2 ⟨m₂, h₂, reads_append.2
          ⟨m₃, h₃, reads_append.2 ⟨m₄, h₄, h₅⟩⟩⟩⟩,
        .cons hkeyword hu hthen hv hw⟩

theorem otherwise_sound (hB : Sound block B) : Sound (otherwise block) (Else.Layer B) := by
  intro s b left h
  rw [otherwise, bind_eq_ok] at h
  obtain ⟨found, m, hfound, h⟩ := h
  cases found with
  | none =>
    obtain ⟨-, rfl⟩ := take?_none_eq_ok.1 hfound
    obtain ⟨rfl, rfl⟩ := pure_eq_ok.1 h
    exact ⟨[], rfl, .absent⟩
  | some keyword =>
    simp only [bind_eq_ok, pure_eq_ok] at h
    obtain ⟨body, m', hbody, rfl, rfl⟩ := h
    obtain ⟨hkeyword, h₁⟩ := take?_some_eq_ok.1 hfound
    obtain ⟨w, h₂, hw⟩ := hB hbody
    exact ⟨keyword :: w, reads_append.2 ⟨m, h₁, h₂⟩, .present hkeyword hw⟩

theorem conditional_sound (hB : Sound block B) (fuel : Nat) :
    Sound (conditional block fuel) (Statement.Layer B) := by
  intro s statement left h
  simp only [conditional, bind_eq_ok, expect_eq_ok, pure_eq_ok] at h
  obtain ⟨keyword, m₁, ⟨hkeyword, h₁⟩, condition, m₂, hcondition, thenWord, m₃, ⟨hthen, h₃⟩, body,
    m₄, hbody, branches, m₅, hbranches, last, m₆, hlast, endWord, m₇, ⟨hend, h₇⟩, rfl, rfl⟩ := h
  obtain ⟨u, h₂, hu⟩ := expr_sound fuel hcondition
  obtain ⟨v, h₄, hv⟩ := hB hbody
  obtain ⟨w, h₅, hw⟩ := elseIfs_sound hB fuel fuel hbranches
  obtain ⟨x, h₆, hx⟩ := otherwise_sound hB hlast
  exact ⟨keyword :: (u ++ thenWord :: (v ++ (w ++ (x ++ [endWord])))),
    reads_append.2 ⟨m₁, h₁, reads_append.2 ⟨m₂, h₂, reads_append.2 ⟨m₃, h₃, reads_append.2
      ⟨m₄, h₄, reads_append.2 ⟨m₅, h₅, reads_append.2 ⟨m₆, h₆, h₇⟩⟩⟩⟩⟩⟩,
    .conditional hkeyword hu hthen hv hw hx hend⟩

theorem loop_sound (hB : Sound block B) {s left : σ} {statement : Statement}
    (hkind : (TokenStream.current s).kind = .kwLoop) (h : loop block s = (.ok statement, left)) :
    ∃ w, Reads s w left ∧ Statement.Layer B w statement := by
  simp only [loop, bind_eq_ok, advance_eq_ok, expect_eq_ok, pure_eq_ok] at h
  obtain ⟨keyword, m₁, ⟨rfl, rfl⟩, body, m₂, hbody, endWord, m₃, ⟨hend, h₃⟩, rfl, rfl⟩ := h
  obtain ⟨w, h₂, hw⟩ := hB hbody
  exact ⟨TokenStream.current s :: (w ++ [endWord]),
    reads_append.2 ⟨_, reads_advance s, reads_append.2 ⟨m₂, h₂, h₃⟩⟩, .loop hkind hw hend⟩

theorem forEach_sound (hB : Sound block B) (fuel : Nat) {s left : σ} {statement : Statement}
    (hkind : (TokenStream.current s).kind = .kwFor)
    (h : forEach block fuel s = (.ok statement, left)) :
    ∃ w, Reads s w left ∧ Statement.Layer B w statement := by
  simp only [forEach, bind_eq_ok, advance_eq_ok, expect_eq_ok, pure_eq_ok] at h
  obtain ⟨keyword, m₁, ⟨rfl, rfl⟩, item, m₂, ⟨hitem, h₂⟩, inWord, m₃, ⟨hin, h₃⟩, iterable, m₄,
    hiterable, doWord, m₅, ⟨hdo, h₅⟩, body, m₆, hbody, endWord, m₇, ⟨hend, h₇⟩, rfl, rfl⟩ := h
  obtain ⟨v, h₄, hv⟩ := expr_sound fuel hiterable
  obtain ⟨w, h₆, hw⟩ := hB hbody
  exact ⟨TokenStream.current s :: item :: inWord :: (v ++ doWord :: (w ++ [endWord])),
    reads_append.2 ⟨_, reads_advance s, reads_append.2 ⟨m₂, h₂, reads_append.2 ⟨m₃, h₃,
      reads_append.2 ⟨m₄, h₄, reads_append.2 ⟨m₅, h₅, reads_append.2 ⟨m₆, h₆, h₇⟩⟩⟩⟩⟩⟩,
    .forEach hkind hitem hin hv hdo hw hend⟩

theorem statementBody_sound (hB : Sound block B) (fuel : Nat) :
    Sound (statementBody block fuel) (Statement.Layer B) := by
  intro s statement left h
  rw [statementBody, current_bind] at h
  generalize hkind : (TokenStream.current s).kind = kind at h
  split at h
  · exact nameStatement_sound fuel h
  · exact conditional_sound hB fuel h
  · exact loop_sound hB hkind h
  · exact forEach_sound hB fuel hkind h
  · simp only [bind_eq_ok, advance_eq_ok, pure_eq_ok] at h
    obtain ⟨keyword, m, ⟨rfl, rfl⟩, value, m', hvalue, rfl, rfl⟩ := h
    obtain ⟨w, hreads, hw⟩ := opt_sound (expr_sound fuel) hvalue
    exact ⟨TokenStream.current s :: w, reads_append.2 ⟨_, reads_advance s, hreads⟩,
      .returning hkind hw⟩
  · simp only [bind_eq_ok, advance_eq_ok, pure_eq_ok] at h
    obtain ⟨keyword, m, ⟨rfl, rfl⟩, rfl, rfl⟩ := h
    exact ⟨[TokenStream.current s], reads_advance s, .exit hkind⟩
  · exact (fail_eq_ok.1 h).elim

end

theorem closed_sound {α : Type} {p : Parser σ α} {R : Writing α} (hp : Sound p R) :
    Sound (do let a ← p; let _ ← expect .semicolon; return a) (Closed R) := by
  intro s a left h
  simp only [bind_eq_ok, expect_eq_ok, pure_eq_ok] at h
  obtain ⟨a, m, ha, semicolon, m', ⟨hsemicolon, h₂⟩, rfl, rfl⟩ := h
  obtain ⟨w, h₁, hw⟩ := hp ha
  exact ⟨w ++ [semicolon], reads_append.2 ⟨m, h₁, h₂⟩, .mk hw hsemicolon⟩

theorem blockOf_sound {statement : Parser σ Statement} (h : Sound statement Statement.Written)
    (fuel : Nat) : Sound (blockOf statement fuel) Block.Written := by
  intro s b left hb
  simp only [blockOf, bind_eq_ok, pure_eq_ok] at hb
  obtain ⟨statements, m, hstatements, rfl, rfl⟩ := hb
  obtain ⟨w, hreads, hw⟩ := many_sound h fuel hstatements
  exact ⟨w, hreads, .mk hw⟩

theorem statement_sound (fuel : Nat) :
    Sound (statement fuel : Parser σ Statement) Statement.Written := by
  induction fuel with
  | zero =>
    intro s statement left h
    exact (fail_eq_ok.1 h).elim
  | succ fuel ih => exact closed_sound (statementBody_sound (blockOf_sound ih fuel) (fuel + 1))

theorem block_sound (fuel : Nat) : Sound (block fuel : Parser σ Block) Block.Written :=
  blockOf_sound (statement_sound fuel) fuel

end TeachLang.Grammar
