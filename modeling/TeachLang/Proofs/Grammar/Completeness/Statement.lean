import TeachLang.Proofs.Grammar.Completeness.Expr

/-! # Completeness of the parsers of statements

Every statement is told by the token that it begins with, and its expressions end where a
token of its own stands.
-/

namespace TeachLang.Grammar

open TeachLang.Parser
open TokenStream (Reads reads_append reads_advance)

variable {σ : Type} [TokenStream σ]

section

variable {B : Writing Block} {block : Parser σ Block} {bound fuel : Nat}

/-- The kinds that stand behind the expressions of a statement do not go on with them. -/
theorem not_mem_goesOn {k : TokenKind}
    (h : k ∈ [TokenKind.semicolon, .bracketClose, .kwThen, .kwDo]) : k ∉ goesOn (.level .logic) := by
  revert k
  decide

theorem assignment_complete {target : Target} {symbol : Token} {value : Expr} {v w : List Token}
    (htarget : target.Written v) (hsymbol : symbol.kind = .colonEqual) (hvalue : value.Written w)
    (hlength : (v ++ symbol :: w).length ≤ fuel) {s left : σ} (hreads : Reads s (v ++ symbol :: w) left)
    (hleft : (TokenStream.current left).kind ∉ goesOn (.level .logic)) :
    nameStatement fuel s = (.ok (.assignment target symbol value none), left) := by
  obtain ⟨m₁, hreads, hrest⟩ := reads_append.1 hreads
  obtain ⟨m₂, h₂, h₃⟩ := reads_append (v := [_]).1 hrest
  simp only [List.length_append, List.length_cons] at hlength
  have hright := expr_complete fuel hvalue (by omega) h₃ hleft
  rw [nameStatement, bind_eq_ok]
  cases htarget with
  | @name t hkind =>
    refine ⟨t, m₁, expect_eq_ok.2 ⟨hkind, hreads⟩, ?_⟩
    rw [current_bind, h₂.1, hsymbol]
    simp only [bind_eq_ok, advance_eq_ok, pure_eq_ok]
    exact ⟨symbol, m₂, h₂, value, left, hright, rfl, rfl⟩
  | @element base opening closing w position hbase hopening hposition hclosing =>
    obtain ⟨m₄, h₄, hreads⟩ := reads_append (v := [_]).1 hreads
    obtain ⟨m₅, h₅, hreads⟩ := reads_append (v := [_]).1 hreads
    obtain ⟨m₆, h₆, h₇⟩ := reads_append.1 hreads
    simp only [List.length_append, List.length_cons] at hlength
    have hinner := expr_complete fuel hposition (by omega) h₆
      (by rw [h₇.1, hclosing]; exact not_mem_goesOn (by decide))
    refine ⟨base, m₄, expect_eq_ok.2 ⟨hbase, h₄⟩, ?_⟩
    rw [current_bind, h₅.1, hopening]
    simp only [bind_eq_ok, advance_eq_ok, expect_eq_ok, pure_eq_ok]
    exact ⟨opening, m₅, h₅, position, m₆, hinner, closing, m₁, ⟨hclosing, h₇⟩, symbol, m₂,
      ⟨hsymbol, h₂⟩, value, left, hright, rfl, rfl⟩

theorem call_complete {callee : Token} {args : List Expr} {w : List Token}
    (hcallee : callee.kind = .identifier) (hargs : Expr.Arguments Expr.Written w args)
    (hlength : w.length ≤ fuel) {s left : σ} (hreads : Reads s (callee :: w) left) :
    nameStatement fuel s = (.ok (.call callee args none), left) := by
  obtain ⟨m, h₁, h₂⟩ := reads_append (v := [_]).1 hreads
  have hcall := arguments_complete (expr_complete fuel) begins_expr (Nat.le_refl fuel) hargs
    (Nat.le_succ_of_le hlength) h₂ List.not_mem_nil
  rw [nameStatement, bind_eq_ok]
  refine ⟨callee, m, expect_eq_ok.2 ⟨hcallee, h₁⟩, ?_⟩
  cases hargs with | mk hopening _ _ =>
  rw [current_bind, h₂.1, hopening]
  simp only [bind_eq_ok, pure_eq_ok]
  exact ⟨args, left, hcall, rfl, rfl⟩

/-- No statement begins behind a block, whether there are more branches or not. -/
theorem elseIfs_current {w : List Token} {b : ElseIfs} (h : ElseIfs.Layer B w b) {s left : σ}
    (hreads : Reads s w left) (hleft : (TokenStream.current left).kind ∉ First.statement) :
    (TokenStream.current s).kind ∉ First.statement := by
  cases h with
  | nil =>
    obtain rfl := TokenStream.reads_nil.1 hreads
    exact hleft
  | cons hkeyword _ _ _ _ =>
    rw [hreads.1, hkeyword]
    decide

theorem otherwise_current {w : List Token} {b : Else} (h : Else.Layer B w b) {s left : σ}
    (hreads : Reads s w left) (hleft : (TokenStream.current left).kind = .kwEnd) :
    (TokenStream.current s).kind ∉ .kwElseif :: First.statement := by
  cases h with
  | absent =>
    obtain rfl := TokenStream.reads_nil.1 hreads
    rw [hleft]
    decide
  | present hkeyword _ =>
    rw [hreads.1, hkeyword]
    decide

theorem elseIfs_complete (hB : Complete block bound B First.statement) (hfuel : bound ≤ fuel)
    {rounds : Nat} (hrounds : bound ≤ rounds) :
    Complete (elseIfs (expr fuel) block rounds) bound (ElseIfs.Layer B)
      (.kwElseif :: First.statement) := by
  intro s w left b h hlength hreads hleft
  rw [List.mem_cons, not_or] at hleft
  have hcount := Nat.le_trans hlength hrounds
  clear hrounds
  induction h generalizing s rounds with
  | nil =>
    obtain rfl := TokenStream.reads_nil.1 hreads
    cases rounds with
    | zero => rfl
    | succ rounds =>
      rw [elseIfs, take?_bind, if_neg hleft.1]
      rfl
  | @cons keyword thenWord u v w condition body rest hkeyword hcondition hthen hbody hrest ih =>
    obtain ⟨m₁, h₁, hreads⟩ := reads_append (v := [_]).1 hreads
    obtain ⟨m₂, h₂, hreads⟩ := reads_append.1 hreads
    obtain ⟨m₃, h₃, hreads⟩ := reads_append (v := [_]).1 hreads
    obtain ⟨m₄, h₄, h₅⟩ := reads_append.1 hreads
    simp only [List.length_cons, List.length_append] at hlength hcount
    obtain ⟨rounds, rfl⟩ : ∃ fewer, rounds = fewer + 1 := ⟨rounds - 1, by omega⟩
    have hcondition := expr_complete fuel hcondition (by omega) h₂
      (by rw [h₃.1, hthen]; exact not_mem_goesOn (by decide))
    have hbody := hB hbody (by omega) h₄ (elseIfs_current hrest h₅ hleft.2)
    have hmore : elseIfs (expr fuel) block rounds m₄ = (.ok rest, left) :=
      ih (by omega) h₅ (by omega)
    rw [elseIfs, bind_eq_ok]
    refine ⟨some keyword, m₁, take?_some_eq_ok.2 ⟨hkeyword, h₁⟩, ?_⟩
    simp only [bind_eq_ok, expect_eq_ok, pure_eq_ok]
    exact ⟨condition, m₂, hcondition, thenWord, m₃, ⟨hthen, h₃⟩, body, m₄, hbody, rest, left, hmore,
      rfl, rfl⟩

theorem otherwise_complete (hB : Complete block bound B First.statement) {w : List Token} {b : Else}
    (h : Else.Layer B w b) (hlength : w.length ≤ bound) {s left : σ} (hreads : Reads s w left)
    (hleft : (TokenStream.current left).kind = .kwEnd) : otherwise block s = (.ok b, left) := by
  rw [otherwise, bind_eq_ok]
  cases h with
  | absent =>
    obtain rfl := TokenStream.reads_nil.1 hreads
    exact ⟨none, s, take?_none_eq_ok.2 ⟨by rw [hleft]; decide, rfl⟩, rfl⟩
  | @present keyword w body hkeyword hbody =>
    obtain ⟨m, h₁, h₂⟩ := reads_append (v := [_]).1 hreads
    have hinner := hB hbody (Nat.le_of_succ_le hlength) h₂ (by rw [hleft]; decide)
    exact ⟨some keyword, m, take?_some_eq_ok.2 ⟨hkeyword, h₁⟩,
      bind_eq_ok.2 ⟨body, left, hinner, rfl⟩⟩

theorem conditional_complete (hB : Complete block bound B First.statement) (hfuel : bound + 1 ≤ fuel)
    {keyword : Token} {condition : Expr} {body : Block} {branches : ElseIfs} {last : Else}
    {branchesSlot slot : Slot} {w : List Token} (h : Statement.Layer B w
      (.conditional keyword condition body branches branchesSlot last slot))
    (hlength : w.length ≤ bound + 1) {s left : σ} (hreads : Reads s w left) :
    (TokenStream.current s).kind = .kwIf ∧ conditional block fuel s =
      (.ok (.conditional keyword condition body branches branchesSlot last slot), left) := by
  cases h with
  | @conditional _ thenWord endWord u v w x _ _ _ _ hkeyword hcondition hthen hbody hbranches hlast
      hend =>
    obtain ⟨m₁, h₁, hreads⟩ := reads_append (v := [_]).1 hreads
    obtain ⟨m₂, h₂, hreads⟩ := reads_append.1 hreads
    obtain ⟨m₃, h₃, hreads⟩ := reads_append (v := [_]).1 hreads
    obtain ⟨m₄, h₄, hreads⟩ := reads_append.1 hreads
    obtain ⟨m₅, h₅, hreads⟩ := reads_append.1 hreads
    obtain ⟨m₆, h₆, h₇⟩ := reads_append.1 hreads
    simp only [List.length_cons, List.length_append] at hlength
    have hkind : (TokenStream.current m₆).kind = .kwEnd := by rw [h₇.1, hend]
    have hcurrent := otherwise_current hlast h₆ hkind
    have hcondition := expr_complete fuel hcondition (by omega) h₂
      (by rw [h₃.1, hthen]; exact not_mem_goesOn (by decide))
    have hbody := hB hbody (by omega) h₄
      (elseIfs_current hbranches h₅ fun hk => hcurrent (List.mem_cons_of_mem _ hk))
    have hbranches := elseIfs_complete hB (Nat.le_of_succ_le hfuel) (Nat.le_of_succ_le hfuel)
      hbranches (by omega) h₅ hcurrent
    have hlast := otherwise_complete hB hlast (by omega) h₆ hkind
    refine ⟨by rw [h₁.1, hkeyword], ?_⟩
    simp only [conditional, bind_eq_ok, expect_eq_ok, pure_eq_ok]
    exact ⟨keyword, m₁, ⟨hkeyword, h₁⟩, condition, m₂, hcondition, thenWord, m₃, ⟨hthen, h₃⟩, body,
      m₄, hbody, branches, m₅, hbranches, last, m₆, hlast, endWord, left, ⟨hend, h₇⟩, rfl, rfl⟩

theorem loop_complete (hB : Complete block bound B First.statement) {keyword : Token} {body : Block}
    {slot : Slot} {w : List Token} (h : Statement.Layer B w (.loop keyword body slot))
    (hlength : w.length ≤ bound + 1) {s left : σ} (hreads : Reads s w left) :
    (TokenStream.current s).kind = .kwLoop ∧
      loop block s = (.ok (.loop keyword body slot), left) := by
  cases h with
  | @loop _ endWord w _ hkeyword hbody hend =>
    obtain ⟨m₁, h₁, hreads⟩ := reads_append (v := [_]).1 hreads
    obtain ⟨m₂, h₂, h₃⟩ := reads_append.1 hreads
    simp only [List.length_cons, List.length_append] at hlength
    have hbody := hB hbody (by omega) h₂ (by rw [h₃.1, hend]; decide)
    refine ⟨by rw [h₁.1, hkeyword], ?_⟩
    simp only [loop, bind_eq_ok, advance_eq_ok, expect_eq_ok, pure_eq_ok]
    exact ⟨keyword, m₁, h₁, body, m₂, hbody, endWord, left, ⟨hend, h₃⟩, rfl, rfl⟩

theorem forEach_complete (hB : Complete block bound B First.statement) (hfuel : bound + 1 ≤ fuel)
    {keyword : Token} {item : Identifier} {iterable : Expr} {body : Block} {slot : Slot}
    {w : List Token} (h : Statement.Layer B w (.forEach keyword item iterable body slot))
    (hlength : w.length ≤ bound + 1) {s left : σ} (hreads : Reads s w left) :
    (TokenStream.current s).kind = .kwFor ∧
      forEach block fuel s = (.ok (.forEach keyword item iterable body slot), left) := by
  cases h with
  | @forEach _ item inWord doWord endWord v w _ _ hkeyword hitem hin hiterable hdo hbody hend =>
    obtain ⟨m₁, h₁, hreads⟩ := reads_append (v := [_]).1 hreads
    obtain ⟨m₂, h₂, hreads⟩ := reads_append (v := [_]).1 hreads
    obtain ⟨m₃, h₃, hreads⟩ := reads_append (v := [_]).1 hreads
    obtain ⟨m₄, h₄, hreads⟩ := reads_append.1 hreads
    obtain ⟨m₅, h₅, hreads⟩ := reads_append (v := [_]).1 hreads
    obtain ⟨m₆, h₆, h₇⟩ := reads_append.1 hreads
    simp only [List.length_cons, List.length_append] at hlength
    have hiterable := expr_complete fuel hiterable (by omega) h₄
      (by rw [h₅.1, hdo]; exact not_mem_goesOn (by decide))
    have hbody := hB hbody (by omega) h₆ (by rw [h₇.1, hend]; decide)
    refine ⟨by rw [h₁.1, hkeyword], ?_⟩
    simp only [forEach, bind_eq_ok, advance_eq_ok, expect_eq_ok, pure_eq_ok]
    exact ⟨keyword, m₁, h₁, item, m₂, ⟨hitem, h₂⟩, inWord, m₃, ⟨hin, h₃⟩, iterable, m₄, hiterable,
      doWord, m₅, ⟨hdo, h₅⟩, body, m₆, hbody, endWord, left, ⟨hend, h₇⟩, rfl, rfl⟩

theorem statementBody_complete (hB : Complete block bound B First.statement)
    (hfuel : bound + 1 ≤ fuel) : Complete (statementBody block fuel) (bound + 1) (Statement.Layer B)
      (goesOn (.level .logic) ++ First.expr) := by
  intro s w left statement h hlength hreads hleft
  rw [List.mem_append, not_or] at hleft
  rw [statementBody, current_bind]
  cases h with
  | @assignment v w target symbol value htarget hsymbol hvalue =>
    have hname : (TokenStream.current s).kind = .identifier := by
      cases htarget with
      | name hkind => rw [hreads.1, hkind]
      | element hbase _ _ _ => rw [hreads.1, hbase]
    rw [hname]
    exact assignment_complete htarget hsymbol hvalue (Nat.le_trans hlength hfuel) hreads hleft.1
  | call hcallee hargs =>
    rw [hreads.1, hcallee]
    exact call_complete hcallee hargs (Nat.le_of_succ_le (Nat.le_trans hlength hfuel)) hreads
  | conditional hkeyword hcondition hthen hbody hbranches hlast hend =>
    obtain ⟨hkind, hresult⟩ := conditional_complete hB hfuel
      (.conditional hkeyword hcondition hthen hbody hbranches hlast hend) hlength hreads
    rw [hkind]
    exact hresult
  | loop hkeyword hbody hend =>
    obtain ⟨hkind, hresult⟩ := loop_complete hB (.loop hkeyword hbody hend) hlength hreads
    rw [hkind]
    exact hresult
  | forEach hkeyword hitem hin hiterable hdo hbody hend =>
    obtain ⟨hkind, hresult⟩ := forEach_complete hB hfuel
      (.forEach hkeyword hitem hin hiterable hdo hbody hend) hlength hreads
    rw [hkind]
    exact hresult
  | @returning keyword w value hkeyword hvalue =>
    obtain ⟨m, h₁, h₂⟩ := reads_append (v := [_]).1 hreads
    simp only [List.length_cons] at hlength
    have hvalue := opt_complete (expr_complete fuel) begins_expr hvalue (by omega) h₂
      (by rw [List.mem_append, not_or]; exact hleft.symm)
    rw [h₁.1, hkeyword]
    simp only [bind_eq_ok, advance_eq_ok, pure_eq_ok]
    exact ⟨keyword, m, h₁, value, left, hvalue, rfl, rfl⟩
  | @exit keyword hkeyword =>
    rw [hreads.1, hkeyword]
    simp only [bind_eq_ok, advance_eq_ok, pure_eq_ok]
    exact ⟨keyword, left, hreads, rfl, rfl⟩

end

theorem closed_complete {α : Type} {p : Parser σ α} {R : Writing α} {bound : Nat}
    {goesOn : List TokenKind} (hp : Complete p bound R goesOn) (hsemicolon : .semicolon ∉ goesOn) :
    Complete (do let a ← p; let _ ← expect .semicolon; return a) bound (Closed R) [] := by
  rintro s _ left a ⟨hitem, hkind⟩ hlength hreads -
  obtain ⟨m, h₁, h₂⟩ := reads_append.1 hreads
  rw [List.length_append] at hlength
  have ha := hp hitem (by omega) h₁ (by rw [h₂.1, hkind]; exact hsemicolon)
  simp only [bind_eq_ok, expect_eq_ok, pure_eq_ok]
  exact ⟨a, m, ha, _, left, ⟨hkind, h₂⟩, rfl, rfl⟩

theorem begins_statement (B : Writing Block) : Begins First.statement (Statement.Layer B) := by
  intro w s h
  cases h with
  | assignment htarget _ _ =>
    cases htarget with
    | name hkind => exact ⟨_, _, rfl, by rw [hkind]; decide⟩
    | element hkind _ _ _ => exact ⟨_, _, rfl, by rw [hkind]; decide⟩
  | call hkind _ => exact ⟨_, _, rfl, by rw [hkind]; decide⟩
  | conditional hkind _ _ _ _ _ _ => exact ⟨_, _, rfl, by rw [hkind]; decide⟩
  | loop hkind _ _ => exact ⟨_, _, rfl, by rw [hkind]; decide⟩
  | forEach hkind _ _ _ _ _ _ => exact ⟨_, _, rfl, by rw [hkind]; decide⟩
  | returning hkind _ => exact ⟨_, _, rfl, by rw [hkind]; decide⟩
  | exit hkind => exact ⟨_, _, rfl, by rw [hkind]; decide⟩

theorem blockOf_complete {statement : Parser σ Statement} {bound fuel : Nat}
    (h : Complete statement bound Statement.Written []) (hfuel : bound ≤ fuel) :
    Complete (blockOf statement fuel) bound Block.Written First.statement := by
  rintro s w left _ ⟨hlayer⟩ hlength hreads hleft
  have hmany := many_complete h (begins_statement _).closed (fun _ _ => List.not_mem_nil) hfuel
    hlayer hlength hreads (by rwa [List.append_nil])
  simp only [blockOf, bind_eq_ok, pure_eq_ok]
  exact ⟨_, left, hmany, rfl, rfl⟩

theorem statement_complete (fuel : Nat) :
    Complete (statement fuel : Parser σ Statement) fuel Statement.Written [] := by
  induction fuel with
  | zero =>
    intro s w left a h hlength
    exact absurd ((begins_statement _).closed.length_pos h) (by omega)
  | succ fuel ih =>
    exact closed_complete (statementBody_complete (blockOf_complete ih (Nat.le_refl fuel))
      (Nat.le_refl (fuel + 1))) (by decide)

theorem block_complete (fuel : Nat) :
    Complete (block fuel : Parser σ Block) fuel Block.Written First.statement :=
  blockOf_complete (statement_complete fuel) (Nat.le_refl fuel)

end TeachLang.Grammar
