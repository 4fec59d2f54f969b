import Mathlib.Data.List.Basic
import TeachLang.Proofs.Grammar.Viable

/-! # The order of declarations

A program declares its constants first, then its variables, then its procedures.  A procedure
declares constants and variables of its own between its head and its body, so a keyword of
declarations that comes too late for the program stands behind a `procedure` whose `begin` is
still to come.
-/

namespace TeachLang

open Ebnf

/-- The keywords that begin and end declarations. -/
def landmarks : List TokenKind := First.declaration ++ [.kwBegin, .kwProgram]

def declarers : TokenKind → List Nonterminal
  | .kwConst => [.program, .procedure, .constBlock]
  | .kwVar => [.program, .procedure, .varBlock]
  | .kwProgram => [.program]
  | _ => [.program, .procedure]

theorem Derives.landmark_not_mem {kinds : List TokenKind} {x : Ebnf} {ks : List TokenKind}
    (h : Derives x ks)
    (hx : ∀ k ∈ kinds, k ∈ landmarks ∧ x.Mentions k (declarers k) = false) :
    ∀ k ∈ kinds, k ∉ ks := by
  have hrule : ∀ n : Nonterminal, ∀ k ∈ landmarks, n ∉ declarers k →
      n.rule.Mentions k (declarers k) = false := by
    intro n
    cases n <;> decide
  intro k hk
  obtain ⟨hlandmark, hmentions⟩ := hx k hk
  exact h.not_mem (fun n => hrule n k hlandmark) hmentions

/-! What stands on both sides of a program's keyword, and of the `begin` of a procedure. -/

def declarationForms : List Ebnf :=
  [optional (part .constBlock), optional (part .varBlock), repeated (part .procedure)]

def programBodyForms : List Ebnf :=
  [repeated (part .statement), token .kwEnd, token .semicolon, token .eof]

def procedureHeadForms : List Ebnf :=
  [token .identifier, token .parenthesisOpen, repeated (part .binding), token .parenthesisClose,
    optional (seq [token .colon, part .type]), token .semicolon, optional (part .constBlock),
    optional (part .varBlock)]

def procedureBodyForms : List Ebnf :=
  [repeated (part .statement), token .kwEnd, token .semicolon]

theorem Derives.program_split {ks : List TokenKind} (h : Derives (.part .program) ks) :
    ∃ js ls, ks = js ++ .kwProgram :: ls ∧ Derives (.seq declarationForms) js ∧
      Derives (.seq programBodyForms) ls := by
  cases h with | part h =>
  change Derives (.seq (declarationForms ++ .token .kwProgram :: programBodyForms)) ks at h
  obtain ⟨js, ms, rfl, hjs, h⟩ := seq_append_iff.1 h
  obtain ⟨ls, rfl, hls⟩ := h.seq_token
  exact ⟨js, ls, rfl, hjs, hls⟩

theorem Derives.procedure_split {ks : List TokenKind} (h : Derives (.part .procedure) ks) :
    ∃ js ls, ks = .kwProcedure :: js ++ .kwBegin :: ls ∧ Derives (.seq procedureHeadForms) js ∧
      Derives (.seq procedureBodyForms) ls := by
  cases h with | part h =>
  change Derives (.seq ((.token .kwProcedure :: procedureHeadForms) ++
    .token .kwBegin :: procedureBodyForms)) ks at h
  obtain ⟨ms, ns, rfl, hms, hns⟩ := seq_append_iff.1 h
  obtain ⟨js, rfl, hjs⟩ := hms.seq_token
  obtain ⟨ls, rfl, hls⟩ := hns.seq_token
  exact ⟨js, ls, rfl, hjs, hls⟩

/-- What goes on with a program's keyword are whole declarations. -/
theorem Viable.declarations {ks : List TokenKind}
    (h : Viable (.part .program) (ks ++ [.kwProgram])) : Derives (.seq declarationForms) ks := by
  obtain ⟨more, hmore⟩ := h
  obtain ⟨js, ls, heq, hjs, hls⟩ := hmore.program_split
  have hdeclared : ∀ k ∈ [TokenKind.kwProgram], k ∉ js := hjs.landmark_not_mem (by decide)
  have hbody : ∀ k ∈ [TokenKind.kwProgram], k ∉ ls := hls.landmark_not_mem (by decide)
  rw [List.append_assoc, List.singleton_append] at heq
  obtain ⟨rfl, -, -⟩ := (List.append_cons_inj_of_notMem (hdeclared _ List.mem_cons_self)
    (hbody _ List.mem_cons_self)).1 heq.symm
  exact hjs

/-! Where the keywords of constants and variables stand. -/

/-- A keyword of declarations that can no longer begin declarations of the program itself. -/
def ComesLate (k : TokenKind) (ks : List TokenKind) : Prop :=
  (k = .kwConst ∧ ks ≠ []) ∨ (k = .kwVar ∧ (.kwVar ∈ ks ∨ .kwProcedure ∈ ks))

/-- Behind the keyword of a procedure whose body has not begun. -/
def InProcedureHead (ks : List TokenKind) : Prop :=
  ks.count .kwProcedure = ks.count .kwBegin + 1

section

variable {k : TokenKind} {ks js ls : List TokenKind}

theorem InProcedureHead.append (hls : InProcedureHead ls)
    (hjs : js.count .kwProcedure = js.count .kwBegin) : InProcedureHead (js ++ ls) := by
  rw [InProcedureHead, List.count_append, List.count_append, hjs, hls, Nat.add_assoc]

/-- An item of two rows in a row stands in the first one or in the second one. -/
theorem append_eq_append_cons {α : Type} {u v p q : List α} {a : α} (h : u ++ v = p ++ a :: q) :
    (∃ r, u = p ++ a :: r) ∨ ∃ r, p = u ++ r ∧ v = r ++ a :: q := by
  rcases List.append_eq_append_iff.1 h with ⟨r, rfl, rfl⟩ | ⟨r, rfl, hr⟩
  · exact .inr ⟨r, rfl, rfl⟩
  · cases r with
    | nil => exact .inr ⟨[], by simp, by simpa using hr.symm⟩
    | cons b r =>
      obtain ⟨rfl, rfl⟩ := List.cons.inj hr
      exact .inl ⟨r, rfl⟩

/-- The constants or the variables of a scope have their keyword in front and nowhere else. -/
theorem Derives.eq_nil_of_block {n : Nonterminal} {keyword : TokenKind} {xs : List Ebnf}
    {kinds : List TokenKind} (hrule : n.rule = .seq (.token keyword :: xs))
    (hxs : ∀ k ∈ kinds, k ∈ landmarks ∧ (Ebnf.seq xs).Mentions k (declarers k) = false)
    (hk : k ∈ kinds) (h : Derives (.optional (.part n)) (js ++ k :: ls)) :
    js = [] ∧ k = keyword := by
  generalize hks : js ++ k :: ls = ks at h
  cases h with
  | left h =>
    cases h
    simp at hks
  | right h =>
    cases h with | part h =>
    rw [hrule] at h
    obtain ⟨ms, rfl, hms⟩ := h.seq_token
    cases js with
    | nil => exact ⟨rfl, (List.cons.inj hks).1⟩
    | cons j js =>
      obtain ⟨-, rfl⟩ := List.cons.inj hks
      exact absurd (by simp) (hms.landmark_not_mem hxs k hk)

/-- A procedure has one keyword and one body. -/
theorem Derives.procedure_counts (h : Derives (.part .procedure) ks) :
    ks.count .kwProcedure = 1 ∧ ks.count .kwBegin = 1 := by
  obtain ⟨js, ls, rfl, hjs, hls⟩ := h.procedure_split
  have hhead : ∀ k ∈ [TokenKind.kwProcedure, .kwBegin], k ∉ js := hjs.landmark_not_mem (by decide)
  have hbody : ∀ k ∈ [TokenKind.kwProcedure, .kwBegin], k ∉ ls := hls.landmark_not_mem (by decide)
  simp [List.count_eq_zero_of_not_mem, hhead, hbody]

theorem Derives.procedures_counts (h : Derives (.repeated (.part .procedure)) ks) :
    ks.count .kwProcedure = ks.count .kwBegin := by
  generalize hx : Ebnf.repeated (.part .procedure) = x at h
  induction h with
  | stop => rfl
  | again hhead _ _ ih =>
    cases hx
    obtain ⟨hprocedure, hbegin⟩ := hhead.procedure_counts
    rw [List.count_append, List.count_append, hprocedure, hbegin, ih rfl]
  | _ => cases hx

theorem Derives.inProcedureHead (hk : k ∈ [TokenKind.kwConst, .kwVar])
    (h : Derives (.part .procedure) (js ++ k :: ls)) : InProcedureHead js := by
  obtain ⟨us, vs, heq, hus, hvs⟩ := h.procedure_split
  have hhead : ∀ k ∈ [TokenKind.kwProcedure, .kwBegin], k ∉ us := hus.landmark_not_mem (by decide)
  have hbody : ∀ k ∈ [TokenKind.kwConst, .kwVar], k ∉ vs := hvs.landmark_not_mem (by decide)
  have hother : ∀ k ∈ [TokenKind.kwConst, .kwVar], k ≠ .kwProcedure ∧ k ≠ .kwBegin := by decide
  rcases append_eq_append_cons heq.symm with ⟨r, hr⟩ | ⟨r, -, hr⟩
  · cases js with
    | nil => exact absurd (List.cons.inj hr).1.symm (hother k hk).1
    | cons j js =>
      obtain ⟨rfl, rfl⟩ := List.cons.inj hr
      have hcount : ∀ k ∈ [TokenKind.kwProcedure, .kwBegin], js.count k = 0 := fun k hk =>
        List.count_eq_zero.2 fun hmem => hhead k hk (List.mem_append_left _ hmem)
      simp [InProcedureHead, hcount]
  · have hmem : k ∈ TokenKind.kwBegin :: vs := by simp [hr]
    rcases List.mem_cons.1 hmem with hbegin | hmem
    · exact absurd hbegin (hother k hk).2
    · exact absurd hmem (hbody k hk)

theorem Derives.inProcedureHead_of_procedures (hk : k ∈ [TokenKind.kwConst, .kwVar])
    (h : Derives (.repeated (.part .procedure)) (js ++ k :: ls)) : InProcedureHead js := by
  generalize hx : Ebnf.repeated (.part .procedure) = x at h
  generalize hks : js ++ k :: ls = ks at h
  induction h generalizing js with
  | stop => simp at hks
  | again hhead htail _ ih =>
    cases hx
    rcases append_eq_append_cons hks.symm with ⟨r, rfl⟩ | ⟨r, rfl, hr⟩
    · exact hhead.inProcedureHead hk
    · obtain ⟨hprocedure, hbegin⟩ := hhead.procedure_counts
      exact (ih rfl hr.symm).append (hprocedure.trans hbegin.symm)
  | _ => cases hx

/-- In front of its procedures, no procedure of a program begins or ends. -/
theorem Derives.blocks_counts (hjs : Derives (.optional (.part .constBlock)) js)
    (hls : Derives (.optional (.part .varBlock)) ls) :
    (js ++ ls).count .kwProcedure = (js ++ ls).count .kwBegin := by
  have hconstants : ∀ k ∈ [TokenKind.kwProcedure, .kwBegin], k ∉ js :=
    hjs.landmark_not_mem (by decide)
  have hvars : ∀ k ∈ [TokenKind.kwProcedure, .kwBegin], k ∉ ls := hls.landmark_not_mem (by decide)
  simp [List.count_eq_zero_of_not_mem, hconstants, hvars]

theorem Derives.declarations_split (h : Derives (.seq declarationForms) ks) :
    ∃ as bs cs, ks = as ++ bs ++ cs ∧ Derives (.optional (.part .constBlock)) as ∧
      Derives (.optional (.part .varBlock)) bs ∧ Derives (.repeated (.part .procedure)) cs := by
  obtain ⟨as, _, rfl, has, h⟩ := h.seq_cons
  obtain ⟨bs, cs, rfl, hbs, h⟩ := h.seq_cons
  exact ⟨as, bs, cs, (List.append_assoc as bs cs).symm, has, hbs, h.seq_singleton⟩

/-- Behind whole declarations, every procedure that was begun has its body. -/
theorem Derives.not_inProcedureHead (h : Derives (.seq declarationForms) ks) :
    ¬ InProcedureHead ks := by
  obtain ⟨as, bs, cs, rfl, has, hbs, hcs⟩ := h.declarations_split
  have hblocks := has.blocks_counts hbs
  have hprocedures := hcs.procedures_counts
  simp only [InProcedureHead, List.count_append] at hblocks ⊢
  omega

/-- A keyword that comes too late for the program belongs to a procedure. -/
theorem Derives.inProcedureHead_of_comesLate (h : Derives (.part .program) (js ++ k :: ls))
    (hlate : ComesLate k js) : InProcedureHead js := by
  have hk : k ∈ [TokenKind.kwConst, .kwVar] := by
    rcases hlate with ⟨rfl, -⟩ | ⟨rfl, -⟩ <;> decide
  obtain ⟨ds, es, heq, hds, hes⟩ := h.program_split
  obtain ⟨as, bs, cs, rfl, has, hbs, hcs⟩ := hds.declarations_split
  have hbody : ∀ k ∈ [TokenKind.kwConst, .kwVar], k ∉ TokenKind.kwProgram :: es := by
    have hes : ∀ k ∈ [TokenKind.kwConst, .kwVar], k ∉ es := hes.landmark_not_mem (by decide)
    intro k hk hmem
    rcases List.mem_cons.1 hmem with rfl | hmem
    · simp at hk
    · exact hes k hk hmem
  rcases append_eq_append_cons heq.symm with ⟨r, hr⟩ | ⟨r, -, hr⟩
  · rcases append_eq_append_cons hr with ⟨r, hr⟩ | ⟨r, rfl, rfl⟩
    · rcases append_eq_append_cons hr with ⟨r, rfl⟩ | ⟨r, rfl, rfl⟩
      · -- the first token of the program
        obtain ⟨rfl, rfl⟩ := has.eq_nil_of_block rfl (by decide) hk
        rcases hlate with ⟨-, hne⟩ | ⟨hvar, -⟩
        · exact absurd rfl hne
        · cases hvar
      · -- the keyword of the variables, behind nothing but constants
        obtain ⟨rfl, rfl⟩ := hbs.eq_nil_of_block rfl (by decide) hk
        have hconstants : ∀ k ∈ [TokenKind.kwVar, .kwProcedure], k ∉ as :=
          has.landmark_not_mem (by decide)
        rw [List.append_nil] at hlate
        rcases hlate with ⟨hconst, -⟩ | ⟨-, hvar | hprocedure⟩
        · cases hconst
        · exact absurd hvar (hconstants _ (by decide))
        · exact absurd hprocedure (hconstants _ (by decide))
    · exact (hcs.inProcedureHead_of_procedures hk).append (has.blocks_counts hbs)
  · exact absurd (by simp [hr]) (hbody k hk)

end

/-- Parts that begin with a keyword are missing where the keyword is. -/
theorem Derives.eq_nil_of_not_mem {n : Nonterminal} {keyword : TokenKind} {xs : List Ebnf}
    {ks : List TokenKind} (hrule : n.rule = .seq (.token keyword :: xs)) {x : Ebnf}
    (h : Derives x ks) (hx : x = .optional (.part n) ∨ x = .repeated (.part n))
    (hnot : keyword ∉ ks) : ks = [] := by
  have hpart : ∀ ks, Derives (.part n) ks → keyword ∈ ks := by
    intro ks h
    cases h with | part h =>
    rw [hrule] at h
    obtain ⟨ms, rfl, -⟩ := h.seq_token
    exact List.mem_cons_self
  rcases hx with rfl | rfl
  · cases h with
    | left h =>
      cases h
      rfl
    | right h => exact absurd (hpart _ h) hnot
  · cases h with
    | stop => rfl
    | again hhead _ => exact absurd (List.mem_append_left _ (hpart _ hhead)) hnot

/-- Behind whole declarations, the keywords of further declarations go on to a program exactly if
they do not come too late. -/
theorem viable_append_iff_not_comesLate {k : TokenKind} {ks : List TokenKind}
    (h : Derives (.seq declarationForms) ks) (hk : k ∈ First.declaration) :
    Viable (.part .program) (ks ++ [k]) ↔ ¬ ComesLate k ks := by
  constructor
  · rintro ⟨more, hmore⟩ hlate
    rw [List.append_assoc] at hmore
    exact h.not_inProcedureHead (hmore.inProcedureHead_of_comesLate hlate)
  · intro hearly
    obtain ⟨as, bs, cs, rfl, has, hbs, hcs⟩ := h.declarations_split
    simp only [First.declaration, List.mem_cons, List.not_mem_nil, or_false] at hk
    rcases hk with rfl | rfl | rfl
    · have hnil : as ++ bs ++ cs = [] := by
        by_contra hne
        exact hearly (.inl ⟨rfl, hne⟩)
      rw [hnil]
      exact Ebnf.viable_of_begins (by decide)
    · have hvar : .kwVar ∉ bs := fun hmem => hearly (.inr ⟨rfl, .inl (by simp [hmem])⟩)
      have hprocedure : .kwProcedure ∉ cs := fun hmem => hearly (.inr ⟨rfl, .inr (by simp [hmem])⟩)
      obtain rfl := hbs.eq_nil_of_not_mem rfl (.inl rfl) hvar
      obtain rfl := hcs.eq_nil_of_not_mem rfl (.inr rfl) hprocedure
      have hrest : Viable (seq ([optional (part .varBlock), repeated (part .procedure)] ++
          token .kwProgram :: programBodyForms)) [.kwVar] := Ebnf.viable_of_begins (by decide)
      rw [List.append_nil, List.append_nil]
      exact .part (hrest.append fun _ => has.next)
    · have hlast : Viable (part .procedure) [.kwProcedure] := Ebnf.viable_of_begins (by decide)
      have hprocedures : Viable (repeated (part .procedure)) (cs ++ [.kwProcedure]) :=
        hlast.append fun _ => hcs.snoc
      have hrest : Viable (seq (repeated (part .procedure) :: token .kwProgram ::
          programBodyForms)) (cs ++ [.kwProcedure]) := hprocedures.andThen (Ebnf.viable_nil rfl)
      rw [List.append_assoc, List.append_assoc]
      exact .part ((hrest.append fun _ => hbs.next).append fun _ => has.next)

end TeachLang
