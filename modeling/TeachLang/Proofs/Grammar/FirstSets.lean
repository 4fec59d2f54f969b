import TeachLang.Proofs.Grammar.Part

/-! # First sets

A kind is in the first set of a part of the grammar exactly if a sentence of the documented grammar
begins with it.  The first sets of the parts that have a rule are closed under the rules, so that
nothing else begins a sentence.
-/

namespace TeachLang

def Nonterminal.first : Nonterminal → List TokenKind
  | program => First.program
  | constBlock => First.constantList
  | varBlock => First.variableList
  | procedure => First.procedure
  | binding => First.name
  | type => First.type
  | simpleType => First.simpleType
  | constantValue => First.constantValue
  | simpleLiteral => First.simpleLiteral
  | statement => First.statement
  | expr | rel | sum | mul | unary => First.expr
  | primary | atom => First.primary

/-- Whether a kind begins a form, by the first sets of the parts of the grammar. -/
def Ebnf.firstHas (x : Ebnf) (kind : TokenKind) : Bool :=
  x.startsWith kind fun n => n.first.contains kind

theorem Nonterminal.mem_first_of_rule {n : Nonterminal} {kind : TokenKind}
    (h : n.rule.firstHas kind) : kind ∈ n.first := by
  have hclosed : ∀ kind ∈ TokenKind.all, n.rule.firstHas kind → kind ∈ n.first := by
    cases n <;> decide
  exact hclosed kind kind.mem_all h

namespace Derives

variable {x : Ebnf} {ks : List TokenKind}

theorem nullable (h : Derives x []) : x.nullable := by
  by_contra hx
  exact h.ne_nil (by simpa using hx) rfl

theorem productive (h : Derives x ks) : x.productive := by
  induction h with
  | empty | part _ _ | stop | again _ _ _ _ => rfl
  | @oneOf kinds k hmem =>
    cases kinds with
    | nil => cases hmem
    | cons k kinds => rfl
  | andThen _ _ ihl ihr => exact Bool.and_eq_true_iff.2 ⟨ihl, ihr⟩
  | left _ ih => exact Bool.or_eq_true_iff.2 (.inl ih)
  | right _ ih => exact Bool.or_eq_true_iff.2 (.inr ih)

/-- The first kind of a sentence begins the form. -/
theorem firstHas {kind : TokenKind} (h : Derives x (kind :: ks)) : x.firstHas kind := by
  generalize hjs : kind :: ks = js at h
  induction h generalizing ks with
  | empty | stop => cases hjs
  | oneOf hmem =>
    cases hjs
    exact List.contains_iff_mem.2 hmem
  | part _ ih => exact List.contains_iff_mem.2 (Nonterminal.mem_first_of_rule (ih hjs))
  | @andThen x y ls ms hl hr ihl ihr =>
    cases ls with
    | nil =>
      exact Bool.or_eq_true_iff.2 (.inr (Bool.and_eq_true_iff.2 ⟨hl.nullable, ihr hjs⟩))
    | cons k ls =>
      obtain ⟨rfl, -⟩ := List.cons.inj hjs
      exact Bool.or_eq_true_iff.2 (.inl (Bool.and_eq_true_iff.2 ⟨ihl rfl, hr.productive⟩))
  | left _ ih => exact Bool.or_eq_true_iff.2 (.inl (ih hjs))
  | right _ ih => exact Bool.or_eq_true_iff.2 (.inr (ih hjs))
  | @again x ls ms hhead htail ihl ihr =>
    cases ls with
    | nil => exact ihr hjs
    | cons k ls =>
      obtain ⟨rfl, -⟩ := List.cons.inj hjs
      exact ihl rfl

end Derives

theorem Ebnf.viable_singleton_iff {x : Ebnf} {kind : TokenKind} :
    Viable x [kind] ↔ x.firstHas kind := by
  constructor
  · rintro ⟨more, hmore⟩
    exact hmore.firstHas
  · refine viable_of_startsWith fun n hn => viable_of_begins ?_
    have hbegins : ∀ kind ∈ n.first, (Ebnf.part n).begins kind := by cases n <;> decide
    exact hbegins kind (List.contains_iff_mem.1 hn)

/-- The first set of a part holds the kinds that its sentences begin with and no other. -/
theorem Part.mem_first_iff {α : Type} (part : Part α) (kind : TokenKind) :
    kind ∈ part.production.first ↔ Viable part.form [kind] := by
  have hfirst : ∀ kind ∈ TokenKind.all, kind ∈ part.production.first ↔ part.form.firstHas kind := by
    cases part <;> decide
  rw [Ebnf.viable_singleton_iff, hfirst kind kind.mem_all]

end TeachLang
