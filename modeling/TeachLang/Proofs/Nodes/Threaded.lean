import Mathlib.Data.List.Forall2
import TeachLang.Grammar.First
import TeachLang.Proofs.Grammar.Repetition
import TeachLang.Proofs.Nodes.Walk

/-! # Threaded nodes

A run of tokens that a row of nodes is threaded on holds the runs of these nodes in their order,
and other tokens in front of them, between them and behind them.
-/

namespace TeachLang

/-- The kinds of tokens that a tree keeps: names, literals, operators, and the words that begin
statements and branches. -/
def TokenKind.meaningful : List TokenKind :=
  [.identifier, .intLiteral, .stringLiteral, .kwTrue, .kwFalse] ++ First.logicOperator ++
    First.relationalOperator ++ First.sumOperator ++ First.mulOperator ++ First.unaryOperator ++
    [.kwIf, .kwElseif, .kwElse, .kwLoop, .kwFor, .kwReturn, .kwExit]

/-- Nodes in their order on a run of tokens, where `R` tells which run each of them has.  The
meaningful tokens outside of these runs are the own ones. -/
inductive Threaded (R : Writing Node) : List Token → Writing (List Node)
  | nil : Threaded R [] [] []
  | skip {t : Token} {kind : TokenKind} {own w : List Token} {cs : List Node}
      (kind_eq : t.kind = kind) (plain : kind ∉ TokenKind.meaningful)
      (rest : Threaded R own w cs) : Threaded R own (t :: w) cs
  | own {t : Token} {kind : TokenKind} {own w : List Token} {cs : List Node}
      (kind_eq : t.kind = kind) (kept : kind ∈ TokenKind.meaningful)
      (rest : Threaded R own w cs) : Threaded R (t :: own) (t :: w) cs
  | part {own v w : List Token} {c : Node} {cs : List Node} (part_ok : R v c)
      (rest : Threaded R own w cs) : Threaded R own (v ++ w) (c :: cs)

namespace Threaded

variable {α : Type} {R : Writing Node} {S : Writing α} {f : α → Node} {own v w : List Token}
  {cs : List Node}

theorem append {own' w' : List Token} {cs' : List Node} (h : Threaded R own w cs)
    (h' : Threaded R own' w' cs') : Threaded R (own ++ own') (w ++ w') (cs ++ cs') := by
  induction h with
  | nil => exact h'
  | skip hkind hplain _ ih => exact .skip hkind hplain ih
  | own hkind hkept _ ih => exact .own hkind hkept ih
  | part hpart _ ih =>
    rw [List.append_assoc]
    exact .part hpart ih

theorem single {c : Node} (h : R w c) : Threaded R [] w [c] := by
  simpa using part h .nil

/-- One more token that is not kept, behind the rest. -/
theorem concat {t : Token} {kind : TokenKind} (h : Threaded R own w cs) (hkind : t.kind = kind)
    (hplain : kind ∉ TokenKind.meaningful) : Threaded R own (w ++ [t]) cs := by
  simpa using h.append (.skip hkind hplain .nil)

theorem repeated {as : List α} (h : Repeated S w as)
    (hS : ∀ v a, S v a → Threaded R [] v [f a]) : Threaded R [] w (as.map f) := by
  induction h with
  | nil => exact .nil
  | cons hhead _ ih => exact (hS _ _ hhead).append ih

theorem commas {as : List α} (h : Repeated (After .comma S) w as) (hS : ∀ v a, S v a → R v (f a)) :
    Threaded R [] w (as.map f) := by
  refine repeated h fun v a hafter => ?_
  cases hafter with | mk hkind hitem =>
  exact .skip hkind (by decide) (single (hS _ _ hitem))

theorem separated {as : List α} (h : Separated S w as) (hS : ∀ v a, S v a → R v (f a)) :
    Threaded R [] w (as.map f) := by
  cases h with
  | nil => exact .nil
  | cons hhead htail => exact .part (hS _ _ hhead) (commas htail hS)

theorem optional {o : Option α} (h : Optional S w o) (hS : ∀ v a, S v a → R v (f a)) :
    Threaded R [] w (o.map f).toList := by
  cases h with
  | none => exact .nil
  | some hitem => exact single (hS _ _ hitem)

theorem exists_run {c : Node} (h : Threaded R own w cs) (hc : c ∈ cs) :
    ∃ v, R v c ∧ v <:+: w := by
  induction h with
  | nil => cases hc
  | skip _ _ _ ih =>
    obtain ⟨v, hv, hinfix⟩ := ih hc
    exact ⟨v, hv, List.infix_cons hinfix⟩
  | own _ _ _ ih =>
    obtain ⟨v, hv, hinfix⟩ := ih hc
    exact ⟨v, hv, List.infix_cons hinfix⟩
  | part hpart _ ih =>
    rcases List.mem_cons.1 hc with rfl | hc
    · exact ⟨_, hpart, (List.prefix_append _ _).isInfix⟩
    · obtain ⟨v, hv, hinfix⟩ := ih hc
      exact ⟨v, hv, hinfix.trans (List.suffix_append _ _).isInfix⟩

/-- The runs of the nodes follow one another. -/
theorem exists_runs (h : Threaded R own w cs) : ∃ runs : List (List Token),
    List.Forall₂ (fun v c => R v c ∧ v <:+: w) runs cs ∧ runs.flatten.Sublist w := by
  induction h with
  | nil => exact ⟨[], .nil, .slnil⟩
  | skip _ _ _ ih =>
    obtain ⟨runs, hruns, hsub⟩ := ih
    exact ⟨runs, hruns.imp fun _ _ hv => ⟨hv.1, List.infix_cons hv.2⟩, hsub.cons _⟩
  | own _ _ _ ih =>
    obtain ⟨runs, hruns, hsub⟩ := ih
    exact ⟨runs, hruns.imp fun _ _ hv => ⟨hv.1, List.infix_cons hv.2⟩, hsub.cons _⟩
  | @part own v w c cs hpart _ ih =>
    obtain ⟨runs, hruns, hsub⟩ := ih
    refine ⟨v :: runs, .cons ⟨hpart, (List.prefix_append v w).isInfix⟩ (hruns.imp fun _ _ hu => ?_),
      (List.Sublist.refl v).append hsub⟩
    exact ⟨hu.1, hu.2.trans (List.suffix_append v w).isInfix⟩

/-- What comes from the run of each node comes from the whole run in the same order. -/
theorem flatMap_sublist {g : Node → List Token} (h : Threaded R own w cs)
    (hg : ∀ c ∈ cs, ∀ v, R v c → (g c).Sublist v) : (cs.flatMap g).Sublist w := by
  induction h with
  | nil => exact .slnil
  | skip _ _ _ ih => exact (ih hg).cons _
  | own _ _ _ ih => exact (ih hg).cons _
  | part hpart _ ih =>
    obtain ⟨hc, hcs⟩ := List.forall_mem_cons.1 hg
    exact (hc _ hpart).append (ih hcs)

/-- A meaningful token of the whole run is one of the own ones or belongs to one of the nodes. -/
theorem count_eq {g : Node → List Token} {t : Token} (h : Threaded R own w cs)
    (ht : t.kind ∈ TokenKind.meaningful)
    (hg : ∀ c ∈ cs, ∀ v, R v c → (g c).count t = v.count t) :
    w.count t = own.count t + (cs.flatMap g).count t := by
  induction h with
  | nil => rfl
  | skip hkind hplain _ ih =>
    rw [List.count_cons_of_ne, ih hg]
    rintro rfl
    exact hplain (hkind ▸ ht)
  | own _ _ _ ih =>
    rw [List.count_cons, List.count_cons, ih hg]
    omega
  | part hpart _ ih =>
    obtain ⟨hc, hcs⟩ := List.forall_mem_cons.1 hg
    rw [List.flatMap_cons, List.count_append, List.count_append, hc _ hpart, ih hcs]
    omega

end Threaded
end TeachLang
