import TeachLang.Proofs.Grammar.Source
import TeachLang.Proofs.Likeness.Tokens
import TeachLang.Proofs.Nodes.Written

/-! # Nodes in the order of the source

A walk through the tree of a source meets every meaningful token once.  The nodes that it visits are
read from runs of the tokens of the source, and the runs of the parts of a node follow one another.
-/

namespace TeachLang

/-- Whether a token ends in its source before another one begins. -/
def Token.Precedes (t u : Token) : Prop :=
  t.span.start < u.span.start ∧ t.span.stop ≤ u.span.start

namespace Node

variable {w : List Token} {n : Node}

/-- All tokens that the nodes of a walk stand for are in the run of the first one. -/
theorem Written.anchors_subset (h : n.Written w) : ∀ t ∈ n.anchors, t ∈ w := by
  induction n using induct generalizing w with
  | node n ih =>
    intro t ht
    rw [anchors_eq, List.mem_append, Option.mem_toList, List.mem_flatMap] at ht
    obtain ⟨hthreaded, hanchor⟩ := h.parted
    rcases ht with ht | ⟨c, hc, ht⟩
    · exact hanchor t ht
    · obtain ⟨v, hv, hinfix⟩ := hthreaded.exists_run hc
      exact hinfix.subset (ih c hc hv t ht)

theorem Written.count_anchors (h : n.Written w) {t : Token}
    (ht : t.kind ∈ TokenKind.meaningful) : n.anchors.count t = w.count t := by
  induction n using induct generalizing w with
  | node n ih =>
    have hcount := h.parted.threaded.count_eq ht fun c hc v hv => ih c hc hv
    have hown : n.own.count t = n.anchor.toList.count t := by
      rw [own, List.count_filter]
      simpa using ht
    rw [anchors_eq, List.count_append, hcount, hown]

theorem Written.leafAnchors_sublist (h : n.Written w) : n.leafAnchors.Sublist w := by
  induction n using induct generalizing w with
  | node n ih =>
    obtain ⟨hthreaded, hanchor⟩ := h.parted
    by_cases hchildren : n.children = []
    · rw [leafAnchors_of_nil hchildren]
      cases heq : n.anchor with
      | none => exact List.nil_sublist w
      | some t => exact List.singleton_sublist.2 (hanchor t heq)
    · rw [leafAnchors_of_ne_nil hchildren]
      exact hthreaded.flatMap_sublist fun c hc v hv => ih c hc hv

/-- Every node of a walk is read from a part of the run of the first one. -/
theorem Written.exists_infix (h : n.Written w) :
    ∀ m ∈ n.nodes, ∃ v, m.Written v ∧ v <:+: w := by
  induction n using induct generalizing w with
  | node n ih =>
    intro m hm
    rw [nodes_eq, List.mem_cons, List.mem_flatMap] at hm
    rcases hm with rfl | ⟨c, hc, hm⟩
    · exact ⟨w, h, List.infix_refl w⟩
    · obtain ⟨v, hv, hinfix⟩ := h.parted.threaded.exists_run hc
      obtain ⟨u, hu, hinfix'⟩ := ih c hc hv m hm
      exact ⟨u, hu, hinfix'.trans hinfix⟩

end Node

/-- The tree of a source keeps every meaningful token once and in order.  Every such token is what
one node of a walk stands for, the tokens of the nodes without parts come in the order of the source,
and so do the runs of tokens that the parts of a node are read from, with the tokens of all nodes
below them. -/
theorem walk_of_parseProgram {source : String} {p : Program}
    (h : (parseProgram source).1 = .ok p) :
    (∀ t ∈ lex source, t.kind ∈ TokenKind.meaningful →
      p.toNode.walk.countP (fun e => e.2.anchor = some t) = 1) ∧
    ((p.toNode.walk.filter fun e => e.2.children.isEmpty).filterMap (·.2.anchor)).Pairwise
      Token.Precedes ∧
    ∀ e ∈ p.toNode.walk, ∃ runs : List (List Token),
      List.Forall₂ (fun v c => c.Written v ∧ v <:+: lex source ∧
        ∀ below ∈ c.walk, ∀ t ∈ below.2.anchor, t ∈ v) runs e.2.children ∧
      runs.Pairwise fun v w => ∀ t ∈ v, ∀ u ∈ w, t.Precedes u := by
  have hwritten : Node.Written (lex source) p.toNode :=
    .program ((parseProgram_eq_ok_iff source p).1 h)
  have hordered : (lex source).Pairwise Token.Precedes := (tiles_lex source).pairwise
  refine ⟨fun t ht hkept => ?_, ?_, fun e he => ?_⟩
  · rw [Node.countP_walk, hwritten.count_anchors hkept]
    exact List.count_eq_one_of_mem (nodup_lex source) ht
  · rw [Node.filterMap_walk]
    exact hordered.sublist hwritten.leafAnchors_sublist
  · obtain ⟨w, hw, hinfix⟩ := hwritten.exists_infix e.2 (List.mem_map_of_mem he)
    obtain ⟨runs, hruns, hsub⟩ := hw.parted.threaded.exists_runs
    refine ⟨runs, hruns.imp ?_,
      (List.pairwise_flatten.1 (hordered.sublist (hsub.trans hinfix.sublist))).2⟩
    rintro v c ⟨hc, hpart⟩
    refine ⟨hc, hpart.trans hinfix, fun below hbelow t ht => ?_⟩
    exact hc.anchors_subset t (List.mem_filterMap.2 ⟨below.2, List.mem_map_of_mem hbelow, ht⟩)

/-- Branches, an indexed list and operators in parentheses. -/
theorem walk_of_parseProgram_branches :
    let source := "program if a then b := ({1} + -c)[0]; elseif d() then exit; else return; end; end;"
    ∃ p, (parseProgram source).1 = .ok p ∧
      (∀ t ∈ lex source, t.kind ∈ TokenKind.meaningful →
        p.toNode.walk.countP (fun e => e.2.anchor = some t) = 1) ∧
      ((p.toNode.walk.filter fun e => e.2.children.isEmpty).filterMap (·.2.anchor)).Pairwise
        Token.Precedes ∧
      ∀ e ∈ p.toNode.walk, ∃ runs : List (List Token),
        List.Forall₂ (fun v c => c.Written v ∧ v <:+: lex source ∧
          ∀ below ∈ c.walk, ∀ t ∈ below.2.anchor, t ∈ v) runs e.2.children ∧
        runs.Pairwise fun v w => ∀ t ∈ v, ∀ u ∈ w, t.Precedes u := by
  intro source
  have haccepted : (parseProgram source).1.isOk = true := by decide +kernel
  cases h : (parseProgram source).1 with
  | error e =>
    rw [h] at haccepted
    cases haccepted
  | ok p => exact ⟨p, rfl, walk_of_parseProgram h⟩

end TeachLang
