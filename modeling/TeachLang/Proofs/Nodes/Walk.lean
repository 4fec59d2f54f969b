import Mathlib.Data.List.Basic
import TeachLang.Tree.Outline

/-! # Nodes of a walk

A walk visits a node and then the nodes of its parts in turn, so what it collects from them is
collected from the parts.
-/

namespace TeachLang
namespace Node

/-- What holds of a node that has it from all its parts holds of every node. -/
@[elab_as_elim]
theorem induct {P : Node → Prop} (node : ∀ n : Node, (∀ c ∈ n.children, P c) → P n) : ∀ n, P n
  | ⟨_, _, _, _, children⟩ => node _ fun c _ => induct node c
termination_by n => sizeOf n
decreasing_by
  have hlt : sizeOf c < sizeOf children := List.sizeOf_lt_of_mem ‹_›
  simp only [mk.sizeOf_spec]
  omega

def nodes (n : Node) : List Node := n.walk.map (·.2)

def anchors (n : Node) : List Token := n.nodes.filterMap (·.anchor)

def leafAnchors (n : Node) : List Token :=
  (n.nodes.filter (·.children.isEmpty)).filterMap (·.anchor)

theorem map_walkAll (depth : Nat) (ns : List Node) :
    (walkAll depth ns).map (·.2) = ns.flatMap fun n => (n.walkFrom depth).map (·.2) := by
  induction ns with
  | nil => rfl
  | cons n ns ih => rw [walkAll, List.map_append, ih, List.flatMap_cons]

theorem map_walkFrom_eq (depth : Nat) (n : Node) : (n.walkFrom depth).map (·.2) =
    n :: n.children.flatMap fun c => (c.walkFrom (depth + 1)).map (·.2) := by
  obtain ⟨kind, anchor, slot, value, children⟩ := n
  rw [walkFrom, List.map_cons, map_walkAll]

theorem map_walkFrom (n : Node) (depth : Nat) : (n.walkFrom depth).map (·.2) = n.nodes := by
  induction n using induct generalizing depth with
  | node n ih =>
    rw [nodes, walk, map_walkFrom_eq, map_walkFrom_eq]
    congr 1
    refine List.flatMap_congr fun c hc => ?_
    rw [ih c hc, ih c hc]

theorem nodes_eq (n : Node) : n.nodes = n :: n.children.flatMap nodes := by
  rw [nodes, walk, map_walkFrom_eq]
  simp only [map_walkFrom]

theorem anchors_eq (n : Node) : n.anchors = n.anchor.toList ++ n.children.flatMap anchors := by
  rw [anchors, nodes_eq, List.filterMap_cons, List.filterMap_flatMap]
  cases n.anchor <;> rfl

theorem leafAnchors_of_nil {n : Node} (h : n.children = []) : n.leafAnchors = n.anchor.toList := by
  rw [leafAnchors, nodes_eq, h]
  cases hanchor : n.anchor <;> simp [h, hanchor]

theorem leafAnchors_of_ne_nil {n : Node} (h : n.children ≠ []) :
    n.leafAnchors = n.children.flatMap leafAnchors := by
  rw [leafAnchors, nodes_eq, List.filter_cons_of_neg (by simpa using h), List.filter_flatMap,
    List.filterMap_flatMap]
  rfl

/-- How many nodes of a walk stand for a token. -/
theorem countP_walk (n : Node) (t : Token) :
    n.walk.countP (fun e => e.2.anchor = some t) = n.anchors.count t := by
  rw [anchors, List.count_filterMap, nodes, List.countP_map]
  refine List.countP_congr fun e _ => ?_
  simp

theorem filterMap_walk (n : Node) :
    (n.walk.filter fun e => e.2.children.isEmpty).filterMap (·.2.anchor) = n.leafAnchors := by
  rw [leafAnchors, nodes, List.filter_map, List.filterMap_map]
  rfl

end Node
end TeachLang
