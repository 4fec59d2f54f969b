import TeachLang.Proofs.Nodes.Walk
import TeachLang.Proofs.Outline.Line

/-! # Sketches

A tree of labels without anything else.  The depths of a walk tell where the parts of a node end,
so that the labels of a walk with their depths make up one tree only.
-/

namespace TeachLang

inductive Sketch where
  | mk (label : Label) (parts : List Sketch)

namespace Node

mutual

/-- The labels of a node and of all its parts. -/
def sketch : Node → Sketch
  | ⟨kind, anchor, slot, _, children⟩ =>
    .mk ⟨kind, anchor.bind Token.lexeme?, slot⟩ (sketches children)

def sketches : List Node → List Sketch
  | [] => []
  | n :: ns => n.sketch :: sketches ns

end

theorem sketches_eq_map (ns : List Node) : sketches ns = ns.map sketch := by
  induction ns with
  | nil => rfl
  | cons n ns ih => rw [sketches, ih, List.map_cons]

def shown (walk : List (Nat × Node)) : List (Nat × Label) := walk.map fun e => (e.1, e.2.label)

theorem shown_append (v w : List (Nat × Node)) : shown (v ++ w) = shown v ++ shown w :=
  List.map_append

/-- The walk through some nodes begins at their depth. -/
theorem exists_shown_walkAll_cons (depth : Nat) (n : Node) (ns : List Node) :
    ∃ label rest, shown (walkAll depth (n :: ns)) = (depth, label) :: rest := by
  obtain ⟨kind, anchor, slot, value, children⟩ := n
  exact ⟨_, _, rfl⟩

section

variable {depth : Nat} {x : List (Nat × Label)}

theorem head?_shown_walkAll (ns : List Node) (hx : ∀ e ∈ x.head?, e.1 < depth) :
    ∀ e ∈ (shown (walkAll depth ns) ++ x).head?, e.1 ≤ depth := by
  cases ns with
  | nil => exact fun e he => Nat.le_of_lt (hx e he)
  | cons n ns =>
    obtain ⟨label, rest, hshown⟩ := exists_shown_walkAll_cons depth n ns
    simp [hshown]

theorem ne_shown_walkAll_cons (hx : ∀ e ∈ x.head?, e.1 < depth) (n : Node) (ns : List Node)
    (y : List (Nat × Label)) : x ≠ shown (walkAll depth (n :: ns)) ++ y := by
  rintro rfl
  obtain ⟨label, rest, hshown⟩ := exists_shown_walkAll_cons depth n ns
  simp [hshown] at hx

end

mutual

theorem sketch_of_shown (m n : Node) (depth : Nat) {x y : List (Nat × Label)}
    (hx : ∀ e ∈ x.head?, e.1 ≤ depth) (hy : ∀ e ∈ y.head?, e.1 ≤ depth)
    (h : shown (m.walkFrom depth) ++ x = shown (n.walkFrom depth) ++ y) :
    m.sketch = n.sketch ∧ x = y := by
  obtain ⟨kind, anchor, slot, value, children⟩ := m
  obtain ⟨kind', anchor', slot', value', children'⟩ := n
  rw [walkFrom, walkFrom] at h
  obtain ⟨hroot, hrest⟩ := List.cons.inj h
  obtain ⟨hparts, hxy⟩ := sketches_of_shown children children' (depth + 1)
    (fun e he => Nat.lt_succ_of_le (hx e he)) (fun e he => Nat.lt_succ_of_le (hy e he)) hrest
  have hlabel := (Prod.mk.inj hroot).2
  rw [label, lexeme?, label, lexeme?] at hlabel
  rw [sketch, sketch, hparts]
  exact ⟨congrArg (Sketch.mk · _) hlabel, hxy⟩

theorem sketches_of_shown (ms ns : List Node) (depth : Nat) {x y : List (Nat × Label)}
    (hx : ∀ e ∈ x.head?, e.1 < depth) (hy : ∀ e ∈ y.head?, e.1 < depth)
    (h : shown (walkAll depth ms) ++ x = shown (walkAll depth ns) ++ y) :
    sketches ms = sketches ns ∧ x = y := by
  cases ms with
  | nil =>
    cases ns with
    | nil => exact ⟨rfl, h⟩
    | cons n ns => exact absurd h (ne_shown_walkAll_cons hx n ns y)
  | cons m ms =>
    cases ns with
    | nil => exact absurd h.symm (ne_shown_walkAll_cons hy m ms x)
    | cons n ns =>
      rw [walkAll, walkAll, shown_append, shown_append, List.append_assoc, List.append_assoc] at h
      obtain ⟨hnode, hrest⟩ := sketch_of_shown m n depth (head?_shown_walkAll ms hx)
        (head?_shown_walkAll ns hy) h
      obtain ⟨hnodes, hxy⟩ := sketches_of_shown ms ns depth hx hy hrest
      rw [sketches, sketches, hnode, hnodes]
      exact ⟨rfl, hxy⟩

end

/-- Equal outlines come from trees with the same labels. -/
theorem sketch_of_outline {m n : Node} (h : m.outline = n.outline) : m.sketch = n.sketch := by
  have hshown : shown m.walk ++ [] = shown n.walk ++ [] :=
    congrArg (· ++ []) (map_walk_of_outline h)
  exact (sketch_of_shown m n 0 (by simp) (by simp) hshown).1

end Node
end TeachLang
