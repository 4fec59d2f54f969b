import TeachLang.Check.Statement
import TeachLang.Proofs.Slots.Settled

/-! # Slots from the leaves up

A check sets the slot of a node when it is through with all parts of the node.  Where a check stops,
what it leaves is bottom up: no slot is set before all slots below it are.
-/

namespace TeachLang
namespace Node

/-- Every slot from a node on is set. -/
inductive Filled : Node → Prop
  | mk {n : Node} (slot : n.slot.isSome) (children : ∀ c ∈ n.children, c.Filled) : n.Filled

/-- From a node on, no slot is set before all slots below it are. -/
inductive BottomUp : Node → Prop
  | mk {n : Node} (filled : n.slot.isSome → ∀ c ∈ n.children, c.Filled)
      (children : ∀ c ∈ n.children, c.BottomUp) : n.BottomUp

def AllFilled (ns : List Node) : Prop := ∀ n ∈ ns, n.Filled

def AllBottomUp (ns : List Node) : Prop := ∀ n ∈ ns, n.BottomUp

@[simp]
theorem filled_mk {kind : NodeKind} {anchor : Option Token} {slot : Slot}
    {value : Option LiteralValue} {children : List Node} :
    (⟨kind, anchor, slot, value, children⟩ : Node).Filled ↔
      slot.isSome ∧ AllFilled children := by
  constructor
  · rintro ⟨hslot, hchildren⟩
    exact ⟨hslot, hchildren⟩
  · rintro ⟨hslot, hchildren⟩
    exact .mk hslot hchildren

@[simp]
theorem allFilled_nil : AllFilled [] := by simp [AllFilled]

@[simp]
theorem allFilled_cons {n : Node} {ns : List Node} :
    AllFilled (n :: ns) ↔ n.Filled ∧ AllFilled ns := by
  simp [AllFilled]

@[simp]
theorem allFilled_append {ns ns' : List Node} :
    AllFilled (ns ++ ns') ↔ AllFilled ns ∧ AllFilled ns' := by
  simp [AllFilled, or_imp, forall_and]

/-- A node with an empty slot is bottom up if its parts are. -/
@[simp]
theorem bottomUp_mk_none {kind : NodeKind} {anchor : Option Token} {value : Option LiteralValue}
    {children : List Node} :
    (⟨kind, anchor, none, value, children⟩ : Node).BottomUp ↔ AllBottomUp children := by
  constructor
  · rintro ⟨-, hchildren⟩
    exact hchildren
  · intro hchildren
    exact .mk (by simp) hchildren

@[simp]
theorem allBottomUp_nil : AllBottomUp [] := by simp [AllBottomUp]

@[simp]
theorem allBottomUp_cons {n : Node} {ns : List Node} :
    AllBottomUp (n :: ns) ↔ n.BottomUp ∧ AllBottomUp ns := by
  simp [AllBottomUp]

@[simp]
theorem allBottomUp_append {ns ns' : List Node} :
    AllBottomUp (ns ++ ns') ↔ AllBottomUp ns ∧ AllBottomUp ns' := by
  simp [AllBottomUp, or_imp, forall_and]

theorem Filled.bottomUp {n : Node} (h : n.Filled) : n.BottomUp := by
  induction h with
  | mk slot children ih => exact .mk (fun _ => children) ih

/-- All slots that a walk reaches from a filled node are set. -/
theorem Filled.walk {n : Node} (h : n.Filled) : ∀ e ∈ n.walk, e.2.slot.isSome := by
  have hparts : ∀ n : Node, n.Filled → ∀ c ∈ n.children, c.Filled := by
    rintro n ⟨-, hchildren⟩
    exact hchildren
  intro e he
  obtain ⟨hslot, -⟩ := forall_mem_walk hparts h e he
  exact hslot

/-- If the slot of a node is set, then so are the slots of all nodes that a walk reaches from it. -/
theorem BottomUp.walk {n : Node} (h : n.BottomUp) :
    ∀ e ∈ n.walk, e.2.slot.isSome → ∀ d ∈ e.2.walk, d.2.slot.isSome := by
  have hparts : ∀ n : Node, n.BottomUp → ∀ c ∈ n.children, c.BottomUp := by
    rintro n ⟨-, hchildren⟩
    exact hchildren
  intro e he hslot
  obtain ⟨hfilled, -⟩ := forall_mem_walk hparts h e he
  exact (Filled.mk hslot (hfilled hslot)).walk

/-- Slots have been set in nodes, and none was set too early: what was filled is still filled, and
what was bottom up still is. -/
structure Ripens (ns ns' : List Node) : Prop where
  filled : AllFilled ns → AllFilled ns'
  bottomUp : AllBottomUp ns → AllBottomUp ns'

namespace Ripens

variable {n n' : Node} {ns ns' ms ms' : List Node}

theorem refl (ns : List Node) : Ripens ns ns := ⟨id, id⟩

theorem trans (h : Ripens ns ns') (h' : Ripens ns' ms) : Ripens ns ms :=
  ⟨h'.filled ∘ h.filled, h'.bottomUp ∘ h.bottomUp⟩

theorem of_filled (h : AllFilled ns') : Ripens ns ns' :=
  ⟨fun _ => h, fun _ n hn => (h n hn).bottomUp⟩

theorem append (h : Ripens ns ns') (h' : Ripens ms ms') : Ripens (ns ++ ms) (ns' ++ ms') where
  filled := by
    simp only [allFilled_append]
    exact And.imp h.filled h'.filled
  bottomUp := by
    simp only [allBottomUp_append]
    exact And.imp h.bottomUp h'.bottomUp

theorem cons (h : Ripens [n] [n']) (h' : Ripens ns ns') : Ripens (n :: ns) (n' :: ns') :=
  h.append h'

/-- The parts of a node have slots set, the node itself has not. -/
theorem node (hslot : n'.slot = n.slot) (h : Ripens n.children n'.children) :
    Ripens [n] [n'] where
  filled hall := by
    obtain ⟨hn, hchildren⟩ := hall n (List.mem_singleton_self n)
    rw [allFilled_cons]
    exact ⟨.mk (hslot ▸ hn) (h.filled hchildren), allFilled_nil⟩
  bottomUp hall := by
    obtain ⟨hfilled, hchildren⟩ := hall n (List.mem_singleton_self n)
    refine List.forall_mem_singleton.2 (.mk (fun hn => ?_) (h.bottomUp hchildren))
    exact h.filled (hfilled (hslot ▸ hn))

end Ripens
end Node

open Node

/-- What a check that reads the tables does to the slots of the nodes of a tree: it fills them all,
or it stops with none of them set too early. -/
inductive Fills {α β : Type} (nodes : α → List Node) (a : α) : Checked α β → Prop
  | ok {a' : α} (filled : AllFilled (nodes a')) (b : β) : Fills nodes a (a', .ok b)
  | error {a' : α} (ripens : Ripens (nodes a) (nodes a')) (e : SemanticError) :
      Fills nodes a (a', .error e)

/-- The same of a check that declares names. -/
inductive VisitFills {α : Type} (nodes : α → List Node) (a : α) : Visited α → Prop
  | ok {a' : α} (filled : AllFilled (nodes a')) (t : Tables) : VisitFills nodes a (a', t, .ok ())
  | error {a' : α} (ripens : Ripens (nodes a) (nodes a')) (t : Tables) (e : SemanticError) :
      VisitFills nodes a (a', t, .error e)

end TeachLang
