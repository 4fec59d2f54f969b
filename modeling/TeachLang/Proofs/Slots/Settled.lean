import TeachLang.Check.Scope
import TeachLang.Proofs.Check.Rules
import TeachLang.Tree.Outline

/-! # Settled slots

What the type slots of a tree have to be, said of its nodes and of the tables of the whole
program: names and calls are looked up in the tables, and everything else follows from
the slots of the parts.
-/

namespace TeachLang

namespace Tables

/-- The type of the row that a name stands for in a procedure, or outside of all. -/
def typeOf? (T : Tables) (procedure : Option String) (name : String) : Option Ty :=
  (((procedure.bind T.procedures.get?).bind (·.symbols.get? name)).or (T.globals.get? name)).map
    (·.ty)

def returnType? (T : Tables) (name : String) : Option Ty :=
  (T.procedures.get? name).map (·.returnType)

end Tables

namespace Node

/-- The type that belongs into the slot of a node inside of a procedure, or outside of all. -/
def Holds (T : Tables) (procedure : Option String) (n : Node) (ty : Ty) : Prop :=
  match n.kind with
  | .identifier => ∃ token, n.anchor = some token ∧ T.typeOf? procedure token.text = some ty
  | .call => ∃ token, n.anchor = some token ∧ T.returnType? token.text = some ty
  | .listIndex =>
    ∃ target position whole, n.children = [target, position] ∧ target.slot = some whole ∧
      whole.elementType? = some ty
  | .intLiteral => ty = .int
  | .stringLiteral => ty = .string
  | .literalTrue | .literalFalse => ty = .bool
  | .listLiteral =>
    (n.children = [] ∧ ty = .list) ∨
      ∃ element, n.children ≠ [] ∧ (∀ c ∈ n.children, c.slot = some element) ∧
        element.toListType? = some ty
  | .binary op =>
    ∃ lhs rhs a b, n.children = [lhs, rhs] ∧ lhs.slot = some a ∧ rhs.slot = some b ∧
      op.HasTypes a b ty
  | .unary op => ∃ operand a, n.children = [operand] ∧ operand.slot = some a ∧ op.HasTypes a ty
  | .integerType => ty = .int
  | .stringType => ty = .string
  | .booleanType => ty = .bool
  | .listType =>
    ∃ token element, n.anchor = some token ∧ SimpleType.ofKind? token.kind = some element ∧
      ty = element.toListTy
  | .constantDecl =>
    ∃ token value, n.anchor = some token ∧ T.typeOf? procedure token.text = some ty ∧
      n.children = [value] ∧ value.slot = some ty
  | .variableDecl | .parameterDecl =>
    ∃ names type, n.children = names ++ [type] ∧ type.slot = some ty ∧
      ∀ name ∈ names, name.kind = .identifier ∧ name.slot = some ty
  | .procedureDecl =>
    ∃ token parameters type rest, n.anchor = some token ∧ T.returnType? token.text = some ty ∧
      n.children = parameters :: type :: rest ∧ type.slot = some ty
  | .returning =>
    (n.children = [] ∧ ty = .void) ∨ ∃ value, n.children = [value] ∧ value.slot = some ty
  | _ => ty = .void

def inner (n : Node) (procedure : Option String) : Option String :=
  if n.kind = .procedureDecl then n.anchor.map (·.text) else procedure

/-- Every slot from a node on holds the type that belongs there. -/
inductive Settled (T : Tables) : Option String → Node → Prop
  | mk {procedure : Option String} {n : Node} {ty : Ty} (slot : n.slot = some ty)
      (holds : n.Holds T procedure ty) (children : ∀ c ∈ n.children, Settled T (n.inner procedure) c) :
      Settled T procedure n

/-- A node with a given type in its slot, all slots below it settled as well. -/
structure SettledAs (T : Tables) (procedure : Option String) (n : Node) (ty : Ty) : Prop where
  slot : n.slot = some ty
  settled : n.Settled T procedure

theorem Settled.isSome {T : Tables} {procedure : Option String} {n : Node}
    (h : n.Settled T procedure) : n.slot.isSome := by
  cases h with | mk hslot =>
  rw [hslot]
  rfl

/-! What parts take over from the whole holds of every node that a walk reaches. -/

mutual

theorem forall_mem_walkFrom {P : Node → Prop} (hparts : ∀ n, P n → ∀ c ∈ n.children, P c)
    (depth : Nat) (n : Node) (hn : P n) : ∀ e ∈ n.walkFrom depth, P e.2 := by
  obtain ⟨kind, anchor, slot, value, children⟩ := n
  rw [walkFrom]
  refine List.forall_mem_cons.2 ⟨hn, ?_⟩
  exact forall_mem_walkAll hparts (depth + 1) children (hparts _ hn)

theorem forall_mem_walkAll {P : Node → Prop} (hparts : ∀ n, P n → ∀ c ∈ n.children, P c)
    (depth : Nat) (ns : List Node) (hns : ∀ n ∈ ns, P n) : ∀ e ∈ walkAll depth ns, P e.2 := by
  cases ns with
  | nil => simp [walkAll]
  | cons n ns =>
    obtain ⟨hn, hns⟩ := List.forall_mem_cons.1 hns
    rw [walkAll]
    exact List.forall_mem_append.2
      ⟨forall_mem_walkFrom hparts depth n hn, forall_mem_walkAll hparts depth ns hns⟩

end

theorem forall_mem_walk {P : Node → Prop} (hparts : ∀ n, P n → ∀ c ∈ n.children, P c) {n : Node}
    (hn : P n) : ∀ e ∈ n.walk, P e.2 :=
  forall_mem_walkFrom hparts 0 n hn

/-- Every node that a walk reaches has a type. -/
theorem Settled.walk {T : Tables} {procedure : Option String} {n : Node}
    (h : n.Settled T procedure) : ∀ e ∈ n.walk, e.2.slot.isSome := by
  have hparts : ∀ n, (∃ q, Settled T q n) → ∀ c ∈ n.children, ∃ q, Settled T q c := by
    rintro n ⟨q, hq⟩ c hc
    cases hq with | mk _ _ hchildren =>
    exact ⟨_, hchildren c hc⟩
  intro e he
  obtain ⟨q, hq⟩ := forall_mem_walk hparts ⟨procedure, h⟩ e he
  exact hq.isSome

end Node
end TeachLang
