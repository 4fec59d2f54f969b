import TeachLang.Text.Quoted
import TeachLang.Tree.Node

/-! # Outline

The nodes of a tree in the order of their first appearance, and the printed outline with one
line for each, indented by two spaces a level.
-/

namespace TeachLang
namespace Node

mutual

/-- A node and all its parts, each before its own parts, with their depth below `depth`. -/
def walkFrom (depth : Nat) : Node → List (Nat × Node)
  | n@⟨_, _, _, _, children⟩ => (depth, n) :: walkAll (depth + 1) children

def walkAll (depth : Nat) : List Node → List (Nat × Node)
  | [] => []
  | n :: ns => walkFrom depth n ++ walkAll depth ns

end

/-- A node and all its parts, each before its own parts, with their depth. -/
def walk (n : Node) : List (Nat × Node) := n.walkFrom 0

def lexeme? (n : Node) : Option String := n.anchor.bind Token.lexeme?

/-- A node on one line: its kind, its lexeme in quotes, and its type. -/
def describe (n : Node) : String :=
  n.kind.name
    ++ (match n.lexeme? with
      | some lexeme => " " ++ quoted lexeme
      | none => "")
    ++ (match n.slot with
      | some ty => " : " ++ ty.name
      | none => "")

def outline (n : Node) : String :=
  String.join (n.walk.map fun (depth, m) => "".pushn ' ' (2 * depth) ++ m.describe ++ "\n")

def untypedCount (n : Node) : Nat := n.walk.countP fun (_, m) => m.slot.isNone

end Node

def Program.outline (p : Program) : String := p.toNode.outline

end TeachLang
