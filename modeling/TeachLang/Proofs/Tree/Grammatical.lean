import TeachLang.Grammar.Expr
import TeachLang.Proofs.Token.Spelling
import TeachLang.Tree.Declaration

/-! # Grammatical trees

The trees that the grammar can write: every token has the kind that its place asks for
and a text that its kind admits, every literal has the value that its token denotes,
and no list of the grammar that needs an item is empty.  Type slots do not matter.
-/

namespace TeachLang

/-- A token of a given kind, with a text that the kind admits. -/
def Token.Writes (t : Token) (kind : TokenKind) : Prop :=
  t.kind = kind ∧ kind.Admits t.text.toList

/-- The text of an integer literal that its kind admits can be converted. -/
theorem Token.isLegible_of_admits {t : Token}
    (h : t.kind = .intLiteral → t.kind.Admits t.text.toList) : t.isLegible := by
  by_cases hkind : t.kind = .intLiteral
  · have hadmits := h hkind
    rw [hkind] at hadmits
    obtain ⟨hne, hdigits⟩ := hadmits
    simp only [isLegible, Bool.or_eq_true, Bool.and_eq_true, List.all_eq_true,
      Bool.not_eq_true', List.isEmpty_eq_false_iff]
    exact .inr ⟨hne, hdigits⟩
  · simp [isLegible, hkind]

theorem Token.Writes.isLegible {t : Token} {kind : TokenKind} (h : t.Writes kind) : t.isLegible :=
  isLegible_of_admits fun _ => by
    rw [h.1]
    exact h.2

def SimpleType.kind : SimpleType → TokenKind
  | integer => .kwInteger
  | string => .kwString
  | boolean => .kwBoolean

theorem SimpleType.ofKind?_eq_some_iff (k : TokenKind) (s : SimpleType) :
    ofKind? k = some s ↔ k = s.kind := by
  cases s <;> cases k <;> decide

def Identifier.Grammatical (i : Identifier) : Prop := i.token.Writes .identifier

def Literal.Grammatical (l : Literal) : Prop :=
  (∃ kind ∈ First.simpleLiteral, l.token.Writes kind) ∧ l.value = .ofToken l.token

def ListLiteral.Grammatical (l : ListLiteral) : Prop :=
  (∃ kind ∈ First.listLiteral, l.opening.Writes kind) ∧ ∀ e ∈ l.elements, e.Grammatical

mutual

def Expr.Grammatical : Expr → Prop
  | .name i => i.Grammatical
  | .call callee args _ => callee.Writes .identifier ∧ Expr.AllGrammatical args
  | .index target opening position _ =>
    target.Grammatical ∧ opening.Writes .bracketOpen ∧ position.Grammatical
  | .literal l => l.Grammatical
  | .list l => l.Grammatical
  | .binary op symbol lhs rhs _ => symbol.Writes op.kind ∧ lhs.Grammatical ∧ rhs.Grammatical
  | .unary op symbol operand _ => symbol.Writes op.kind ∧ operand.Grammatical

def Expr.AllGrammatical : List Expr → Prop
  | [] => True
  | e :: es => e.Grammatical ∧ Expr.AllGrammatical es

end

def Expr.IsName (e : Expr) : Prop := ∃ i, e = .name i

def Target.Grammatical : Target → Prop
  | .name i => i.Grammatical
  | .element base opening position _ =>
    base.IsName ∧ base.Grammatical ∧ opening.Writes .bracketOpen ∧ position.Grammatical

mutual

def Statement.Grammatical : Statement → Prop
  | .assignment target symbol value _ =>
    target.Grammatical ∧ symbol.Writes .colonEqual ∧ value.Grammatical
  | .call callee args _ => callee.Writes .identifier ∧ Expr.AllGrammatical args
  | .conditional keyword condition body elseIfs _ otherwise _ =>
    keyword.Writes .kwIf ∧ condition.Grammatical ∧ body.Grammatical ∧ elseIfs.Grammatical ∧
      otherwise.Grammatical
  | .loop keyword body _ => keyword.Writes .kwLoop ∧ body.Grammatical
  | .forEach keyword item iterable body _ =>
    keyword.Writes .kwFor ∧ item.Grammatical ∧ iterable.Grammatical ∧ body.Grammatical
  | .returning keyword value _ => keyword.Writes .kwReturn ∧ ∀ e ∈ value, e.Grammatical
  | .exit keyword _ => keyword.Writes .kwExit

def Block.Grammatical : Block → Prop
  | .mk statements _ => Statement.AllGrammatical statements

def Statement.AllGrammatical : List Statement → Prop
  | [] => True
  | s :: ss => s.Grammatical ∧ Statement.AllGrammatical ss

def ElseIfs.Grammatical : ElseIfs → Prop
  | .nil => True
  | .cons keyword condition body _ rest =>
    keyword.Writes .kwElseif ∧ condition.Grammatical ∧ body.Grammatical ∧ rest.Grammatical

def Else.Grammatical : Else → Prop
  | .absent => True
  | .present keyword body _ => keyword.Writes .kwElse ∧ body.Grammatical

end

def TypeExpr.Grammatical : TypeExpr → Prop
  | .simple token s _ => token.Writes s.kind
  | .list keyword token element _ => keyword.Writes .kwList ∧ token.Writes element.kind
  | .void _ => True

def TypeExpr.IsWritten : TypeExpr → Prop
  | .void _ => False
  | _ => True

def ConstantValue.Grammatical : ConstantValue → Prop
  | .simple l => l.Grammatical
  | .list l => l.Grammatical ∧ l.opening.kind = .curlyOpen

def ConstantDecl.Grammatical (d : ConstantDecl) : Prop :=
  d.name.Writes .identifier ∧ d.value.Grammatical

structure ConstantList.Grammatical (l : ConstantList) : Prop where
  keyword : l.keyword.Writes .kwConst
  nonempty : l.declarations ≠ []
  declarations : ∀ d ∈ l.declarations, d.Grammatical

structure BindingDecl.Grammatical (d : BindingDecl) : Prop where
  nonempty : d.names ≠ []
  names : ∀ i ∈ d.names, i.Grammatical
  type : d.type.Grammatical
  written : d.type.IsWritten

structure VariableList.Grammatical (l : VariableList) : Prop where
  keyword : l.keyword.Writes .kwVar
  nonempty : l.declarations ≠ []
  declarations : ∀ d ∈ l.declarations, d.Grammatical

structure ProcedureDecl.Grammatical (d : ProcedureDecl) : Prop where
  keyword : d.keyword.Writes .kwProcedure
  name : d.name.Writes .identifier
  parameters : ∀ b ∈ d.parameters.declarations, b.Grammatical
  returnType : d.returnType.Grammatical
  constants : ∀ l ∈ d.constants, l.Grammatical
  vars : ∀ l ∈ d.vars, l.Grammatical
  body : d.body.Grammatical

structure Program.Grammatical (p : Program) : Prop where
  keyword : p.keyword.Writes .kwProgram
  constants : ∀ l ∈ p.constants, l.Grammatical
  vars : ∀ l ∈ p.vars, l.Grammatical
  procedures : ∀ d ∈ p.procedures.procedures, d.Grammatical
  statements : p.statements.Grammatical

theorem Expr.allGrammatical_iff (es : List Expr) :
    Expr.AllGrammatical es ↔ ∀ e ∈ es, e.Grammatical := by
  induction es with
  | nil => simp [AllGrammatical]
  | cons e es ih => simp [AllGrammatical, ih]

theorem Statement.allGrammatical_iff (ss : List Statement) :
    Statement.AllGrammatical ss ↔ ∀ s ∈ ss, s.Grammatical := by
  induction ss with
  | nil => simp [AllGrammatical]
  | cons s ss ih => simp [AllGrammatical, ih]

end TeachLang
