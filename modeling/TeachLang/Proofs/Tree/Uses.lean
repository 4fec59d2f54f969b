import TeachLang.Tree.Declaration

/-! # Uses of expressions

Where the expressions of a tree stand, at any depth: as what a statement needs, as an argument
of a call, or as a part of another expression.  What an assignment writes to and the variable of
a loop are listed as the expressions that are written like them.
-/

namespace TeachLang

/-- Where an expression stands in what is around it. -/
inductive Place where
  /-- What an assignment writes to. -/
  | target
  | assigned (target : Target)
  /-- An argument of a call, counted from zero. -/
  | argument (callee : Token) (ordinal : Nat)
  | returned
  | condition
  /-- The variable of a loop over a list. -/
  | item
  | iterated
  | indexed
  | position
  | operand

structure Use where
  place : Place
  expr : Expr

/-- The expression that is written like a target. -/
def Target.toExpr : Target → Expr
  | name i => .name i
  | element base opening position slot => .index base opening position slot

mutual

/-- The parts of an expression, each in front of its own parts. -/
def Expr.parts : Expr → List Use
  | .call callee args _ => Expr.argumentUses callee args 0
  | .index target _ position _ =>
    ⟨.indexed, target⟩ :: (target.parts ++ ⟨.position, position⟩ :: position.parts)
  | .binary _ _ lhs rhs _ => ⟨.operand, lhs⟩ :: (lhs.parts ++ ⟨.operand, rhs⟩ :: rhs.parts)
  | .unary _ _ operand _ => ⟨.operand, operand⟩ :: operand.parts
  | .name _ | .literal _ | .list _ => []

/-- The arguments of a call from a given one on, each in front of its parts. -/
def Expr.argumentUses (callee : Token) : List Expr → Nat → List Use
  | [], _ => []
  | e :: es, ordinal =>
    ⟨.argument callee ordinal, e⟩ :: (e.parts ++ Expr.argumentUses callee es (ordinal + 1))

end

/-- An expression at a place, with its parts behind it. -/
def Expr.usesAt (place : Place) (e : Expr) : List Use := ⟨place, e⟩ :: e.parts

mutual

def Statement.uses : Statement → List Use
  | .assignment target _ value _ =>
    target.toExpr.usesAt .target ++ value.usesAt (.assigned target)
  | .call callee args _ => Expr.argumentUses callee args 0
  | .conditional _ condition body elseIfs _ otherwise _ =>
    condition.usesAt .condition ++ (body.uses ++ (elseIfs.uses ++ otherwise.uses))
  | .loop _ body _ => body.uses
  | .forEach _ item iterable body _ =>
    (Expr.name item).usesAt .item ++ (iterable.usesAt .iterated ++ body.uses)
  | .returning _ value _ => value.elim [] (·.usesAt .returned)
  | .exit _ _ => []

def Block.uses : Block → List Use
  | .mk statements _ => Statement.allUses statements

def Statement.allUses : List Statement → List Use
  | [] => []
  | s :: ss => s.uses ++ Statement.allUses ss

def ElseIfs.uses : ElseIfs → List Use
  | .nil => []
  | .cons _ condition body _ rest => condition.usesAt .condition ++ (body.uses ++ rest.uses)

def Else.uses : Else → List Use
  | .absent => []
  | .present _ body _ => body.uses

end

mutual

theorem Expr.map_expr_parts (e : Expr) : e :: e.parts.map (·.expr) = e.subexpressions := by
  cases e with
  | call callee args slot => simp [parts, subexpressions, Expr.map_expr_argumentUses callee args]
  | index target opening position slot =>
    simp [parts, subexpressions, ← Expr.map_expr_parts target, ← Expr.map_expr_parts position]
  | binary op symbol lhs rhs slot =>
    simp [parts, subexpressions, ← Expr.map_expr_parts lhs, ← Expr.map_expr_parts rhs]
  | unary op symbol operand slot =>
    simp [parts, subexpressions, ← Expr.map_expr_parts operand]
  | name | literal | list => rfl

theorem Expr.map_expr_argumentUses (callee : Token) (es : List Expr) (ordinal : Nat) :
    (Expr.argumentUses callee es ordinal).map (·.expr) = Expr.subexpressionsOf es := by
  cases es with
  | nil => rfl
  | cons e es =>
    simp [argumentUses, subexpressionsOf, ← Expr.map_expr_parts e,
      Expr.map_expr_argumentUses callee es]

end

theorem Expr.map_expr_usesAt (place : Place) (e : Expr) :
    (e.usesAt place).map (·.expr) = e.subexpressions := e.map_expr_parts

end TeachLang
