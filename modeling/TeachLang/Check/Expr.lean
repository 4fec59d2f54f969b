import TeachLang.Check.Scope
import TeachLang.Check.Violation
import TeachLang.Tree.Expr

/-! # Checking expressions

A check goes through the parts of an expression in order, writes the type of each into its slot,
and stops at the first violation.  It reads the tables and never changes them.
-/

namespace TeachLang

/-- What a check leaves: the tree with its slots filled as far as the check went, and what the
check found. -/
abbrev Checked (α β : Type) := α × Except SemanticError β

/-- The type of the operands of an operator, for all but the equalities. -/
def BinaryOp.operandType? : BinaryOp → Option Ty
  | and | or | xor => some .bool
  | lessThan | moreThan | lessThanEqual | moreThanEqual => some .int
  | plus | minus | times | div | rem => some .int
  | equal | unequal => none

def BinaryOp.resultType : BinaryOp → Ty
  | plus | minus | times | div | rem => .int
  | _ => .bool

/-- The type of an operation on operands of given types.  An equality compares two integers or
two booleans. -/
def BinaryOp.check (op : BinaryOp) (symbol : Token) (lhs rhs : Ty) : Except SemanticError Ty :=
  match op.operandType? with
  | some ty =>
    if lhs = ty ∧ rhs = ty then .ok op.resultType
    else .error ⟨.binaryOperandMismatch symbol.text ty, symbol⟩
  | none =>
    if lhs = .int ∨ lhs = .bool then
      if rhs = lhs then .ok op.resultType
      else .error ⟨.binaryOperandMismatch symbol.text lhs, symbol⟩
    else .error ⟨.equalityOperandMismatch symbol.text, symbol⟩

def UnaryOp.operandType : UnaryOp → Ty
  | not => .bool
  | negation => .int

def UnaryOp.check (op : UnaryOp) (symbol : Token) (operand : Ty) : Except SemanticError Ty :=
  if operand = op.operandType then .ok op.operandType
  else .error ⟨.unaryOperandMismatch symbol.text op.operandType, symbol⟩

/-- The largest integer that a literal may write. -/
def maxInt : Nat := 2147483647

def Literal.type (l : Literal) : Except SemanticError Ty :=
  match l.value with
  | .int n =>
    if n ≤ maxInt then .ok .int else .error ⟨.integerLiteralTooLarge l.token.text, l.token⟩
  | .string _ => .ok .string
  | .bool _ => .ok .bool

def Literal.check (l : Literal) : Checked Literal Ty :=
  match l.type with
  | .ok ty => ({ l with slot := some ty }, .ok ty)
  | .error e => (l, .error e)

def Literal.checkAll (expected : Ty) : List Literal → Checked (List Literal) Unit
  | [] => ([], .ok ())
  | l :: ls =>
    match l.check with
    | (l, .error e) => (l :: ls, .error e)
    | (l, .ok found) =>
      if found = expected then
        match checkAll expected ls with
        | (ls, result) => (l :: ls, result)
      else (l :: ls, .error ⟨.heterogeneousList expected found, l.token⟩)

/-- All elements of a list literal have the type of the first one. -/
def ListLiteral.check (l : ListLiteral) : Checked ListLiteral Ty :=
  match l.elements with
  | [] => ({ l with slot := some .list }, .ok .list)
  | first :: rest =>
    match first.check with
    | (first, .error e) => ({ l with elements := first :: rest }, .error e)
    | (first, .ok ty) =>
      match Literal.checkAll ty rest with
      | (rest, .error e) => ({ l with elements := first :: rest }, .error e)
      | (rest, .ok ()) =>
        let listTy := ty.toListType?.getD .list
        ({ l with elements := first :: rest, slot := some listTy }, .ok listTy)

section

variable (t : Tables) (ctx : Context)

def Identifier.check (i : Identifier) : Checked Identifier Ty :=
  match t.lookup? ctx i.name with
  | some register => ({ i with slot := some register.ty }, .ok register.ty)
  | none => (i, .error ⟨.undeclaredVariable i.name, i.token⟩)

def Tables.callee (name : Token) (count : Nat) : Except SemanticError Procedure :=
  match t.procedures.get? name.text with
  | none => .error ⟨.undeclaredProcedure name.text, name⟩
  | some p =>
    if count = p.arity then .ok p else .error ⟨.wrongArgumentCount p.arity count, name⟩

def elementType (opening : Token) (target : Ty) (position : Expr) (found : Ty) :
    Except SemanticError Ty :=
  if found = .int then
    match target.elementType? with
    | some ty => .ok ty
    | none => .error ⟨.indexNonList target, opening⟩
  else .error ⟨.nonIntegerIndex found, position.anchor⟩

mutual

def Expr.check : Expr → Checked Expr Ty
  | .name i =>
    match i.check t ctx with
    | (i, result) => (.name i, result)
  | .call callee args slot =>
    match t.callee callee args.length with
    | .error e => (.call callee args slot, .error e)
    | .ok p =>
      match Expr.checkArgs p.parameters args with
      | (args, .error e) => (.call callee args slot, .error e)
      | (args, .ok ()) => (.call callee args (some p.returnType), .ok p.returnType)
  | .index target opening position slot =>
    match target.check with
    | (target, .error e) => (.index target opening position slot, .error e)
    | (target, .ok targetTy) =>
      match position.check with
      | (position, .error e) => (.index target opening position slot, .error e)
      | (position, .ok found) =>
        match elementType opening targetTy position found with
        | .error e => (.index target opening position slot, .error e)
        | .ok ty => (.index target opening position (some ty), .ok ty)
  | .literal l =>
    match l.check with
    | (l, result) => (.literal l, result)
  | .list l =>
    match l.check with
    | (l, result) => (.list l, result)
  | .binary op symbol lhs rhs slot =>
    match lhs.check with
    | (lhs, .error e) => (.binary op symbol lhs rhs slot, .error e)
    | (lhs, .ok lhsTy) =>
      match rhs.check with
      | (rhs, .error e) => (.binary op symbol lhs rhs slot, .error e)
      | (rhs, .ok rhsTy) =>
        match op.check symbol lhsTy rhsTy with
        | .error e => (.binary op symbol lhs rhs slot, .error e)
        | .ok ty => (.binary op symbol lhs rhs (some ty), .ok ty)
  | .unary op symbol operand slot =>
    match operand.check with
    | (operand, .error e) => (.unary op symbol operand slot, .error e)
    | (operand, .ok operandTy) =>
      match op.check symbol operandTy with
      | .error e => (.unary op symbol operand slot, .error e)
      | .ok ty => (.unary op symbol operand (some ty), .ok ty)

def Expr.checkArgs (parameters : List (String × Ty)) : List Expr → Checked (List Expr) Unit
  | [] => ([], .ok ())
  | e :: es =>
    match parameters with
    | [] => (e :: es, .ok ())
    | (parameter, expected) :: parameters =>
      match e.check with
      | (e, .error error) => (e :: es, .error error)
      | (e, .ok found) =>
        if expected.accepts found then
          match Expr.checkArgs parameters es with
          | (es, result) => (e :: es, result)
        else (e :: es, .error ⟨.incompatibleArgument parameter expected found, e.anchor⟩)

end

def checkCall (callee : Token) (args : List Expr) : Checked (List Expr) Ty :=
  match t.callee callee args.length with
  | .error e => (args, .error e)
  | .ok p =>
    match Expr.checkArgs t ctx p.parameters args with
    | (args, .error e) => (args, .error e)
    | (args, .ok ()) => (args, .ok p.returnType)

end

end TeachLang
