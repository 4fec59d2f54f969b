import TeachLang.Token.Kind

/-! # Operators

The operators of expressions and the tokens that write them.  The minus sign writes a binary
operator and a unary one.
-/

namespace TeachLang

inductive BinaryOp where
  | and | or | xor
  | equal | unequal | lessThan | moreThan | lessThanEqual | moreThanEqual
  | plus | minus | times | div | rem
deriving DecidableEq, Repr

namespace BinaryOp

def name : BinaryOp → String
  | and => "And"
  | or => "Or"
  | xor => "Xor"
  | equal => "Equal"
  | unequal => "Unequal"
  | lessThan => "LessThan"
  | moreThan => "MoreThan"
  | lessThanEqual => "LessThanEqual"
  | moreThanEqual => "MoreThanEqual"
  | plus => "Plus"
  | minus => "Minus"
  | times => "Times"
  | div => "Div"
  | rem => "Rem"

def kind : BinaryOp → TokenKind
  | and => .kwAnd
  | or => .kwOr
  | xor => .kwXor
  | equal => .equal
  | unequal => .unequal
  | lessThan => .lessThan
  | moreThan => .moreThan
  | lessThanEqual => .lessThanEqual
  | moreThanEqual => .moreThanEqual
  | plus => .plus
  | minus => .minus
  | times => .times
  | div => .kwDiv
  | rem => .kwRem

def ofKind? : TokenKind → Option BinaryOp
  | .kwAnd => some and
  | .kwOr => some or
  | .kwXor => some xor
  | .equal => some equal
  | .unequal => some unequal
  | .lessThan => some lessThan
  | .moreThan => some moreThan
  | .lessThanEqual => some lessThanEqual
  | .moreThanEqual => some moreThanEqual
  | .plus => some plus
  | .minus => some minus
  | .times => some times
  | .kwDiv => some div
  | .kwRem => some rem
  | _ => none

theorem ofKind?_eq_some_iff (k : TokenKind) (op : BinaryOp) :
    ofKind? k = some op ↔ k = op.kind := by
  cases op <;> cases k <;> decide

end BinaryOp

inductive UnaryOp where
  | not
  | negation
deriving DecidableEq, Repr

namespace UnaryOp

def name : UnaryOp → String
  | not => "Not"
  | negation => "Negation"

def kind : UnaryOp → TokenKind
  | not => .kwNot
  | negation => .minus

def ofKind? : TokenKind → Option UnaryOp
  | .kwNot => some not
  | .minus => some negation
  | _ => none

theorem ofKind?_eq_some_iff (k : TokenKind) (op : UnaryOp) :
    ofKind? k = some op ↔ k = op.kind := by
  cases op <;> cases k <;> decide

end UnaryOp
end TeachLang
