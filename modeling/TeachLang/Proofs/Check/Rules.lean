import TeachLang.Table.Builtins
import TeachLang.Tree.Declaration

/-! # Rules of well-formed programs

What makes a program well formed, said of its tree alone: the declarations around a
place are lists read off the tree, and no table changes.  An expression has a type in a
scope, a statement is well typed in a scope inside or outside of a loop, and a program
is well formed when its names are distinct and its parts are well typed.
-/

namespace TeachLang

def LiteralValue.ty : LiteralValue → Ty
  | int _ => .int
  | string _ => .string
  | bool _ => .bool

/-- The type of the lists whose elements are like a literal. -/
def LiteralValue.listTy : LiteralValue → Ty
  | int _ => .intList
  | string _ => .stringList
  | bool _ => .boolList

/-- Integer literals denote signed numbers of 32 bits. -/
def LiteralValue.Fits : LiteralValue → Prop
  | int n => n ≤ 2147483647
  | _ => True

/-- The type of a list literal: that of its first element decides, and the empty list is generic. -/
def ListLiteral.ty (l : ListLiteral) : Ty :=
  match l.elements with
  | [] => .list
  | e :: _ => e.value.listTy

/-- All elements fit and are of one type. -/
structure ListLiteral.WellTyped (l : ListLiteral) : Prop where
  fits : ∀ e ∈ l.elements, e.value.Fits
  homogeneous : ∀ a ∈ l.elements, ∀ b ∈ l.elements, a.value.ty = b.value.ty

/-- A value of a type may stand where another type is asked for: the types are equal, or the
value is the empty list and a list type is asked for. -/
inductive Ty.Flows : Ty → Ty → Prop
  | refl (ty : Ty) : Flows ty ty
  | list {element ty : Ty} (h : element.toListType? = some ty) : Flows .list ty

inductive BinaryOp.HasTypes : BinaryOp → Ty → Ty → Ty → Prop
  | logic {op : BinaryOp} (h : op ∈ [and, or, xor]) : HasTypes op .bool .bool .bool
  | order {op : BinaryOp} (h : op ∈ [lessThan, moreThan, lessThanEqual, moreThanEqual]) :
      HasTypes op .int .int .bool
  | arithmetic {op : BinaryOp} (h : op ∈ [plus, minus, times, div, rem]) : HasTypes op .int .int .int
  | equality {op : BinaryOp} {ty : Ty} (h : op ∈ [equal, unequal]) (operands : ty ∈ [Ty.int, .bool]) :
      HasTypes op ty ty .bool

inductive UnaryOp.HasTypes : UnaryOp → Ty → Ty → Prop
  | not : HasTypes not .bool .bool
  | negation : HasTypes negation .int .int

/-- What a name is declared as. -/
structure Binding where
  name : String
  kind : SymbolKind
  ty : Ty

/-- What a call has to know of a procedure. -/
structure Signature where
  name : String
  parameters : List Ty
  returnType : Ty

structure Scope where
  /-- The names of the enclosing procedure. -/
  locals : List Binding
  globals : List Binding
  procedures : List Signature
  /-- The return type of the enclosing procedure. -/
  result : Option Ty

namespace Scope

/-- The declaration that a name stands for: one of the enclosing procedure, or else a global one. -/
def resolve? (Γ : Scope) (name : String) : Option Binding :=
  (Γ.locals.find? (·.name = name)).or (Γ.globals.find? (·.name = name))

/-- The procedure that a name stands for. -/
def procedure? (Γ : Scope) (name : String) : Option Signature :=
  Γ.procedures.find? (·.name = name)

end Scope

mutual

inductive Expr.HasType (Γ : Scope) : Expr → Ty → Prop
  | name {i : Identifier} {b : Binding} (declared : Γ.resolve? i.name = some b) :
      HasType Γ (.name i) b.ty
  | call {callee : Token} {args : List Expr} {slot : Slot} {s : Signature}
      (declared : Γ.procedure? callee.text = some s) (fit : Expr.Fit Γ args s.parameters) :
      HasType Γ (.call callee args slot) s.returnType
  | index {target position : Expr} {opening : Token} {slot : Slot} {whole element : Ty}
      (target_ty : HasType Γ target whole) (position_ty : HasType Γ position .int)
      (element_ty : whole.elementType? = some element) :
      HasType Γ (.index target opening position slot) element
  | literal {l : Literal} (fits : l.value.Fits) : HasType Γ (.literal l) l.value.ty
  | list {l : ListLiteral} (wellTyped : l.WellTyped) : HasType Γ (.list l) l.ty
  | binary {op : BinaryOp} {symbol : Token} {lhs rhs : Expr} {slot : Slot} {a b ty : Ty}
      (lhs_ty : HasType Γ lhs a) (rhs_ty : HasType Γ rhs b) (types : op.HasTypes a b ty) :
      HasType Γ (.binary op symbol lhs rhs slot) ty
  | unary {op : UnaryOp} {symbol : Token} {operand : Expr} {slot : Slot} {a ty : Ty}
      (operand_ty : HasType Γ operand a) (types : op.HasTypes a ty) :
      HasType Γ (.unary op symbol operand slot) ty

/-- As many arguments as parameters, and each flows into its parameter. -/
inductive Expr.Fit (Γ : Scope) : List Expr → List Ty → Prop
  | nil : Fit Γ [] []
  | cons {e : Expr} {es : List Expr} {ty parameter : Ty} {parameters : List Ty}
      (head_ty : HasType Γ e ty) (flows : ty.Flows parameter) (tail : Fit Γ es parameters) :
      Fit Γ (e :: es) (parameter :: parameters)

end

/-- The type of what an assignment writes to, which is no constant. -/
inductive Target.HasType (Γ : Scope) : Target → Ty → Prop
  | name {i : Identifier} {b : Binding} (declared : Γ.resolve? i.name = some b)
      (writable : b.kind ≠ .const) : HasType Γ (.name i) b.ty
  | element {base : Identifier} {opening : Token} {position : Expr} {slot : Slot} {b : Binding}
      {element : Ty} (declared : Γ.resolve? base.name = some b) (writable : b.kind ≠ .const)
      (position_ty : position.HasType Γ .int) (element_ty : b.ty.elementType? = some element) :
      HasType Γ (.element (.name base) opening position slot) element

mutual

/-- Which statements a scope allows; the flag tells whether a loop surrounds the place. -/
inductive Statement.WellTyped (Γ : Scope) : Bool → Statement → Prop
  | assignment {loop : Bool} {target : Target} {symbol : Token} {value : Expr} {slot : Slot}
      {a b : Ty} (target_ty : target.HasType Γ a) (value_ty : value.HasType Γ b)
      (flows : b.Flows a) : Statement.WellTyped Γ loop (.assignment target symbol value slot)
  | call {loop : Bool} {callee : Token} {args : List Expr} {slot : Slot} {s : Signature}
      (declared : Γ.procedure? callee.text = some s) (fit : Expr.Fit Γ args s.parameters) :
      Statement.WellTyped Γ loop (.call callee args slot)
  | conditional {loop : Bool} {keyword : Token} {condition : Expr} {body : Block}
      {elseIfs : ElseIfs} {elseIfsSlot slot : Slot} {otherwise : Else}
      (condition_ty : condition.HasType Γ .bool) (body_ok : Block.WellTyped Γ loop body)
      (elseIfs_ok : ElseIfs.WellTyped Γ loop elseIfs) (otherwise_ok : Else.WellTyped Γ loop otherwise) :
      Statement.WellTyped Γ loop (.conditional keyword condition body elseIfs elseIfsSlot otherwise slot)
  | loop {loop : Bool} {keyword : Token} {body : Block} {slot : Slot}
      (body_ok : Block.WellTyped Γ true body) : Statement.WellTyped Γ loop (.loop keyword body slot)
  | forEach {loop : Bool} {keyword : Token} {item : Identifier} {iterable : Expr} {body : Block}
      {slot : Slot} {b : Binding} {whole : Ty} (declared : Γ.resolve? item.name = some b)
      (list_ty : b.ty.toListType? = some whole) (iterable_ty : iterable.HasType Γ whole)
      (body_ok : Block.WellTyped Γ true body) :
      Statement.WellTyped Γ loop (.forEach keyword item iterable body slot)
  | returnNothing {loop : Bool} {keyword : Token} {slot : Slot} (result : Γ.result = some .void) :
      Statement.WellTyped Γ loop (.returning keyword none slot)
  | returnValue {loop : Bool} {keyword : Token} {value : Expr} {slot : Slot} {a b : Ty}
      (result : Γ.result = some a) (value_ty : value.HasType Γ b) (flows : b.Flows a) :
      Statement.WellTyped Γ loop (.returning keyword (some value) slot)
  | exit {keyword : Token} {slot : Slot} : Statement.WellTyped Γ true (.exit keyword slot)

inductive Block.WellTyped (Γ : Scope) : Bool → Block → Prop
  | mk {loop : Bool} {statements : List Statement} {slot : Slot}
      (all : Statement.AllWellTyped Γ loop statements) : Block.WellTyped Γ loop (.mk statements slot)

inductive Statement.AllWellTyped (Γ : Scope) : Bool → List Statement → Prop
  | nil {loop : Bool} : Statement.AllWellTyped Γ loop []
  | cons {loop : Bool} {s : Statement} {ss : List Statement} (head : Statement.WellTyped Γ loop s)
      (tail : Statement.AllWellTyped Γ loop ss) : Statement.AllWellTyped Γ loop (s :: ss)

inductive ElseIfs.WellTyped (Γ : Scope) : Bool → ElseIfs → Prop
  | nil {loop : Bool} : ElseIfs.WellTyped Γ loop .nil
  | cons {loop : Bool} {keyword : Token} {condition : Expr} {body : Block} {slot : Slot}
      {rest : ElseIfs} (condition_ty : condition.HasType Γ .bool)
      (body_ok : Block.WellTyped Γ loop body) (rest_ok : ElseIfs.WellTyped Γ loop rest) :
      ElseIfs.WellTyped Γ loop (.cons keyword condition body slot rest)

inductive Else.WellTyped (Γ : Scope) : Bool → Else → Prop
  | absent {loop : Bool} : Else.WellTyped Γ loop .absent
  | present {loop : Bool} {keyword : Token} {body : Block} {slot : Slot}
      (body_ok : Block.WellTyped Γ loop body) : Else.WellTyped Γ loop (.present keyword body slot)

end

namespace ConstantValue

def ty : ConstantValue → Ty
  | simple l => l.value.ty
  | list l => l.ty

/-- The value of a constant is a literal that fits, or a list of such with at least one element. -/
def WellTyped : ConstantValue → Prop
  | simple l => l.value.Fits
  | list l => l.WellTyped ∧ l.elements ≠ []

end ConstantValue

def ConstantDecl.binding (d : ConstantDecl) : Binding := ⟨d.name.text, .const, d.value.ty⟩

def BindingDecl.bindings (kind : SymbolKind) (d : BindingDecl) : List Binding :=
  d.names.map fun i => ⟨i.name, kind, d.type.denoted⟩

def ConstantList.bindings (l : ConstantList) : List Binding := l.declarations.map (·.binding)

def VariableList.bindings (l : VariableList) : List Binding :=
  l.declarations.flatMap (·.bindings .var)

def ParameterList.bindings (l : ParameterList) : List Binding :=
  l.declarations.flatMap (·.bindings .param)

def ConstantList.WellTyped (l : ConstantList) : Prop := ∀ d ∈ l.declarations, d.value.WellTyped

namespace ProcedureDecl

def bindings (d : ProcedureDecl) : List Binding :=
  d.parameters.bindings ++ (d.constants.toList.flatMap (·.bindings) ++
    d.vars.toList.flatMap (·.bindings))

def signature (d : ProcedureDecl) : Signature :=
  ⟨d.name.text, d.parameters.bindings.map (·.ty), d.returnType.denoted⟩

/-- A procedure is well formed behind some globals and in front of the procedures that its body can
call, itself among them. -/
structure WellFormed (globals : List Binding) (callable : List Signature) (d : ProcedureDecl) :
    Prop where
  distinct : (d.bindings.map (·.name)).Nodup
  constants : ∀ l ∈ d.constants, l.WellTyped
  body : d.body.WellTyped ⟨d.bindings, globals, callable, some d.returnType.denoted⟩ false

end ProcedureDecl

def Builtin.signature (b : Builtin) : Signature := ⟨b.name, b.parameters.map (·.2), b.returnType⟩

def builtinSignatures : List Signature := Builtin.catalogue.map (·.signature)

namespace Program

def bindings (p : Program) : List Binding :=
  p.constants.toList.flatMap (·.bindings) ++ p.vars.toList.flatMap (·.bindings)

/-- A program is well formed: names are distinct in every scope, no procedure has the name of
another or of a builtin, and its parts are well typed.  A procedure can call the builtins, the
procedures before it and itself. -/
structure WellFormed (p : Program) : Prop where
  distinct : (p.bindings.map (·.name)).Nodup
  constants : ∀ l ∈ p.constants, l.WellTyped
  procedures_distinct : (p.procedures.procedures.map (·.name.text)).Nodup
  no_builtin : ∀ d ∈ p.procedures.procedures, ∀ b ∈ Builtin.catalogue, d.name.text ≠ b.name
  procedures : ∀ before d after, p.procedures.procedures = before ++ d :: after →
    d.WellFormed p.bindings (builtinSignatures ++ (before ++ [d]).map (·.signature))
  statements : p.statements.WellTyped
    ⟨[], p.bindings, builtinSignatures ++ p.procedures.procedures.map (·.signature), none⟩ false

end Program
end TeachLang
