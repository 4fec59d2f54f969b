import TeachLang.Check.Expr
import TeachLang.Tree.Statement

/-! # Checking statements

A check of statements changes the tables only where a loop over a list declares its hidden
counter.
-/

namespace TeachLang

/-- What a check of a part that declares names leaves: the tree, the tables, and the first
violation if there was one. -/
abbrev Visited (α : Type) := α × Tables × Except SemanticError Unit

/-- The name of the hidden counter of a loop over a list. -/
def counterName (item : String) : String := "__" ++ item ++ "_index"

section

variable (t : Tables) (ctx : Context)

/-- The type that an assignment writes to. -/
def Target.check : Target → Checked Target Ty
  | .name i =>
    match i.check t ctx with
    | (i, result) => (.name i, result)
  | .element base opening position slot =>
    match base.check t ctx with
    | (base, .error e) => (.element base opening position slot, .error e)
    | (base, .ok baseTy) =>
      match position.check t ctx with
      | (position, .error e) => (.element base opening position slot, .error e)
      | (position, .ok found) =>
        match elementType opening baseTy position found with
        | .error e => (.element base opening position slot, .error e)
        | .ok ty => (.element base opening position (some ty), .ok ty)

def Tables.isConstant (name : String) : Bool :=
  (t.lookup? ctx name).any (·.kind == .const)

/-- Checks that an expression is boolean; a violation is reported at the given token. -/
def checkCondition (keyword : Token) (condition : Expr) : Checked Expr Unit :=
  match condition.check t ctx with
  | (condition, .error e) => (condition, .error e)
  | (condition, .ok found) =>
    if found = .bool then (condition, .ok ())
    else (condition, .error ⟨.nonBooleanCondition found, keyword⟩)

/-- The name of a constant, as a target or as the list of a target. -/
def Target.constant? (target : Target) : Option Identifier :=
  target.base?.filter fun base => t.isConstant ctx base.name

def checkAssignment (target : Target) (symbol : Token) (value : Expr) :
    Checked (Target × Expr) Unit :=
  match target.check t ctx with
  | (target, .error e) => ((target, value), .error e)
  | (target, .ok expected) =>
    match target.constant? t ctx with
    | some base => ((target, value), .error ⟨.assignmentToConstant base.name, base.token⟩)
    | none =>
      match value.check t ctx with
      | (value, .error e) => ((target, value), .error e)
      | (value, .ok found) =>
        if expected.accepts found then ((target, value), .ok ())
        else ((target, value), .error ⟨.incompatibleAssignment expected found, symbol⟩)

/-- Checks the head of a loop over a list: the variable holds the elements of the list. -/
def checkForHead (item : Identifier) (iterable : Expr) : Checked (Identifier × Expr) Unit :=
  match item.check t ctx with
  | (item, .error e) => ((item, iterable), .error e)
  | (item, .ok itemTy) =>
    match iterable.check t ctx with
    | (iterable, .error e) => ((item, iterable), .error e)
    | (iterable, .ok listTy) =>
      if itemTy.toListType? = some listTy then ((item, iterable), .ok ())
      else ((item, iterable), .error ⟨.incompatibleForTypes itemTy listTy, item.token⟩)

def checkReturned : Option Expr → Checked (Option Expr) Ty
  | none => (none, .ok .void)
  | some value =>
    match value.check t ctx with
    | (value, result) => (some value, result)

def checkReturn (keyword : Token) (value : Option Expr) : Checked (Option Expr) Ty :=
  match t.current? ctx with
  | none => (value, .error ⟨.unexpectedReturn, keyword⟩)
  | some p =>
    match checkReturned t ctx value with
    | (value, .error e) => (value, .error e)
    | (value, .ok found) =>
      if p.returnType.accepts found then (value, .ok found)
      else (value, .error ⟨.invalidReturnType p.returnType found, keyword⟩)

end

mutual

def Statement.check (ctx : Context) (t : Tables) : Statement → Visited Statement
  | .assignment target symbol value slot =>
    match checkAssignment t ctx target symbol value with
    | ((target, value), .error e) => (.assignment target symbol value slot, t, .error e)
    | ((target, value), .ok ()) => (.assignment target symbol value (some .void), t, .ok ())
  | .call callee args slot =>
    match checkCall t ctx callee args with
    | (args, .error e) => (.call callee args slot, t, .error e)
    | (args, .ok _) => (.call callee args (some .void), t, .ok ())
  | .conditional keyword condition body elseIfs elseIfsSlot otherwise slot =>
    match checkCondition t ctx keyword condition with
    | (condition, .error e) =>
      (.conditional keyword condition body elseIfs elseIfsSlot otherwise slot, t, .error e)
    | (condition, .ok ()) =>
      match body.check ctx t with
      | (body, t, .error e) =>
        (.conditional keyword condition body elseIfs elseIfsSlot otherwise slot, t, .error e)
      | (body, t, .ok ()) =>
        match elseIfs.check ctx t with
        | (elseIfs, t, .error e) =>
          (.conditional keyword condition body elseIfs elseIfsSlot otherwise slot, t, .error e)
        | (elseIfs, t, .ok ()) =>
          match otherwise.check ctx t with
          | (otherwise, t, .error e) =>
            (.conditional keyword condition body elseIfs (some .void) otherwise slot, t, .error e)
          | (otherwise, t, .ok ()) =>
            (.conditional keyword condition body elseIfs (some .void) otherwise (some .void), t,
              .ok ())
  | .loop keyword body slot =>
    match body.check ctx.withLoop t with
    | (body, t, .error e) => (.loop keyword body slot, t, .error e)
    | (body, t, .ok ()) => (.loop keyword body (some .void), t, .ok ())
  | .forEach keyword item iterable body slot =>
    match checkForHead t ctx item iterable with
    | ((item, iterable), .error e) => (.forEach keyword item iterable body slot, t, .error e)
    | ((item, iterable), .ok ()) =>
      match body.check ctx.withLoop (t.declare ctx (counterName item.name) (.var .int)) with
      | (body, t, .error e) => (.forEach keyword item iterable body slot, t, .error e)
      | (body, t, .ok ()) => (.forEach keyword item iterable body (some .void), t, .ok ())
  | .returning keyword value slot =>
    match checkReturn t ctx keyword value with
    | (value, .error e) => (.returning keyword value slot, t, .error e)
    | (value, .ok ty) => (.returning keyword value (some ty), t, .ok ())
  | .exit keyword slot =>
    if ctx.insideLoop then (.exit keyword (some .void), t, .ok ())
    else (.exit keyword slot, t, .error ⟨.unexpectedExit, keyword⟩)

def Block.check (ctx : Context) (t : Tables) : Block → Visited Block
  | .mk statements slot =>
    match Statement.checkAll ctx t statements with
    | (statements, t, .error e) => (.mk statements slot, t, .error e)
    | (statements, t, .ok ()) => (.mk statements (some .void), t, .ok ())

def Statement.checkAll (ctx : Context) (t : Tables) : List Statement → Visited (List Statement)
  | [] => ([], t, .ok ())
  | s :: ss =>
    match s.check ctx t with
    | (s, t, .error e) => (s :: ss, t, .error e)
    | (s, t, .ok ()) =>
      match Statement.checkAll ctx t ss with
      | (ss, t, result) => (s :: ss, t, result)

def ElseIfs.check (ctx : Context) (t : Tables) : ElseIfs → Visited ElseIfs
  | .nil => (.nil, t, .ok ())
  | .cons keyword condition body slot rest =>
    match checkCondition t ctx keyword condition with
    | (condition, .error e) => (.cons keyword condition body slot rest, t, .error e)
    | (condition, .ok ()) =>
      match body.check ctx t with
      | (body, t, .error e) => (.cons keyword condition body slot rest, t, .error e)
      | (body, t, .ok ()) =>
        match rest.check ctx t with
        | (rest, t, result) => (.cons keyword condition body (some .void) rest, t, result)

def Else.check (ctx : Context) (t : Tables) : Else → Visited Else
  | .absent => (.absent, t, .ok ())
  | .present keyword body slot =>
    match body.check ctx t with
    | (body, t, .error e) => (.present keyword body slot, t, .error e)
    | (body, t, .ok ()) => (.present keyword body (some .void), t, .ok ())

end

end TeachLang
