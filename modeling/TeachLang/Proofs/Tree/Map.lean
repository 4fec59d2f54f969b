import TeachLang.Tree.Declaration

/-! # Trees with other tokens and slots

One traversal of the tree that changes every token and every type slot.  Two trees that
differ in the places of their tokens only are the same after the places are taken away.
-/

namespace TeachLang

section

variable (g : Token → Token) (s : Slot → Slot)

def Identifier.map (i : Identifier) : Identifier := ⟨g i.token, s i.slot⟩

def Literal.map (l : Literal) : Literal := ⟨g l.token, l.value, s l.slot⟩

def ListLiteral.map (l : ListLiteral) : ListLiteral :=
  ⟨g l.opening, l.elements.map (·.map g s), s l.slot⟩

mutual

def Expr.map : Expr → Expr
  | .name i => .name (i.map g s)
  | .call callee args slot => .call (g callee) (Expr.mapAll args) (s slot)
  | .index target opening position slot =>
    .index target.map (g opening) position.map (s slot)
  | .literal l => .literal (l.map g s)
  | .list l => .list (l.map g s)
  | .binary op symbol lhs rhs slot => .binary op (g symbol) lhs.map rhs.map (s slot)
  | .unary op symbol operand slot => .unary op (g symbol) operand.map (s slot)

def Expr.mapAll : List Expr → List Expr
  | [] => []
  | e :: es => e.map :: Expr.mapAll es

end

def Target.map : Target → Target
  | .name i => .name (i.map g s)
  | .element base opening position slot =>
    .element (base.map g s) (g opening) (position.map g s) (s slot)

mutual

def Statement.map : Statement → Statement
  | .assignment target symbol value slot =>
    .assignment (target.map g s) (g symbol) (value.map g s) (s slot)
  | .call callee args slot => .call (g callee) (Expr.mapAll g s args) (s slot)
  | .conditional keyword condition body elseIfs elseIfsSlot otherwise slot =>
    .conditional (g keyword) (condition.map g s) body.map elseIfs.map (s elseIfsSlot) otherwise.map
      (s slot)
  | .loop keyword body slot => .loop (g keyword) body.map (s slot)
  | .forEach keyword item iterable body slot =>
    .forEach (g keyword) (item.map g s) (iterable.map g s) body.map (s slot)
  | .returning keyword value slot => .returning (g keyword) (value.map (·.map g s)) (s slot)
  | .exit keyword slot => .exit (g keyword) (s slot)

def Block.map : Block → Block
  | .mk statements slot => .mk (Statement.mapAll statements) (s slot)

def Statement.mapAll : List Statement → List Statement
  | [] => []
  | t :: ts => t.map :: Statement.mapAll ts

def ElseIfs.map : ElseIfs → ElseIfs
  | .nil => .nil
  | .cons keyword condition body slot rest =>
    .cons (g keyword) (condition.map g s) body.map (s slot) rest.map

def Else.map : Else → Else
  | .absent => .absent
  | .present keyword body slot => .present (g keyword) body.map (s slot)

end

def TypeExpr.map : TypeExpr → TypeExpr
  | .simple token type slot => .simple (g token) type (s slot)
  | .list keyword token element slot => .list (g keyword) (g token) element (s slot)
  | .void slot => .void (s slot)

def ConstantValue.map : ConstantValue → ConstantValue
  | .simple l => .simple (l.map g s)
  | .list l => .list (l.map g s)

def ConstantDecl.map (d : ConstantDecl) : ConstantDecl := ⟨g d.name, d.value.map g s, s d.slot⟩

def ConstantList.map (l : ConstantList) : ConstantList :=
  ⟨g l.keyword, l.declarations.map (·.map g s), s l.slot⟩

def BindingDecl.map (d : BindingDecl) : BindingDecl :=
  ⟨d.names.map (·.map g s), d.type.map g s, s d.slot⟩

def VariableList.map (l : VariableList) : VariableList :=
  ⟨g l.keyword, l.declarations.map (·.map g s), s l.slot⟩

def ParameterList.map (l : ParameterList) : ParameterList :=
  ⟨l.declarations.map (·.map g s), s l.slot⟩

def ProcedureDecl.map (d : ProcedureDecl) : ProcedureDecl where
  keyword := g d.keyword
  name := g d.name
  parameters := d.parameters.map g s
  returnType := d.returnType.map g s
  constants := d.constants.map (·.map g s)
  vars := d.vars.map (·.map g s)
  body := d.body.map g s
  slot := s d.slot

def ProcedureList.map (l : ProcedureList) : ProcedureList :=
  ⟨l.procedures.map (·.map g s), s l.slot⟩

def Program.map (p : Program) : Program where
  keyword := g p.keyword
  constants := p.constants.map (·.map g s)
  vars := p.vars.map (·.map g s)
  procedures := p.procedures.map g s
  statements := p.statements.map g s
  slot := s p.slot

theorem Expr.mapAll_eq_map (es : List Expr) : Expr.mapAll g s es = es.map (·.map g s) := by
  induction es with
  | nil => rfl
  | cons e es ih => rw [mapAll, ih, List.map_cons]

theorem Statement.mapAll_eq_map (ss : List Statement) :
    Statement.mapAll g s ss = ss.map (·.map g s) := by
  induction ss with
  | nil => rfl
  | cons t ss ih => rw [mapAll, ih, List.map_cons]

end

/-! Two changes one after the other are one change. -/

section

variable (g g' : Token → Token) (s s' : Slot → Slot)

theorem Identifier.map_map (i : Identifier) :
    (i.map g s).map g' s' = i.map (g' ∘ g) (s' ∘ s) := rfl

theorem Literal.map_map (l : Literal) : (l.map g s).map g' s' = l.map (g' ∘ g) (s' ∘ s) := rfl

theorem ListLiteral.map_map (l : ListLiteral) :
    (l.map g s).map g' s' = l.map (g' ∘ g) (s' ∘ s) := by
  simp [map, Literal.map_map, Function.comp_def]

mutual

theorem Expr.map_map (e : Expr) : (e.map g s).map g' s' = e.map (g' ∘ g) (s' ∘ s) := by
  cases e with
  | name i => rfl
  | call callee args slot =>
    simp only [Expr.map, Expr.mapAll_mapAll args, Function.comp_apply]
  | index target opening position slot =>
    simp only [Expr.map, Expr.map_map target, Expr.map_map position, Function.comp_apply]
  | literal l => rfl
  | list l => simp only [Expr.map, ListLiteral.map_map]
  | binary op symbol lhs rhs slot =>
    simp only [Expr.map, Expr.map_map lhs, Expr.map_map rhs, Function.comp_apply]
  | unary op symbol operand slot =>
    simp only [Expr.map, Expr.map_map operand, Function.comp_apply]

theorem Expr.mapAll_mapAll (es : List Expr) :
    Expr.mapAll g' s' (Expr.mapAll g s es) = Expr.mapAll (g' ∘ g) (s' ∘ s) es := by
  cases es with
  | nil => rfl
  | cons e es => simp only [Expr.mapAll, Expr.map_map e, Expr.mapAll_mapAll es]

end

theorem Target.map_map (target : Target) :
    (target.map g s).map g' s' = target.map (g' ∘ g) (s' ∘ s) := by
  cases target with
  | name i => rfl
  | element base opening position slot =>
    simp only [map, Expr.map_map, Function.comp_apply]

mutual

theorem Statement.map_map (t : Statement) :
    (t.map g s).map g' s' = t.map (g' ∘ g) (s' ∘ s) := by
  cases t with
  | assignment target symbol value slot =>
    simp only [Statement.map, Target.map_map, Expr.map_map, Function.comp_apply]
  | call callee args slot =>
    simp only [Statement.map, Expr.mapAll_mapAll, Function.comp_apply]
  | conditional keyword condition body elseIfs elseIfsSlot otherwise slot =>
    simp only [Statement.map, Expr.map_map, Block.map_map body, ElseIfs.map_map elseIfs,
      Else.map_map otherwise, Function.comp_apply]
  | loop keyword body slot => simp only [Statement.map, Block.map_map body, Function.comp_apply]
  | forEach keyword item iterable body slot =>
    simp only [Statement.map, Identifier.map_map, Expr.map_map, Block.map_map body,
      Function.comp_apply]
  | returning keyword value slot =>
    simp only [Statement.map, Option.map_map, Function.comp_def, Expr.map_map]
  | exit keyword slot => rfl

theorem Block.map_map (b : Block) : (b.map g s).map g' s' = b.map (g' ∘ g) (s' ∘ s) := by
  cases b with
  | mk statements slot =>
    simp only [Block.map, Statement.mapAll_mapAll statements, Function.comp_apply]

theorem Statement.mapAll_mapAll (ts : List Statement) :
    Statement.mapAll g' s' (Statement.mapAll g s ts) = Statement.mapAll (g' ∘ g) (s' ∘ s) ts := by
  cases ts with
  | nil => rfl
  | cons t ts => simp only [Statement.mapAll, Statement.map_map t, Statement.mapAll_mapAll ts]

theorem ElseIfs.map_map (b : ElseIfs) : (b.map g s).map g' s' = b.map (g' ∘ g) (s' ∘ s) := by
  cases b with
  | nil => rfl
  | cons keyword condition body slot rest =>
    simp only [ElseIfs.map, Expr.map_map, Block.map_map body, ElseIfs.map_map rest,
      Function.comp_apply]

theorem Else.map_map (b : Else) : (b.map g s).map g' s' = b.map (g' ∘ g) (s' ∘ s) := by
  cases b with
  | absent => rfl
  | present keyword body slot => simp only [Else.map, Block.map_map body, Function.comp_apply]

end

theorem TypeExpr.map_map (e : TypeExpr) :
    (e.map g s).map g' s' = e.map (g' ∘ g) (s' ∘ s) := by
  cases e <;> rfl

theorem ConstantList.map_map (l : ConstantList) :
    (l.map g s).map g' s' = l.map (g' ∘ g) (s' ∘ s) := by
  have hvalue (v : ConstantValue) : (v.map g s).map g' s' = v.map (g' ∘ g) (s' ∘ s) := by
    cases v with
    | simple l => rfl
    | list l => simp only [ConstantValue.map, ListLiteral.map_map]
  simp [map, ConstantDecl.map, hvalue, Function.comp_def]

theorem BindingDecl.map_map (d : BindingDecl) :
    (d.map g s).map g' s' = d.map (g' ∘ g) (s' ∘ s) := by
  simp [map, Identifier.map_map, TypeExpr.map_map, Function.comp_def]

theorem VariableList.map_map (l : VariableList) :
    (l.map g s).map g' s' = l.map (g' ∘ g) (s' ∘ s) := by
  simp [map, BindingDecl.map_map, Function.comp_def]

theorem ProcedureDecl.map_map (d : ProcedureDecl) :
    (d.map g s).map g' s' = d.map (g' ∘ g) (s' ∘ s) := by
  simp [map, ParameterList.map, BindingDecl.map_map, TypeExpr.map_map, ConstantList.map_map,
    VariableList.map_map, Block.map_map, Function.comp_def]

theorem Program.map_map (p : Program) : (p.map g s).map g' s' = p.map (g' ∘ g) (s' ∘ s) := by
  simp [map, ProcedureList.map, ConstantList.map_map, VariableList.map_map,
    ProcedureDecl.map_map, Block.map_map, Function.comp_def]

end

/-! A change that leaves everything as it is. -/

theorem Literal.map_id (l : Literal) : l.map id id = l := rfl

theorem ListLiteral.map_id (l : ListLiteral) : l.map id id = l := by
  simp [map, Literal.map_id]

mutual

theorem Expr.map_id (e : Expr) : e.map id id = e := by
  cases e with
  | name i => rfl
  | call callee args slot => simp only [Expr.map, Expr.mapAll_id args, id]
  | index target opening position slot =>
    simp only [Expr.map, Expr.map_id target, Expr.map_id position, id]
  | literal l => rfl
  | list l => simp only [Expr.map, ListLiteral.map_id]
  | binary op symbol lhs rhs slot => simp only [Expr.map, Expr.map_id lhs, Expr.map_id rhs, id]
  | unary op symbol operand slot => simp only [Expr.map, Expr.map_id operand, id]

theorem Expr.mapAll_id (es : List Expr) : Expr.mapAll id id es = es := by
  cases es with
  | nil => rfl
  | cons e es => simp only [Expr.mapAll, Expr.map_id e, Expr.mapAll_id es]

end

theorem Target.map_id (target : Target) : target.map id id = target := by
  cases target with
  | name i => rfl
  | element base opening position slot => simp only [map, Expr.map_id, id]

mutual

theorem Statement.map_id (t : Statement) : t.map id id = t := by
  cases t with
  | assignment target symbol value slot =>
    simp only [Statement.map, Target.map_id, Expr.map_id, id]
  | call callee args slot => simp only [Statement.map, Expr.mapAll_id, id]
  | conditional keyword condition body elseIfs elseIfsSlot otherwise slot =>
    simp only [Statement.map, Expr.map_id, Block.map_id body, ElseIfs.map_id elseIfs,
      Else.map_id otherwise, id]
  | loop keyword body slot => simp only [Statement.map, Block.map_id body, id]
  | forEach keyword item iterable body slot =>
    simp only [Statement.map, Identifier.map, Expr.map_id, Block.map_id body, id]
  | returning keyword value slot => simp [Statement.map, Expr.map_id]
  | exit keyword slot => rfl

theorem Block.map_id (b : Block) : b.map id id = b := by
  cases b with
  | mk statements slot => simp only [Block.map, Statement.mapAll_id statements, id]

theorem Statement.mapAll_id (ts : List Statement) : Statement.mapAll id id ts = ts := by
  cases ts with
  | nil => rfl
  | cons t ts => simp only [Statement.mapAll, Statement.map_id t, Statement.mapAll_id ts]

theorem ElseIfs.map_id (b : ElseIfs) : b.map id id = b := by
  cases b with
  | nil => rfl
  | cons keyword condition body slot rest =>
    simp only [ElseIfs.map, Expr.map_id, Block.map_id body, ElseIfs.map_id rest, id]

theorem Else.map_id (b : Else) : b.map id id = b := by
  cases b with
  | absent => rfl
  | present keyword body slot => simp only [Else.map, Block.map_id body, id]

end

theorem TypeExpr.map_id (e : TypeExpr) : e.map id id = e := by cases e <;> rfl

theorem ConstantList.map_id (l : ConstantList) : l.map id id = l := by
  have hvalue (v : ConstantValue) : v.map id id = v := by
    cases v with
    | simple l => rfl
    | list l => simp only [ConstantValue.map, ListLiteral.map_id]
  simp [map, ConstantDecl.map, hvalue]

theorem BindingDecl.map_id (d : BindingDecl) : d.map id id = d := by
  simp [map, Identifier.map, TypeExpr.map_id]

theorem VariableList.map_id (l : VariableList) : l.map id id = l := by
  simp [map, BindingDecl.map_id]

theorem ProcedureDecl.map_id (d : ProcedureDecl) : d.map id id = d := by
  simp [map, ParameterList.map, BindingDecl.map_id, TypeExpr.map_id, ConstantList.map_id,
    VariableList.map_id, Block.map_id]

theorem Program.map_id (p : Program) : p.map id id = p := by
  simp [map, ProcedureList.map, ConstantList.map_id, VariableList.map_id, ProcedureDecl.map_id,
    Block.map_id]

def Slot.cleared (_ : Slot) : Slot := none

/-- A token without its place in a source. -/
def Token.unplaced (t : Token) : Token := ⟨t.kind, t.text, ⟨"", 0, 0⟩, 0, 0⟩

/-- A program without the places of its tokens. -/
def Program.unplaced (p : Program) : Program := p.map Token.unplaced id

/-- A program before any check, with every type slot empty. -/
def Program.untyped (p : Program) : Program := p.map id Slot.cleared

end TeachLang
