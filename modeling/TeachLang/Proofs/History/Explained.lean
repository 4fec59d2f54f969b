import TeachLang.Proofs.History.Source

/-! # Explained errors

What a check says of an error can be found in the program.  The name, the operator or the literal
that an error carries is the text of its token.  Only an argument that does not fit names something
else: the error is reported at an argument of a call, and the name is that of a parameter which the
procedure called has at that moment.
-/

namespace TeachLang

structure Call where
  callee : Token
  args : List Expr

mutual

def Expr.calls : Expr → List Call
  | .call callee args _ => ⟨callee, args⟩ :: Expr.callsOf args
  | .index target _ position _ => target.calls ++ position.calls
  | .binary _ _ lhs rhs _ => lhs.calls ++ rhs.calls
  | .unary _ _ operand _ => operand.calls
  | .name _ | .literal _ | .list _ => []

def Expr.callsOf : List Expr → List Call
  | [] => []
  | e :: es => e.calls ++ Expr.callsOf es

end

def Target.calls : Target → List Call
  | .name _ => []
  | .element base _ position _ => base.calls ++ position.calls

mutual

def Statement.calls : Statement → List Call
  | .assignment target _ value _ => target.calls ++ value.calls
  | .call callee args _ => ⟨callee, args⟩ :: Expr.callsOf args
  | .conditional _ condition body elseIfs _ otherwise _ =>
    condition.calls ++ (body.calls ++ (elseIfs.calls ++ otherwise.calls))
  | .loop _ body _ => body.calls
  | .forEach _ _ iterable body _ => iterable.calls ++ body.calls
  | .returning _ value _ => value.elim [] Expr.calls
  | .exit _ _ => []

def Block.calls : Block → List Call
  | .mk statements _ => Statement.callsOf statements

def Statement.callsOf : List Statement → List Call
  | [] => []
  | s :: ss => s.calls ++ Statement.callsOf ss

def ElseIfs.calls : ElseIfs → List Call
  | .nil => []
  | .cons _ condition body _ rest => condition.calls ++ (body.calls ++ rest.calls)

def Else.calls : Else → List Call
  | .absent => []
  | .present _ body _ => body.calls

end

def Program.calls (p : Program) : List Call :=
  p.procedures.procedures.flatMap (·.body.calls) ++ p.statements.calls

def Violation.isArgument : Violation → Bool
  | incompatibleArgument _ _ _ => true
  | _ => false

def Violation.texts : Violation → List String
  | duplicatedConstant text | duplicatedVariable text | duplicatedParameter text
  | duplicateProcedure text | builtinRedefinition text | undeclaredVariable text
  | undeclaredProcedure text | assignmentToConstant text | binaryOperandMismatch text _
  | equalityOperandMismatch text | unaryOperandMismatch text _ | integerLiteralTooLarge text =>
    [text]
  | _ => []

/-- An error of an argument of some calls, or another one with the text of its token. -/
inductive Explained (t : Tables) (calls : List Call) : SemanticError → Prop
  | argument {c : Call} (hc : c ∈ calls) {a : Expr} (ha : a ∈ c.args) {p : Procedure}
      (hp : t.procedures.get? c.callee.text = some p) {parameter : String × Ty}
      (hparameter : parameter ∈ p.parameters) (found : Ty) :
      Explained t calls ⟨.incompatibleArgument parameter.1 parameter.2 found, a.anchor⟩
  | other {e : SemanticError} (h : e.violation.isArgument = false)
      (htexts : e.violation.texts ⊆ [e.token.text]) : Explained t calls e

/-- A result that is no error, or an error that is explained. -/
inductive Excused (t : Tables) (calls : List Call) {β : Type} : Except SemanticError β → Prop
  | ok (b : β) : Excused t calls (.ok b)
  | error {e : SemanticError} (h : Explained t calls e) : Excused t calls (.error e)

section

variable {t : Tables} {calls : List Call} {β : Type}

namespace Excused

theorem explained {e : SemanticError} (h : Excused t calls (.error e : Except SemanticError β)) :
    Explained t calls e := by
  cases h with
  | error h => exact h

theorem other {e : SemanticError} (h : e.violation.isArgument = false)
    (htexts : e.violation.texts ⊆ [e.token.text]) :
    Excused t calls (.error e : Except SemanticError β) := .error (.other h htexts)

/-- What is excused in turn is excused as a whole. -/
theorem bind {α : Type} {x : Except SemanticError α} {f : α → Except SemanticError β}
    (h : Excused t calls x) (hf : ∀ a, x = .ok a → Excused t calls (f a)) :
    Excused t calls (x >>= f) := by
  cases h with
  | ok a => exact hf a rfl
  | error h => exact .error h

end Excused

end

section

variable (t : Tables) (ctx : Context) (calls : List Call)

theorem Literal.type_excused (l : Literal) : Excused t calls l.type := by
  unfold type
  split
  · split
    · exact .ok _
    · exact .other rfl (List.Subset.refl _)
  · exact .ok _
  · exact .ok _

theorem Literal.check_excused (l : Literal) : Excused t calls l.check.2 := by
  have htype := l.type_excused t calls
  unfold check
  generalize l.type = found at htype ⊢
  cases htype with
  | ok ty => exact .ok ty
  | error h => exact .error h

theorem Literal.checkAll_excused (expected : Ty) (ls : List Literal) :
    Excused t calls (checkAll expected ls).2 := by
  induction ls with
  | nil => exact .ok ()
  | cons l ls ih =>
    have hl := l.check_excused t calls
    rw [checkAll]
    generalize l.check = c at hl ⊢
    obtain ⟨l', e | found⟩ := c
    · exact .error hl.explained
    · dsimp only
      split
      · exact ih
      · exact .other rfl (List.nil_subset _)

theorem ListLiteral.check_excused (l : ListLiteral) : Excused t calls l.check.2 := by
  unfold check
  split
  · exact .ok _
  · rename_i first rest _
    have hfirst := first.check_excused t calls
    generalize first.check = c at hfirst ⊢
    obtain ⟨first', e | ty⟩ := c
    · exact hfirst
    · have hrest := Literal.checkAll_excused t calls ty rest
      dsimp only
      generalize Literal.checkAll ty rest = c at hrest ⊢
      obtain ⟨rest', e | _⟩ := c
      · exact .error hrest.explained
      · exact .ok _

theorem BinaryOp.check_excused (op : BinaryOp) (symbol : Token) (lhs rhs : Ty) :
    Excused t calls (op.check symbol lhs rhs) := by
  unfold check
  split
  · split
    · exact .ok _
    · exact .other rfl (List.Subset.refl _)
  · split
    · split
      · exact .ok _
      · exact .other rfl (List.Subset.refl _)
    · exact .other rfl (List.Subset.refl _)

theorem UnaryOp.check_excused (op : UnaryOp) (symbol : Token) (operand : Ty) :
    Excused t calls (op.check symbol operand) := by
  unfold check
  split
  · exact .ok _
  · exact .other rfl (List.Subset.refl _)

theorem elementType_excused (opening : Token) (target : Ty) (position : Expr) (found : Ty) :
    Excused t calls (elementType opening target position found) := by
  unfold elementType
  split
  · split
    · exact .ok _
    · exact .other rfl (List.nil_subset _)
  · exact .other rfl (List.nil_subset _)

theorem Identifier.check_excused (i : Identifier) : Excused t calls (i.check t ctx).2 := by
  unfold check
  split
  · exact .ok _
  · exact .other rfl (List.Subset.refl _)

/-- The procedure that a call finds is in the tables. -/
theorem Tables.callee_excused (name : Token) (count : Nat) :
    Excused t calls (t.callee name count) ∧
      ∀ p, t.callee name count = .ok p → t.procedures.get? name.text = some p := by
  unfold callee
  split
  · exact ⟨.other rfl (List.Subset.refl _), fun p h => by cases h⟩
  · rename_i p hp
    split
    · refine ⟨.ok p, ?_⟩
      rintro _ ⟨⟩
      exact hp
    · exact ⟨.other rfl (List.nil_subset _), fun p h => by cases h⟩

theorem ListLiteral.check_opening (l : ListLiteral) : l.check.1.opening = l.opening := by
  unfold check
  split
  · rfl
  · split
    · rfl
    · split <;> rfl

theorem Expr.check_anchor (e : Expr) : (e.check t ctx).1.anchor = e.anchor := by
  cases e with
  | name i => exact i.check_token t ctx
  | call callee args slot =>
    rw [check]
    split
    · rfl
    · split <;> rfl
  | index target opening position slot =>
    rw [check]
    split
    · rfl
    · split
      · rfl
      · split <;> rfl
  | literal l =>
    rw [check, Literal.check]
    cases l.type <;> rfl
  | list l => exact l.check_opening
  | binary op symbol lhs rhs slot =>
    rw [check]
    split
    · rfl
    · split
      · rfl
      · split <;> rfl
  | unary op symbol operand slot =>
    rw [check]
    split
    · rfl
    · split <;> rfl

mutual

theorem Expr.check_excused (e : Expr) (hsub : e.calls ⊆ calls) :
    Excused t calls (e.check t ctx).2 := by
  cases e with
  | name i =>
    rw [Expr.check]
    exact i.check_excused t ctx calls
  | call callee args slot =>
    obtain ⟨hcallee, hfound⟩ := t.callee_excused calls callee args.length
    obtain ⟨hcall, hargs⟩ := List.cons_subset.1 hsub
    rw [Expr.check_call_snd]
    refine hcallee.bind fun p hp => Excused.bind ?_ fun _ _ => .ok _
    exact Expr.checkArgs_excused args p.parameters hcall (hfound p hp) (List.Subset.refl _)
      (List.Subset.refl _) hargs
  | index target opening position slot =>
    obtain ⟨htarget, hposition⟩ := List.append_subset.1 hsub
    rw [Expr.check_index_snd]
    refine (Expr.check_excused target htarget).bind fun targetTy _ => ?_
    refine (Expr.check_excused position hposition).bind fun found _ => ?_
    exact elementType_excused t calls opening targetTy _ found
  | literal l =>
    rw [Expr.check]
    exact l.check_excused t calls
  | list l =>
    rw [Expr.check]
    exact l.check_excused t calls
  | binary op symbol lhs rhs slot =>
    obtain ⟨hlhs, hrhs⟩ := List.append_subset.1 hsub
    rw [Expr.check_binary_snd]
    refine (Expr.check_excused lhs hlhs).bind fun lhsTy _ => ?_
    refine (Expr.check_excused rhs hrhs).bind fun rhsTy _ => ?_
    exact op.check_excused t calls symbol lhsTy rhsTy
  | unary op symbol operand slot =>
    rw [Expr.check_unary_snd]
    refine (Expr.check_excused operand hsub).bind fun operandTy _ => ?_
    exact op.check_excused t calls symbol operandTy

/-- What is left of the arguments and of the parameters of one of the calls. -/
theorem Expr.checkArgs_excused (es : List Expr) (ps : List (String × Ty)) {c : Call}
    {p : Procedure} (hc : c ∈ calls) (hp : t.procedures.get? c.callee.text = some p)
    (hes : es ⊆ c.args) (hps : ps ⊆ p.parameters) (hsub : Expr.callsOf es ⊆ calls) :
    Excused t calls (Expr.checkArgs t ctx ps es).2 := by
  cases es with
  | nil => exact .ok ()
  | cons e es =>
    cases ps with
    | nil => exact .ok ()
    | cons parameter ps =>
      obtain ⟨he, hes⟩ := List.cons_subset.1 hes
      obtain ⟨hparameter, hps⟩ := List.cons_subset.1 hps
      obtain ⟨hhead, htail⟩ := List.append_subset.1 hsub
      have hhead := Expr.check_excused e hhead
      have htail := Expr.checkArgs_excused es ps hc hp hes hps htail
      have hanchor := e.check_anchor t ctx
      rw [Expr.checkArgs]
      generalize e.check t ctx = checked at hhead hanchor ⊢
      obtain ⟨e', e₁ | found⟩ := checked
      · exact .error hhead.explained
      dsimp only at hanchor ⊢
      split
      · exact htail
      · rw [hanchor]
        exact .error (.argument hc he hp hparameter found)

end

theorem checkCall_excused {callee : Token} {args : List Expr} (hc : ⟨callee, args⟩ ∈ calls)
    (hsub : Expr.callsOf args ⊆ calls) : Excused t calls (checkCall t ctx callee args).2 := by
  rw [checkCall_snd callee args none]
  exact Expr.check_excused t ctx calls _ (List.cons_subset.2 ⟨hc, hsub⟩)

theorem Target.check_excused (target : Target) (hsub : target.calls ⊆ calls) :
    Excused t calls (target.check t ctx).2 := by
  cases target with
  | name i =>
    rw [check]
    exact i.check_excused t ctx calls
  | element base opening position slot =>
    obtain ⟨hbase, hposition⟩ := List.append_subset.1 hsub
    have hbase := base.check_excused t ctx calls hbase
    have hposition := position.check_excused t ctx calls hposition
    rw [check]
    generalize base.check t ctx = c at hbase ⊢
    obtain ⟨base', e | baseTy⟩ := c
    · exact hbase
    dsimp only
    generalize position.check t ctx = c at hposition ⊢
    obtain ⟨position', e | found⟩ := c
    · exact hposition
    have helement := elementType_excused t calls opening baseTy position' found
    dsimp only
    generalize elementType opening baseTy position' found = found at helement ⊢
    cases helement with
    | ok ty => exact .ok ty
    | error h => exact .error h

theorem checkCondition_excused (keyword : Token) {condition : Expr}
    (hsub : condition.calls ⊆ calls) :
    Excused t calls (checkCondition t ctx keyword condition).2 := by
  have hcondition := condition.check_excused t ctx calls hsub
  rw [checkCondition]
  generalize condition.check t ctx = c at hcondition ⊢
  obtain ⟨condition', e | found⟩ := c
  · exact .error hcondition.explained
  dsimp only
  split
  · exact .ok ()
  · exact .other rfl (List.nil_subset _)

theorem checkAssignment_excused {target : Target} (symbol : Token) {value : Expr}
    (htarget : target.calls ⊆ calls) (hvalue : value.calls ⊆ calls) :
    Excused t calls (checkAssignment t ctx target symbol value).2 := by
  have htarget := target.check_excused t ctx calls htarget
  have hvalue := value.check_excused t ctx calls hvalue
  rw [checkAssignment]
  generalize target.check t ctx = c at htarget ⊢
  obtain ⟨target', e | expected⟩ := c
  · exact .error htarget.explained
  dsimp only
  split
  · exact .other rfl (List.Subset.refl _)
  generalize value.check t ctx = c at hvalue ⊢
  obtain ⟨value', e | found⟩ := c
  · exact .error hvalue.explained
  dsimp only
  split
  · exact .ok ()
  · exact .other rfl (List.nil_subset _)

theorem checkForHead_excused (item : Identifier) {iterable : Expr}
    (hsub : iterable.calls ⊆ calls) :
    Excused t calls (checkForHead t ctx item iterable).2 := by
  have hitem := item.check_excused t ctx calls
  have hiterable := iterable.check_excused t ctx calls hsub
  rw [checkForHead]
  generalize item.check t ctx = c at hitem ⊢
  obtain ⟨item', e | itemTy⟩ := c
  · exact .error hitem.explained
  dsimp only
  generalize iterable.check t ctx = c at hiterable ⊢
  obtain ⟨iterable', e | listTy⟩ := c
  · exact .error hiterable.explained
  dsimp only
  split
  · exact .ok ()
  · exact .other rfl (List.nil_subset _)

theorem checkReturn_excused (keyword : Token) {value : Option Expr}
    (hsub : value.elim [] Expr.calls ⊆ calls) :
    Excused t calls (checkReturn t ctx keyword value).2 := by
  have hreturned : Excused t calls (checkReturned t ctx value).2 := by
    cases value with
    | none => exact .ok _
    | some value => exact value.check_excused t ctx calls hsub
  unfold checkReturn
  split
  · exact .other rfl (List.nil_subset _)
  generalize checkReturned t ctx value = c at hreturned ⊢
  obtain ⟨value', e | found⟩ := c
  · exact .error hreturned.explained
  dsimp only
  split
  · exact .ok _
  · exact .other rfl (List.nil_subset _)

end

/-- An action whose errors are explained by some calls. -/
def Action.Excusable (calls : List Call) (a : Action) : Prop :=
  ∀ t, Excused (a.perform t).1 calls (a.perform t).2

namespace Action.Excusable

variable {calls : List Call}

theorem test {check : Tables → Except SemanticError Unit} (h : ∀ t, Excused t calls (check t)) :
    Excusable calls (.test check) := h

theorem test_map {β : Type} {check : Tables → Except SemanticError β}
    (h : ∀ t, Excused t calls (check t)) :
    Excusable calls (.test fun t => (check t).map fun _ => ()) := by
  intro t
  have hcheck := h t
  change Excused t calls ((check t).map fun _ => ())
  generalize check t = found at hcheck ⊢
  cases hcheck with
  | ok => exact .ok ()
  | error h => exact .error h

theorem constant (ctx : Context) (d : ConstantDecl) : Excusable calls (.constant ctx d) := by
  intro t
  rw [perform, ConstantDecl.check]
  split
  · exact .other rfl (List.Subset.refl _)
  have hvalue : Excused t calls d.value.check.2 := by
    cases d.value with
    | simple l => exact l.check_excused t calls
    | list l => exact l.check_excused t calls
  generalize d.value.check = c at hvalue ⊢
  obtain ⟨value, e | ty⟩ := c
  · exact .error hvalue.explained
  dsimp only
  split
  · exact .other rfl (List.nil_subset _)
  · exact .ok ()

theorem binding (ctx : Context) (kind : BindingKind) (ty : Ty) (i : Identifier) :
    Excusable calls (.binding ctx kind ty i) := by
  intro t
  rw [perform, Identifier.declare]
  split
  · cases kind <;> exact .other rfl (List.Subset.refl _)
  · exact .ok ()

theorem counter (ctx : Context) (item : String) : Excusable calls (.counter ctx item) :=
  fun _ => .ok ()

theorem procedure (d : ProcedureDecl) : Excusable calls (.procedure d) := by
  intro t
  rw [perform.eq_def]
  dsimp only
  split
  · dsimp only
    split
    · exact .other rfl (List.Subset.refl _)
    · exact .other rfl (List.Subset.refl _)
  · exact .ok ()

end Action.Excusable

/-- An error of a run is the error of one of its actions. -/
theorem Action.run_excused {calls : List Call} {as : List Action}
    (h : ∀ a ∈ as, a.Excusable calls) (t : Tables) :
    Excused (run t as).1 calls (run t as).2 := by
  induction as generalizing t with
  | nil => exact .ok ()
  | cons a as ih =>
    obtain ⟨ha, has⟩ := List.forall_mem_cons.1 h
    have hfirst := ha t
    rw [run]
    generalize a.perform t = left at hfirst ⊢
    obtain ⟨t', e | _⟩ := left
    · exact hfirst
    · exact ih has t'

open TeachLang.Action

section

variable (ctx : Context) (calls : List Call)

mutual

theorem Statement.excusable_actions (s : Statement) (ctx : Context) (h : s.calls ⊆ calls) :
    ∀ a ∈ s.actions ctx, a.Excusable calls := by
  cases s with
  | assignment target symbol value slot =>
    obtain ⟨htarget, hvalue⟩ := List.append_subset.1 h
    refine List.forall_mem_singleton.2 (.test fun t => ?_)
    exact checkAssignment_excused t ctx calls symbol htarget hvalue
  | call callee args slot =>
    obtain ⟨hcall, hargs⟩ := List.cons_subset.1 h
    exact List.forall_mem_singleton.2 (.test_map fun t => checkCall_excused t ctx calls hcall hargs)
  | conditional keyword condition body elseIfs elseIfsSlot otherwise slot =>
    obtain ⟨hcondition, h⟩ := List.append_subset.1 h
    obtain ⟨hbody, h⟩ := List.append_subset.1 h
    obtain ⟨helseIfs, hotherwise⟩ := List.append_subset.1 h
    rw [Statement.actions, List.forall_mem_cons, List.forall_mem_append, List.forall_mem_append]
    exact ⟨.test fun t => checkCondition_excused t ctx calls keyword hcondition,
      Block.excusable_actions body ctx hbody, ElseIfs.excusable_actions elseIfs ctx helseIfs,
      Else.excusable_actions otherwise ctx hotherwise⟩
  | loop keyword body slot => exact Block.excusable_actions body ctx.withLoop h
  | forEach keyword item iterable body slot =>
    obtain ⟨hiterable, hbody⟩ := List.append_subset.1 h
    rw [Statement.actions, List.forall_mem_cons, List.forall_mem_cons]
    exact ⟨.test fun t => checkForHead_excused t ctx calls item hiterable, .counter ctx item.name,
      Block.excusable_actions body ctx.withLoop hbody⟩
  | returning keyword value slot =>
    exact List.forall_mem_singleton.2 (.test_map fun t => checkReturn_excused t ctx calls keyword h)
  | exit keyword slot =>
    refine List.forall_mem_singleton.2 (.test fun t => ?_)
    split
    · exact .ok ()
    · exact .other rfl (List.nil_subset _)

theorem Block.excusable_actions (b : Block) (ctx : Context) (h : b.calls ⊆ calls) :
    ∀ a ∈ b.actions ctx, a.Excusable calls := by
  cases b with
  | mk statements slot => exact Statement.excusable_allActions statements ctx h

theorem Statement.excusable_allActions (ss : List Statement) (ctx : Context)
    (h : Statement.callsOf ss ⊆ calls) :
    ∀ a ∈ Statement.allActions ctx ss, a.Excusable calls := by
  cases ss with
  | nil => simp [Statement.allActions]
  | cons s ss =>
    obtain ⟨hs, hss⟩ := List.append_subset.1 h
    rw [Statement.allActions, List.forall_mem_append]
    exact ⟨Statement.excusable_actions s ctx hs, Statement.excusable_allActions ss ctx hss⟩

theorem ElseIfs.excusable_actions (b : ElseIfs) (ctx : Context) (h : b.calls ⊆ calls) :
    ∀ a ∈ b.actions ctx, a.Excusable calls := by
  cases b with
  | nil => simp [ElseIfs.actions]
  | cons keyword condition body slot rest =>
    obtain ⟨hcondition, h⟩ := List.append_subset.1 h
    obtain ⟨hbody, hrest⟩ := List.append_subset.1 h
    rw [ElseIfs.actions, List.forall_mem_cons, List.forall_mem_append]
    exact ⟨.test fun t => checkCondition_excused t ctx calls keyword hcondition,
      Block.excusable_actions body ctx hbody, ElseIfs.excusable_actions rest ctx hrest⟩

theorem Else.excusable_actions (b : Else) (ctx : Context) (h : b.calls ⊆ calls) :
    ∀ a ∈ b.actions ctx, a.Excusable calls := by
  cases b with
  | absent => simp [Else.actions]
  | present keyword body slot => exact Block.excusable_actions body ctx h

end

theorem BindingDecl.excusable_actions (kind : BindingKind) (d : BindingDecl) :
    ∀ a ∈ d.actions ctx kind, a.Excusable calls :=
  List.forall_mem_map.2 fun i _ => .binding ctx kind d.type.denoted i

theorem excusable_localActions (constants : Option ConstantList) (vars : Option VariableList) :
    ∀ a ∈ localActions ctx constants vars, a.Excusable calls := by
  rw [localActions, List.forall_mem_append]
  constructor
  · cases constants with
    | none => simp
    | some l => exact List.forall_mem_map.2 fun d _ => .constant ctx d
  · cases vars with
    | none => simp
    | some l =>
      exact List.forall_mem_flatMap.2 fun d _ => d.excusable_actions ctx calls .var

theorem ProcedureDecl.excusable_actions {d : ProcedureDecl} (h : d.body.calls ⊆ calls) :
    ∀ a ∈ d.actions, a.Excusable calls := by
  set ctx := Context.root.withProcedure d.name.text with hctx
  rw [actions, inside, List.forall_mem_cons, List.forall_mem_append, List.forall_mem_append]
  refine ⟨.procedure d, ⟨?_, excusable_localActions ctx calls d.constants d.vars⟩,
    Block.excusable_actions calls d.body ctx h⟩
  exact List.forall_mem_flatMap.2 fun b _ => b.excusable_actions ctx calls .param

end

/-- What the check of a program says of an argument is true of one of its calls. -/
theorem Program.check_excused (p : Program) (t : Tables) :
    Excused (p.check t).2.1 p.calls (p.check t).2.2 := by
  have hactions : ∀ a ∈ p.actions, a.Excusable p.calls := by
    rw [actions, List.forall_mem_append, List.forall_mem_append]
    refine ⟨excusable_localActions .root _ p.constants p.vars, ?_, ?_⟩
    · refine List.forall_mem_flatMap.2 fun d hd => d.excusable_actions _ ?_
      exact fun c hc => List.mem_append_left _ (List.mem_flatMap.2 ⟨d, hd, hc⟩)
    · exact Block.excusable_actions _ p.statements .root (List.subset_append_right _ _)
  rw [p.performs]
  exact Action.run_excused hactions t

end TeachLang
