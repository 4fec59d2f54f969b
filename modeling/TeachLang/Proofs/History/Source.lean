import Mathlib.Data.List.Chain
import TeachLang.Proofs.Check.Parsed
import TeachLang.Proofs.History.Action

/-! # Actions of programs

The actions of every part of a program are read off the tree, in source order, and the
check of the part is the run of its actions.  Several programs that are checked one
after the other on the same tables have one history.
-/

namespace TeachLang

open TeachLang.Action

section

variable (ctx : Context)

def ConstantList.actions (l : ConstantList) : List Action := l.declarations.map (constant ctx)

def BindingDecl.actions (kind : BindingKind) (d : BindingDecl) : List Action :=
  d.names.map (binding ctx kind d.type.denoted)

def VariableList.actions (l : VariableList) : List Action :=
  l.declarations.flatMap (BindingDecl.actions ctx .var)

def ParameterList.actions (l : ParameterList) : List Action :=
  l.declarations.flatMap (BindingDecl.actions ctx .param)

theorem ConstantList.performs : Performs (ConstantList.check ctx) (actions ctx) := by
  have h : Performs (ConstantDecl.check ctx) (fun d => [constant ctx d]) := by
    intro t d
    rw [run, perform]
    rcases d.check ctx t with ⟨d', t', e | _⟩ <;> rfl
  have hlist := Performs.of_part (ConstantList.check ctx) ConstantList.declarations
    (fun _ => h.each) (fun t l => ?_)
  · simp only [← List.map_eq_flatMap] at hlist
    exact hlist
  · rw [ConstantList.check]
    rcases checkEach (ConstantDecl.check ctx) t l.declarations with ⟨_, _, e | _⟩ <;> rfl

theorem BindingDecl.performs (kind : BindingKind) :
    Performs (fun t => BindingDecl.check ctx t kind) (actions ctx kind) := by
  have h (ty : Ty) : Performs (fun t => Identifier.declare ctx t kind ty)
      (fun i => [binding ctx kind ty i]) := by
    intro t i
    change (i.declare ctx t kind ty).2 = _
    rw [run, perform]
    rcases i.declare ctx t kind ty with ⟨i', t', e | _⟩ <;> rfl
  have hnames := Performs.of_part (fun t => BindingDecl.check ctx t kind) BindingDecl.names
    (fun d => (h d.type.denoted).each) (fun t d => ?_)
  · simp only [← List.map_eq_flatMap] at hnames
    exact hnames
  · rw [BindingDecl.check]
    rcases checkEach (fun t => Identifier.declare ctx t kind d.type.denoted) t d.names
      with ⟨_, _, e | _⟩ <;> rfl

theorem VariableList.performs : Performs (VariableList.check ctx) (actions ctx) := by
  refine Performs.of_part (VariableList.check ctx) VariableList.declarations
    (fun _ => (BindingDecl.performs ctx .var).each) fun t l => ?_
  rw [VariableList.check]
  rcases checkEach (fun t => BindingDecl.check ctx t .var) t l.declarations with ⟨_, _, e | _⟩ <;>
    rfl

theorem ParameterList.performs : Performs (ParameterList.check ctx) (actions ctx) := by
  refine Performs.of_part (ParameterList.check ctx) ParameterList.declarations
    (fun _ => (BindingDecl.performs ctx .param).each) fun t l => ?_
  rw [ParameterList.check]
  rcases checkEach (fun t => BindingDecl.check ctx t .param) t l.declarations with
    ⟨_, _, e | _⟩ <;> rfl

end

def localActions (ctx : Context) (constants : Option ConstantList) (vars : Option VariableList) :
    List Action :=
  constants.elim [] (·.actions ctx) ++ vars.elim [] (·.actions ctx)

mutual

def Statement.actions (ctx : Context) : Statement → List Action
  | .assignment target symbol value _ =>
    [test fun t => (checkAssignment t ctx target symbol value).2]
  | .call callee args _ => [test fun t => (checkCall t ctx callee args).2.map fun _ => ()]
  | .conditional keyword condition body elseIfs _ otherwise _ =>
    test (fun t => (checkCondition t ctx keyword condition).2) ::
      (body.actions ctx ++ (elseIfs.actions ctx ++ otherwise.actions ctx))
  | .loop _ body _ => body.actions ctx.withLoop
  | .forEach _ item iterable body _ =>
    test (fun t => (checkForHead t ctx item iterable).2) :: counter ctx item.name ::
      body.actions ctx.withLoop
  | .returning keyword value _ =>
    [test fun t => (checkReturn t ctx keyword value).2.map fun _ => ()]
  | .exit keyword _ =>
    [test fun _ => if ctx.insideLoop then .ok () else .error ⟨.unexpectedExit, keyword⟩]

def Block.actions (ctx : Context) : Block → List Action
  | .mk statements _ => Statement.allActions ctx statements

def Statement.allActions (ctx : Context) : List Statement → List Action
  | [] => []
  | s :: ss => s.actions ctx ++ Statement.allActions ctx ss

def ElseIfs.actions (ctx : Context) : ElseIfs → List Action
  | .nil => []
  | .cons keyword condition body _ rest =>
    test (fun t => (checkCondition t ctx keyword condition).2) ::
      (body.actions ctx ++ rest.actions ctx)

def Else.actions (ctx : Context) : Else → List Action
  | .absent => []
  | .present _ body _ => body.actions ctx

end

mutual

theorem Statement.performs (ctx : Context) (t : Tables) (s : Statement) :
    (s.check ctx t).2 = run t (s.actions ctx) := by
  cases s with
  | assignment target symbol value slot =>
    rw [Statement.check, Statement.actions, run, perform]
    rcases checkAssignment t ctx target symbol value with ⟨_, e | _⟩ <;> rfl
  | call callee args slot =>
    rw [Statement.check, Statement.actions, run, perform]
    rcases checkCall t ctx callee args with ⟨_, e | _⟩ <;> rfl
  | conditional keyword condition body elseIfs elseIfsSlot otherwise slot =>
    rw [Statement.check, Statement.actions, run, perform]
    rcases checkCondition t ctx keyword condition with ⟨_, e | _⟩
    · rfl
    dsimp only
    rw [run_append, ← Block.performs ctx t body]
    rcases body.check ctx t with ⟨body', t₁, e | _⟩
    · rfl
    dsimp only
    rw [run_append, ← ElseIfs.performs ctx t₁ elseIfs]
    rcases elseIfs.check ctx t₁ with ⟨elseIfs', t₂, e | _⟩
    · rfl
    dsimp only
    rw [← Else.performs ctx t₂ otherwise]
    rcases otherwise.check ctx t₂ with ⟨otherwise', t₃, e | _⟩ <;> rfl
  | loop keyword body slot =>
    rw [Statement.check, Statement.actions, ← Block.performs ctx.withLoop t body]
    rcases body.check ctx.withLoop t with ⟨body', t', e | _⟩ <;> rfl
  | forEach keyword item iterable body slot =>
    have hname := checkForHead_name t ctx item iterable
    rw [Statement.check, Statement.actions, run, perform]
    generalize checkForHead t ctx item iterable = head at hname ⊢
    obtain ⟨⟨item', iterable'⟩, e | _⟩ := head
    · rfl
    dsimp only at hname ⊢
    rw [hname, run, perform]
    dsimp only
    rw [← Block.performs ctx.withLoop _ body]
    rcases body.check ctx.withLoop _ with ⟨body', t', e | _⟩ <;> rfl
  | returning keyword value slot =>
    rw [Statement.check, Statement.actions, run, perform]
    rcases checkReturn t ctx keyword value with ⟨_, e | _⟩ <;> rfl
  | exit keyword slot =>
    rw [Statement.check, Statement.actions, run, perform]
    cases ctx.insideLoop <;> rfl

theorem Block.performs (ctx : Context) (t : Tables) (b : Block) :
    (b.check ctx t).2 = run t (b.actions ctx) := by
  cases b with
  | mk statements slot =>
    rw [Block.check, Block.actions, ← Statement.all_performs ctx t statements]
    rcases Statement.checkAll ctx t statements with ⟨statements', t', e | _⟩ <;> rfl

theorem Statement.all_performs (ctx : Context) (t : Tables) (ss : List Statement) :
    (Statement.checkAll ctx t ss).2 = run t (Statement.allActions ctx ss) := by
  cases ss with
  | nil => rfl
  | cons s ss =>
    rw [Statement.checkAll, Statement.allActions, run_append, ← Statement.performs ctx t s]
    rcases s.check ctx t with ⟨s', t', e | _⟩
    · rfl
    · exact Statement.all_performs ctx t' ss

theorem ElseIfs.performs (ctx : Context) (t : Tables) (b : ElseIfs) :
    (b.check ctx t).2 = run t (b.actions ctx) := by
  cases b with
  | nil => rfl
  | cons keyword condition body slot rest =>
    rw [ElseIfs.check, ElseIfs.actions, run, perform]
    rcases checkCondition t ctx keyword condition with ⟨_, e | _⟩
    · rfl
    dsimp only
    rw [run_append, ← Block.performs ctx t body]
    rcases body.check ctx t with ⟨body', t', e | _⟩
    · rfl
    · exact ElseIfs.performs ctx t' rest

theorem Else.performs (ctx : Context) (t : Tables) (b : Else) :
    (b.check ctx t).2 = run t (b.actions ctx) := by
  cases b with
  | absent => rfl
  | present keyword body slot =>
    rw [Else.check, Else.actions, ← Block.performs ctx t body]
    rcases body.check ctx t with ⟨body', t', e | _⟩ <;> rfl

end

namespace ProcedureDecl

def inside (ctx : Context) (d : ProcedureDecl) : List Action :=
  d.parameters.actions ctx ++ localActions ctx d.constants d.vars ++ d.body.actions ctx

def actions (d : ProcedureDecl) : List Action :=
  Action.procedure d :: d.inside (Context.root.withProcedure d.name.text)

theorem checkInside_performs (ctx : Context) : Performs (checkInside ctx) (inside ctx) := by
  intro t d
  have hdeclared := ((ParameterList.performs ctx).both
    ((ConstantList.performs ctx).option.both (VariableList.performs ctx).option))
    t (d.parameters, d.constants, d.vars)
  change (d.checkDeclared ctx t).2 = run t (d.parameters.actions ctx ++ localActions ctx _ _)
    at hdeclared
  rw [checkInside_snd, inside, run_append, hdeclared]
  rcases run t _ with ⟨t', e | _⟩
  · rfl
  · exact d.body.performs ctx t'

theorem performs : Performs (check .root) actions := by
  intro t d
  rw [actions, run, perform]
  cases hnew : t.procedures.get? d.name.text with
  | some existing => rw [check, hnew]
  | none => rw [check_snd hnew, checkInside_performs]

end ProcedureDecl

namespace Program

def actions (p : Program) : List Action :=
  localActions .root p.constants p.vars ++
    (p.procedures.procedures.flatMap ProcedureDecl.actions ++ p.statements.actions .root)

theorem performs : Performs check actions := by
  intro t p
  have hlocals := ((ConstantList.performs .root).option.both (VariableList.performs .root).option)
    t (p.constants, p.vars)
  change _ = run t (localActions .root p.constants p.vars) at hlocals
  rw [check_snd, actions, run_append, hlocals]
  rcases run t _ with ⟨t₁, e | _⟩
  · rfl
  dsimp only
  rw [run_append, ProcedureDecl.performs.each]
  rcases run t₁ _ with ⟨t₂, e | _⟩
  · rfl
  · exact p.statements.performs .root t₂

end Program

namespace Tables

/-- The tables after some units, checked one after the other whatever comes out. -/
def afterUnits (t : Tables) (units : List Program) : Tables :=
  units.foldl (fun t p => (p.check t).2.1) t

/-- The tables after each action of some units. -/
def moments (t : Tables) : List Program → List Tables
  | [] => []
  | p :: ps => trail t p.actions ++ moments (p.check t).2.1 ps

/-- The tables at every moment of a session, its start included. -/
def history (t : Tables) (units : List Program) : List Tables := t :: t.moments units

/-- A history ends with the tables that the checks of its units leave. -/
theorem getLast?_history (t : Tables) (units : List Program) :
    (t.history units).getLast? = some (t.afterUnits units) := by
  induction units generalizing t with
  | nil => rfl
  | cons p ps ih =>
    have hunit := getLast?_trail t p.actions
    have hrest := ih (p.check t).2.1
    rw [← p.performs] at hunit
    rw [history, List.getLast?_cons, Option.some.injEq] at hrest
    rw [history, moments, ← List.cons_append, List.getLast?_append, hunit, afterUnits,
      List.foldl_cons, ← afterUnits, ← hrest, Option.or_some]

theorem history_suffix (t : Tables) (p : Program) (ps : List Program) :
    (p.check t).2.1.history ps <:+ t.history (p :: ps) := by
  have hend := getLast?_trail t p.actions
  rw [← p.performs] at hend
  obtain ⟨front, hfront⟩ := List.getLast?_eq_some_iff.1 hend
  refine ⟨front, ?_⟩
  rw [history, history, moments, ← List.cons_append, hfront, List.append_assoc,
    List.singleton_append]

/-- What makes some tables the moments of a session.  They start with the tables that the session
starts from and end with those that it leaves.  The check of each unit is the run of its actions on
what the units before it have left, and the tables that this run goes through stand in a row. -/
structure IsHistory (t : Tables) (units : List Program) (moments : List Tables) : Prop where
  starts : moments.head? = some t
  ends : moments.getLast? = some (t.afterUnits units)
  checks : ∀ before p after, units = before ++ p :: after →
    (p.check (t.afterUnits before)).2 = run (t.afterUnits before) p.actions ∧
      t.afterUnits before :: trail (t.afterUnits before) p.actions <:+: moments

theorem isHistory_history (t : Tables) (units : List Program) :
    t.IsHistory units (t.history units) where
  starts := rfl
  ends := t.getLast?_history units
  checks before p after hunits := by
    refine ⟨p.performs _, ?_⟩
    subst hunits
    induction before generalizing t with
    | nil => exact (List.prefix_append _ _).isInfix
    | cons q before ih =>
      exact (ih (q.check t).2.1).trans (t.history_suffix q (before ++ p :: after)).isInfix

section

variable {M : Tables → Prop} {units : List Program} {t : Tables}

/-- What the actions of every unit preserve holds at every moment of a session. -/
theorem forall_mem_history (h : ∀ p ∈ units, ∀ t, M t → ∀ t' ∈ trail t p.actions, M t')
    (ht : M t) : ∀ t' ∈ t.history units, M t' := by
  induction units generalizing t with
  | nil => simpa [history, moments] using ht
  | cons p ps ih =>
    obtain ⟨hp, hps⟩ := List.forall_mem_cons.1 h
    have hunit : ∀ t' ∈ t :: trail t p.actions, M t' := List.forall_mem_cons.2 ⟨ht, hp t ht⟩
    have hend : M (p.check t).2.1 := by
      rw [p.performs]
      exact hunit _ (run_fst_mem t p.actions)
    rw [history, moments, ← List.cons_append, List.forall_mem_append]
    exact ⟨hunit, fun t' ht' => ih hps hend t' (List.mem_cons_of_mem _ ht')⟩

/-- Consecutive moments of a session are related as the actions of its units relate them. -/
theorem isChain_history {R : Tables → Tables → Prop}
    (h : ∀ p ∈ units, ∀ t, M t → ∀ t' ∈ trail t p.actions, M t')
    (hsteps : ∀ p ∈ units, ∀ t, M t → (t :: trail t p.actions).IsChain R) (ht : M t) :
    (t.history units).IsChain R := by
  induction units generalizing t with
  | nil => exact .singleton t
  | cons p ps ih =>
    obtain ⟨hp, hps⟩ := List.forall_mem_cons.1 h
    obtain ⟨hchain, hchains⟩ := List.forall_mem_cons.1 hsteps
    have hend : (p.check t).2.1 = (run t p.actions).1 := by rw [p.performs]
    have hlast : M (p.check t).2.1 := by
      rw [hend]
      exact List.forall_mem_cons.2 ⟨ht, hp t ht⟩ _ (run_fst_mem t p.actions)
    have hlater := ih hps hchains hlast
    rw [history, moments, ← List.cons_append, List.isChain_append]
    refine ⟨hchain t ht, hlater.tail, fun a ha b hb => ?_⟩
    rw [getLast?_trail, Option.mem_some_iff, ← hend] at ha
    exact ha ▸ hlater.rel_head? hb

end

end Tables
end TeachLang
