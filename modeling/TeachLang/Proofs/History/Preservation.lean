import TeachLang.Proofs.History.Regular

/-! # Preservation

The actions of a grammatical program find what they need when their turn comes: a parameter is the
next one that its procedure declares, and the other actions inside of a procedure find its row with
all of them.  So every moment of the check of the program is regular.
-/

namespace TeachLang

open TeachLang.Action

/-- The tables have a declared procedure with its return type and all of its parameters. -/
def Tables.Defines (t : Tables) (d : ProcedureDecl) : Prop :=
  ∃ p, t.procedures.get? d.name.text = some p ∧ p.builtin = false ∧
    p.returnType = d.returnType.denoted ∧ p.parameters = d.parameters.parameters

/-- The procedure of a declaration, as it is while some of its parameters have yet to come. -/
structure Procedure.Opened (d : ProcedureDecl) (names : List (Ty × Identifier)) (p : Procedure) :
    Prop where
  user : p.builtin = false
  returns : p.returnType = d.returnType.denoted
  positioned : p.symbols.Positioned
  only : ∀ x r, p.symbols.get? x = some r → r.kind = .param
  rest : p.parameters ++ names.map (fun n => (n.2.name, n.1)) = d.parameters.parameters

/-- The tables have the procedure of a declaration without some of its parameters. -/
def Tables.Opens (t : Tables) (d : ProcedureDecl) (names : List (Ty × Identifier)) : Prop :=
  ∃ p, t.procedures.get? d.name.text = some p ∧ p.Opened d names

/-- The tables have the procedure that a check stands in, if it stands in one, with all of its
parameters. -/
def Tables.Hosts (declared : List ProcedureDecl) (t : Tables) (procedure : Option String) : Prop :=
  ∀ q ∈ procedure, ∃ d ∈ declared, d.name.text = q ∧ t.Defines d

section

variable {t t' : Tables} {ctx : Context} {declared : List ProcedureDecl} {d : ProcedureDecl}

theorem Tables.hosts_root (t : Tables) : t.Hosts declared Context.root.procedure := nofun

theorem Tables.declare_of_root (h : ctx.procedure = none) (name : String) (r : Register) :
    t.declare ctx name r = { t with globals := t.globals.insert name r } := by
  simp [declare, h]

theorem Tables.declare_of_procedure {q : String} {p : Procedure} (hq : ctx.procedure = some q)
    (hp : t.procedures.get? q = some p) (name : String) (r : Register) :
    t.declare ctx name r =
      { t with
        procedures := t.procedures.insert q { p with symbols := p.symbols.insert name r } } := by
  simp [declare, current?, hq, hp]

theorem Tables.scope_of_procedure {q : String} {p : Procedure} (hq : ctx.procedure = some q)
    (hp : t.procedures.get? q = some p) : t.scope ctx = p.symbols := by
  simp [scope, current?, hq, hp]

theorem BindingKind.register_param {q : String} {p : Procedure} (hq : ctx.procedure = some q)
    (hp : t.procedures.get? q = some p) (ty : Ty) :
    param.register ctx t ty = .param ty p.arity := by
  simp [register, Tables.current?, hq, hp]

/-- A row that is no parameter takes no parameter away. -/
theorem Tables.Defines.declare (h : t.Defines d) {x : String} {r : Register}
    (hkind : r.kind ≠ .param) (hold : ∀ v, (t.scope ctx).get? x = some v → v.kind ≠ .param) :
    (t.declare ctx x r).Defines d := by
  obtain ⟨p, hp, huser, hreturns, hparameters⟩ := h
  rw [Defines, get?_procedures_declare, hp]
  split
  next hq =>
    rw [scope_of_procedure hq hp] at hold
    have hkept := p.parameters_insert_of_not_param hkind hold
    exact ⟨_, rfl, huser, hreturns, hkept.trans hparameters⟩
  next => exact ⟨p, rfl, huser, hreturns, hparameters⟩

theorem Tables.Defines.hosts (h : t.Defines d) (known : d ∈ declared) :
    t.Hosts declared (some d.name.text) := by
  rintro q ⟨⟩
  exact ⟨d, known, rfl, h⟩

namespace Tables.Opens

variable {ty : Ty} {i : Identifier} {names : List (Ty × Identifier)}

theorem withProcedure (t : Tables) (d : ProcedureDecl)
    (hnames : names.map (fun n => (n.2.name, n.1)) = d.parameters.parameters) :
    (t.withProcedure d).Opens d names := by
  refine ⟨_, t.current?_withProcedure d, rfl, rfl, SymbolTable.positioned_empty, nofun, ?_⟩
  rw [Procedure.parameters_user, hnames, List.nil_append]

/-- A parameter is the next one, if its name is new. -/
theorem perform (h : t.Opens d ((ty, i) :: names)) (stands : ctx.procedure = some d.name.text)
    (hok : (Action.binding ctx .param ty i).perform t = (t', .ok ())) : t'.Opens d names := by
  obtain ⟨p, hp, hopened⟩ := h
  have hleaves := perform_leaves t (.binding ctx .param ty i)
  rw [hok] at hleaves
  cases hleaves with | binding fresh =>
  rw [scope_of_procedure stands hp] at fresh
  have hfresh : p.symbols.Fresh (SymbolTable.parameterRegisters p.arity [(i.name, ty)]) := by
    simp [SymbolTable.fresh_iff, SymbolTable.map_fst_parameterRegisters, fresh]
  obtain ⟨hpositioned, hparameters⟩ := p.parameters_insertAll hopened.positioned hfresh
  rw [BindingKind.register_param stands hp, declare_of_procedure stands hp]
  refine ⟨_, NameMap.get?_insert_self _ _ _, hopened.user, hopened.returns, hpositioned,
    NameMap.forall_get?_insert hopened.only (by simp), ?_⟩
  have hrest := hopened.rest
  rw [List.map_cons, List.append_cons] at hrest
  exact (congrArg (· ++ _) hparameters).trans hrest

theorem defines (h : t.Opens d []) : t.Defines d := by
  obtain ⟨p, hp, hopened⟩ := h
  exact ⟨p, hp, hopened.user, hopened.returns, by simpa using hopened.rest⟩

/-- Behind its parameters a procedure has all of them. -/
theorem defines_of_run (h : t.Opens d names) (stands : ctx.procedure = some d.name.text)
    (hok : run t (names.map fun n => .binding ctx .param n.1 n.2) = (t', .ok ())) :
    t'.Defines d := by
  induction names generalizing t with
  | nil =>
    cases hok
    exact h.defines
  | cons n names ih =>
    obtain ⟨t₁, hfirst, hrest⟩ := run_cons_eq_ok_iff.1 hok
    exact ih (h.perform stands hfirst) hrest

end Tables.Opens

namespace Tables.Regular

theorem declare (h : t.Regular declared) (hctx : t.Hosts declared ctx.procedure) {x : String}
    {r : Register} (hr : r.Lawful x) (hkind : r.kind ≠ .param)
    (hold : ∀ v, (t.scope ctx).get? x = some v → v.kind ≠ .param) :
    (t.declare ctx x r).Regular declared := by
  cases hq : ctx.procedure with
  | none =>
    rw [declare_of_root hq]
    exact h.insertGlobal hr hkind
  | some q =>
    obtain ⟨d, hd, rfl, p, hp, huser, hreturns, hparameters⟩ := hctx q hq
    rw [scope_of_procedure hq hp] at hold
    rw [declare_of_procedure hq hp]
    refine h.insertProcedure (fun old hget => ?_) ?_
    · obtain rfl := Option.some.inj (hp.symm.trans hget)
      exact huser
    · have hregular := h.procedures _ p hp
      exact hregular.insert_of_not_param hd rfl huser hreturns hparameters hr hkind hold

/-- The hidden counter of a loop comes new or over the same row. -/
theorem counter_row (h : t.Regular declared) {item : String} {r : Register}
    (hr : (t.scope ctx).get? (counterName item) = some r) : r = .var .int := by
  unfold scope at hr
  split at hr
  next p hp =>
    obtain ⟨q, -, hget⟩ := Option.bind_eq_some_iff.1 hp
    exact ((h.procedures q p hget).rows _ r hr).hidden ⟨item, rfl⟩
  next => exact (h.globals _ r hr).1.hidden ⟨item, rfl⟩

end Tables.Regular

/-- What an action needs so that it leaves regular tables. -/
inductive Action.Fits (declared : List ProcedureDecl) (t : Tables) : Action → Prop
  | test (check : Tables → Except SemanticError Unit) : Fits declared t (.test check)
  | constant {ctx : Context} {d : ConstantDecl} (stands : t.Hosts declared ctx.procedure)
      (written : d.Grammatical) : Fits declared t (.constant ctx d)
  | var {ctx : Context} {ty : Ty} {i : Identifier} (stands : t.Hosts declared ctx.procedure)
      (type : ty.Concrete) (written : i.Grammatical) : Fits declared t (.binding ctx .var ty i)
  | param {ctx : Context} {ty : Ty} {i : Identifier} {d : ProcedureDecl}
      {names : List (Ty × Identifier)} (type : ty.Concrete) (written : i.Grammatical)
      (known : d ∈ declared) (stands : ctx.procedure = some d.name.text)
      (next : t.Opens d ((ty, i) :: names)) : Fits declared t (.binding ctx .param ty i)
  | counter {ctx : Context} (stands : t.Hosts declared ctx.procedure) (item : String) :
      Fits declared t (.counter ctx item)
  | procedure {d : ProcedureDecl} (known : d ∈ declared) : Fits declared t (.procedure d)

/-- Every action that fits preserves regular tables, whether it succeeds or not. -/
theorem Action.Fits.regular {a : Action} (h : a.Fits declared t) (ht : t.Regular declared) :
    (a.perform t).1.Regular declared := by
  have hleaves := perform_leaves t a
  generalize a.perform t = left at hleaves ⊢
  cases hleaves with
  | test | error => exact ht
  | constant fresh found nonempty =>
    cases h with | constant stands written =>
    have hname := not_isCounter_of_writes written.1
    have hlawful := Register.lawful_const found nonempty hname
    exact ht.declare stands hlawful (by simp) (by simp [fresh])
  | @binding ctx kind ty i fresh =>
    cases h with
    | var stands type written =>
      have hname := not_isCounter_of_writes written
      have hkind : (Register.var ty).kind ≠ .param := by simp
      exact ht.declare stands (Register.lawful_var type hname) hkind (by simp [fresh])
    | param type written known stands next =>
      obtain ⟨p, found, user, returns, -, only, rest⟩ := next
      rw [Tables.scope_of_procedure stands found] at fresh
      rw [BindingKind.register_param stands found, Tables.declare_of_procedure stands found]
      rw [List.map_cons, List.append_cons] at rest
      refine ht.insertProcedure (fun old hget => ?_) ?_
      · obtain rfl := Option.some.inj (found.symm.trans hget)
        exact user
      · exact (ht.procedures _ p found).insert_param type (not_isCounter_of_writes written)
          fresh known rfl user returns only (rest ▸ List.prefix_append _ _)
  | counter ctx item =>
    cases h with | counter stands =>
    refine ht.declare stands (Register.lawful_counter item) (by simp) fun v hv => ?_
    simp [ht.counter_row hv]
  | procedure fresh =>
    cases h with | procedure known =>
    refine ht.insertProcedure (fun old hget => ?_) (Procedure.Regular.of_user known)
    simp [fresh] at hget

end

/-- Actions of one place that need no more there than its procedure. -/
inductive Action.Local (procedure : Option String) : Action → Prop
  | test (check : Tables → Except SemanticError Unit) : Local procedure (.test check)
  | constant {ctx : Context} {d : ConstantDecl} (place : ctx.procedure = procedure)
      (written : d.Grammatical) : Local procedure (.constant ctx d)
  | var {ctx : Context} {ty : Ty} {i : Identifier} (place : ctx.procedure = procedure)
      (type : ty.Concrete) (written : i.Grammatical) : Local procedure (.binding ctx .var ty i)
  | counter {ctx : Context} (place : ctx.procedure = procedure) (item : String) :
      Local procedure (.counter ctx item)

section

variable (ctx : Context)

theorem local_localActions {constants : Option ConstantList} {vars : Option VariableList}
    (hconstants : ∀ l ∈ constants, l.Grammatical) (hvars : ∀ l ∈ vars, l.Grammatical) :
    ∀ a ∈ localActions ctx constants vars, a.Local ctx.procedure := by
  intro a ha
  rcases List.mem_append.1 ha with ha | ha
  · cases constants with
    | none => cases ha
    | some l =>
      obtain ⟨d, hd, rfl⟩ := List.mem_map.1 ha
      exact .constant rfl ((hconstants l rfl).declarations d hd)
  · cases vars with
    | none => cases ha
    | some l =>
      obtain ⟨d, hd, ha⟩ := List.mem_flatMap.1 ha
      obtain ⟨i, hi, rfl⟩ := List.mem_map.1 ha
      have hgrammatical := (hvars l rfl).declarations d hd
      exact .var rfl (TypeExpr.concrete_denoted hgrammatical.written) (hgrammatical.names i hi)

mutual

theorem Statement.local_actions (ctx : Context) (s : Statement) :
    ∀ a ∈ s.actions ctx, a.Local ctx.procedure := by
  intro a ha
  cases s with
  | assignment | call | returning | exit =>
    rw [Statement.actions, List.mem_singleton] at ha
    exact ha ▸ .test _
  | conditional keyword condition body elseIfs elseIfsSlot otherwise slot =>
    simp only [Statement.actions, List.mem_cons, List.mem_append] at ha
    rcases ha with rfl | ha | ha | ha
    · exact .test _
    · exact Block.local_actions ctx body a ha
    · exact ElseIfs.local_actions ctx elseIfs a ha
    · exact Else.local_actions ctx otherwise a ha
  | loop keyword body slot =>
    rw [Statement.actions] at ha
    exact Block.local_actions ctx.withLoop body a ha
  | forEach keyword item iterable body slot =>
    simp only [Statement.actions, List.mem_cons] at ha
    rcases ha with rfl | rfl | ha
    · exact .test _
    · exact .counter rfl _
    · exact Block.local_actions ctx.withLoop body a ha

theorem Block.local_actions (ctx : Context) (b : Block) :
    ∀ a ∈ b.actions ctx, a.Local ctx.procedure := by
  cases b with
  | mk statements slot => exact Statement.local_allActions ctx statements

theorem Statement.local_allActions (ctx : Context) (ss : List Statement) :
    ∀ a ∈ Statement.allActions ctx ss, a.Local ctx.procedure := by
  intro a ha
  cases ss with
  | nil => simp [Statement.allActions] at ha
  | cons s ss =>
    rw [Statement.allActions] at ha
    rcases List.mem_append.1 ha with ha | ha
    · exact Statement.local_actions ctx s a ha
    · exact Statement.local_allActions ctx ss a ha

theorem ElseIfs.local_actions (ctx : Context) (b : ElseIfs) :
    ∀ a ∈ b.actions ctx, a.Local ctx.procedure := by
  intro a ha
  cases b with
  | nil => simp [ElseIfs.actions] at ha
  | cons keyword condition body slot rest =>
    simp only [ElseIfs.actions, List.mem_cons, List.mem_append] at ha
    rcases ha with rfl | ha | ha
    · exact .test _
    · exact Block.local_actions ctx body a ha
    · exact ElseIfs.local_actions ctx rest a ha

theorem Else.local_actions (ctx : Context) (b : Else) :
    ∀ a ∈ b.actions ctx, a.Local ctx.procedure := by
  cases b with
  | absent => simp [Else.actions]
  | present keyword body slot =>
    rw [Else.actions]
    exact Block.local_actions ctx body

end

end

section

variable {declared : List ProcedureDecl} {t : Tables}

/-- Behind actions that fit, the tables are regular. -/
theorem Action.ready_append {as bs : List Action} (ht : t.Regular declared)
    (h : Ready (Fits declared) t as)
    (h' : ∀ t', t'.Regular declared → run t as = (t', .ok ()) → Ready (Fits declared) t' bs) :
    Ready (Fits declared) t (as ++ bs) := by
  refine h.append fun t' hrun => h' t' ?_ hrun
  have hregular := h.run_fst (fun _ _ ht ha => ha.regular ht) ht
  rwa [hrun] at hregular

section

variable {procedure : Option String} {a : Action} (h : a.Local procedure)

include h

theorem Action.Local.fits (hosts : t.Hosts declared procedure) : a.Fits declared t := by
  cases h with
  | test check => exact .test check
  | constant place written => exact .constant (place ▸ hosts) written
  | var place type written => exact .var (place ▸ hosts) type written
  | counter place item => exact .counter (place ▸ hosts) item

/-- Local actions add no parameters, and what they put over a row of regular tables is none. -/
theorem Action.Local.defines {d : ProcedureDecl} (ht : t.Regular declared) (hd : t.Defines d) :
    (a.perform t).1.Defines d := by
  have hleaves := perform_leaves t a
  generalize a.perform t = left at hleaves ⊢
  cases hleaves with
  | test | error => exact hd
  | constant fresh => exact hd.declare (by simp) (by simp [fresh])
  | binding fresh =>
    cases h with | var => exact hd.declare (by simp [BindingKind.register]) (by simp [fresh])
  | counter ctx item => exact hd.declare (by simp) fun v hv => by simp [ht.counter_row hv]
  | procedure => cases h

theorem Action.Local.hosts (ht : t.Regular declared) (hosts : t.Hosts declared procedure) :
    (a.perform t).1.Hosts declared procedure := by
  intro q hq
  obtain ⟨d, hd, hname, hdefines⟩ := hosts q hq
  exact ⟨d, hd, hname, h.defines ht hdefines⟩

end

/-- Local actions are ready wherever the procedure of their place is there. -/
theorem Action.ready_of_local {procedure : Option String} {as : List Action}
    (ht : t.Regular declared) (hosts : t.Hosts declared procedure)
    (h : ∀ a ∈ as, a.Local procedure) : Ready (Action.Fits declared) t as := by
  induction as generalizing t with
  | nil => trivial
  | cons a as ih =>
    obtain ⟨ha, has⟩ := List.forall_mem_cons.1 h
    have hfits := ha.fits hosts
    refine ⟨hfits, fun t' ht' => ?_⟩
    have hregular := hfits.regular ht
    have hhosts := ha.hosts ht hosts
    rw [ht'] at hregular hhosts
    exact ih hregular hhosts has

/-- While the parameters of a procedure are checked, its row has those that went by. -/
theorem Action.ready_parameters {ctx : Context} {d : ProcedureDecl} (known : d ∈ declared)
    (stands : ctx.procedure = some d.name.text) {names : List (Ty × Identifier)}
    (written : ∀ n ∈ names, n.1.Concrete ∧ n.2.Grammatical) (opens : t.Opens d names) :
    Ready (Action.Fits declared) t (names.map fun n => .binding ctx .param n.1 n.2) := by
  induction names generalizing t with
  | nil => trivial
  | cons n names ih =>
    obtain ⟨⟨hty, hi⟩, hnames⟩ := List.forall_mem_cons.1 written
    exact ⟨.param hty hi known stands opens, fun t' ht' => ih hnames (opens.perform stands ht')⟩

namespace ParameterList

/-- The parameters of a procedure with their types, as they are declared. -/
def names (l : ParameterList) : List (Ty × Identifier) :=
  l.declarations.flatMap fun d => d.names.map (d.type.denoted, ·)

theorem actions_eq_map (l : ParameterList) (ctx : Context) :
    l.actions ctx = l.names.map fun n => .binding ctx .param n.1 n.2 := by
  rw [actions, names, List.map_flatMap]
  simp only [List.map_map]
  rfl

theorem map_names (l : ParameterList) : l.names.map (fun n => (n.2.name, n.1)) = l.parameters := by
  rw [names, List.map_flatMap, parameters]
  simp only [List.map_map]
  rfl

theorem forall_mem_names {l : ParameterList} (h : ∀ b ∈ l.declarations, b.Grammatical) :
    ∀ n ∈ l.names, n.1.Concrete ∧ n.2.Grammatical := by
  intro n hn
  obtain ⟨b, hb, hn⟩ := List.mem_flatMap.1 hn
  obtain ⟨i, hi, rfl⟩ := List.mem_map.1 hn
  exact ⟨TypeExpr.concrete_denoted (h b hb).written, (h b hb).names i hi⟩

end ParameterList

namespace ProcedureDecl

/-- The actions of a declaration before its local declarations and its body. -/
def heading (d : ProcedureDecl) : List Action :=
  .procedure d :: d.parameters.actions (Context.root.withProcedure d.name.text)

/-- The actions of the local declarations and the body. -/
def interior (d : ProcedureDecl) : List Action :=
  let ctx := Context.root.withProcedure d.name.text
  localActions ctx d.constants d.vars ++ d.body.actions ctx

theorem actions_eq (d : ProcedureDecl) : d.actions = d.heading ++ d.interior := by
  rw [actions, inside, heading, interior, List.append_assoc]
  rfl

theorem local_interior {d : ProcedureDecl} (hd : d.Grammatical) :
    ∀ a ∈ d.interior, a.Local (some d.name.text) := by
  rw [interior, List.forall_mem_append]
  exact ⟨local_localActions _ hd.constants hd.vars, Block.local_actions _ d.body⟩

theorem opens_withProcedure (t : Tables) (d : ProcedureDecl) :
    (t.withProcedure d).Opens d d.parameters.names :=
  .withProcedure t d d.parameters.map_names

/-- A procedure has all of its parameters once its heading has been checked. -/
theorem defines_of_heading {d : ProcedureDecl} {t' : Tables}
    (hok : run t d.heading = (t', .ok ())) : t'.Defines d := by
  obtain ⟨t₁, hopened, hparameters⟩ := run_cons_eq_ok_iff.1 hok
  have hleaves := perform_leaves t (.procedure d)
  rw [hopened] at hleaves
  cases hleaves with | procedure fresh =>
  rw [d.parameters.actions_eq_map] at hparameters
  exact (opens_withProcedure t d).defines_of_run rfl hparameters

theorem ready {d : ProcedureDecl} (known : d ∈ declared) (hd : d.Grammatical)
    (ht : t.Regular declared) : Ready (Action.Fits declared) t d.actions := by
  have hheading : Ready (Action.Fits declared) t d.heading := by
    refine ⟨.procedure known, fun t' ht' => ?_⟩
    have hleaves := perform_leaves t (.procedure d)
    rw [ht'] at hleaves
    cases hleaves with | procedure fresh =>
    rw [d.parameters.actions_eq_map]
    exact ready_parameters known rfl (ParameterList.forall_mem_names hd.parameters)
      (opens_withProcedure t d)
  rw [actions_eq]
  refine ready_append ht hheading fun t₁ hregular h₁ => ?_
  exact ready_of_local hregular ((defines_of_heading h₁).hosts known) (local_interior hd)

theorem ready_all {ds : List ProcedureDecl} (known : ∀ d ∈ ds, d ∈ declared)
    (hds : ∀ d ∈ ds, d.Grammatical) (ht : t.Regular declared) :
    Ready (Action.Fits declared) t (ds.flatMap actions) := by
  induction ds generalizing t with
  | nil => trivial
  | cons d ds ih =>
    obtain ⟨hknown, hknowns⟩ := List.forall_mem_cons.1 known
    obtain ⟨hd, hds⟩ := List.forall_mem_cons.1 hds
    exact ready_append ht (ready hknown hd ht) fun t' ht' _ => ih hknowns hds ht'

end ProcedureDecl

/-- The actions of a grammatical program are ready on regular tables. -/
theorem Program.ready {p : Program} (known : ∀ d ∈ p.procedures.procedures, d ∈ declared)
    (hp : p.Grammatical) (ht : t.Regular declared) : Ready (Action.Fits declared) t p.actions := by
  have hlocals := local_localActions .root hp.constants hp.vars
  refine ready_append ht (ready_of_local ht t.hosts_root hlocals) fun t₁ h₁ _ => ?_
  refine ready_append h₁ (ProcedureDecl.ready_all known hp.procedures h₁) fun t₂ h₂ _ => ?_
  exact ready_of_local h₂ t₂.hosts_root (Block.local_actions .root p.statements)

end

end TeachLang
