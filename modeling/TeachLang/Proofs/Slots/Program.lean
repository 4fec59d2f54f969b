import TeachLang.Proofs.Check.Parsed
import TeachLang.Proofs.Slots.Declaration

/-! # Slots of programs

From a procedure on, nothing but hidden counters and further procedures comes into the
tables.  So the tables that a compilation returns tell the types of all slots.
-/

namespace TeachLang

/-- Later tables, which have only hidden counters and further procedures besides. -/
structure Tables.Extends (T t : Tables) : Prop where
  globals : ∀ x, ¬ IsCounter x → T.globals.get? x = t.globals.get? x
  procedures : ∀ q p, t.procedures.get? q = some p → ∃ p', T.procedures.get? q = some p' ∧
    p'.returnType = p.returnType ∧ ∀ x, ¬ IsCounter x → p'.symbols.get? x = p.symbols.get? x

section

variable {t t' T : Tables} {ctx : Context}

namespace Tables.Extends

theorem trans (h : T.Extends t') (h' : t'.Extends t) : T.Extends t := by
  refine ⟨fun x hx => (h.globals x hx).trans (h'.globals x hx), fun q p hp => ?_⟩
  obtain ⟨p', hp', hreturn', hsymbols'⟩ := h'.procedures q p hp
  obtain ⟨r, hr, hreturn, hsymbols⟩ := h.procedures q p' hp'
  exact ⟨r, hr, hreturn.trans hreturn', fun x hx => (hsymbols x hx).trans (hsymbols' x hx)⟩

/-- Whatever is found from a place in earlier tables keeps its type. -/
theorem keptBy (h : T.Extends t) (hctx : ∀ q ∈ ctx.procedure, (t.procedures.get? q).isSome) :
    t.KeptBy ctx T where
  names x r hx hr := by
    unfold lookup? current? at hr
    unfold typeOf?
    rw [h.globals x hx]
    cases hq : ctx.procedure with
    | none =>
      rw [hq] at hr
      exact congrArg (Option.map _) hr
    | some q =>
      obtain ⟨p, hp⟩ := Option.isSome_iff_exists.1 (hctx q hq)
      obtain ⟨p', hp', -, hsymbols⟩ := h.procedures q p hp
      rw [hq, Option.bind_some, hp, Option.bind_some] at hr
      rw [Option.bind_some, hp', Option.bind_some, hsymbols x hx, hr, Option.map_some]
  returns x ty hty := by
    obtain ⟨p, hp, rfl⟩ := Option.map_eq_some_iff.1 hty
    obtain ⟨p', hp', hreturn, -⟩ := h.procedures x p hp
    rw [returnType?, hp', Option.map_some, hreturn]

theorem of_leavesCounters {items : List String} {result : Except SemanticError Unit}
    (h : LeavesCounters .root t items (t', result)) : t'.Extends t := by
  obtain ⟨first, -, rfl, -⟩ := h
  constructor
  · exact fun x hx => t.lookup?_declareCounters .root first hx
  · intro q p hp
    rw [get?_procedures_declareAll]
    exact ⟨p, hp, rfl, fun _ _ => rfl⟩

/-- A new procedure leaves everything else as it is. -/
theorem of_procedure {d : ProcedureDecl} (hnew : t.procedures.get? d.name.text = none)
    (rows : List (String × Register)) :
    ((t.withProcedure d).declareAll (Context.root.withProcedure d.name.text) rows).Extends t := by
  have hcurrent := t.current?_withProcedure d
  constructor
  · intro x _
    rw [globals_declareAll _ _ _ (by rw [hcurrent]; rfl)]
    rfl
  · intro q p hp
    have hne : d.name.text ≠ q := by
      rintro rfl
      rw [hnew] at hp
      cases hp
    have hother : (Context.root.withProcedure d.name.text).procedure ≠ some q := by
      simpa [Context.withProcedure] using hne
    refine ⟨p, ?_, rfl, fun _ _ => rfl⟩
    rw [get?_procedures_declareAll, if_neg hother, withProcedure]
    dsimp only
    rw [NameMap.get?_insert_of_ne _ (Ne.symm hne), hp]

end Tables.Extends

namespace ProcedureDecl

theorem checkInside_cases {d d' : ProcedureDecl} (h : d.checkInside ctx t = (d', t', .ok ())) :
    ∃ parameters t₁ constants t₂ vars t₃ body,
      d.parameters.check ctx t = (parameters, t₁, .ok ()) ∧
      checkOption (ConstantList.check ctx) t₁ d.constants = (constants, t₂, .ok ()) ∧
      checkOption (VariableList.check ctx) t₂ d.vars = (vars, t₃, .ok ()) ∧
      d.body.check ctx t₃ = (body, t', .ok ()) ∧
      d' = { d with parameters, constants, vars, body } := by
  rw [checkInside] at h
  rcases hparameters : d.parameters.check ctx t with ⟨parameters, t₁, e | _⟩
  · simp [hparameters] at h
  rcases hconstants : checkOption (ConstantList.check ctx) t₁ d.constants with
    ⟨constants, t₂, e | _⟩
  · simp [hparameters, hconstants] at h
  rcases hvars : checkOption (VariableList.check ctx) t₂ d.vars with ⟨vars, t₃, e | _⟩
  · simp [hparameters, hconstants, hvars] at h
  rcases hbody : d.body.check ctx t₃ with ⟨body, t₄, result⟩
  simp only [hparameters, hconstants, hvars, hbody, Prod.mk.injEq] at h
  obtain ⟨rfl, rfl, rfl⟩ := h
  exact ⟨parameters, t₁, constants, t₂, vars, t₃, body, rfl, hconstants, hvars, hbody, rfl⟩

/-- What a procedure declares and does is settled inside of the procedure. -/
theorem checkInside_settled {d d' : ProcedureDecl} (hd : d.Grammatical)
    (h : d.checkInside ctx t = (d', t', .ok ())) (hkept : t'.KeptBy ctx T) :
    t.ScopeKeptBy ctx T ∧ d'.name = d.name ∧ d'.returnType = d.returnType ∧
      ∀ n ∈ d'.toNode.children, n = d.returnType.toNode ∨ n.Settled T ctx.procedure := by
  obtain ⟨parameters, t₁, constants, t₂, vars, t₃, body, hparameters, hconstants, hvars, hbody,
    rfl⟩ := checkInside_cases h
  have hleft := d.body.leavesCounters ctx t₃
  rw [hbody] at hleft
  have hkept₃ := (Tables.KeptBy.iff_of_leavesCounters hleft).1 hkept
  have hbody := Block.settled hkept₃ d.body hd.body hbody
  obtain ⟨hkept₂, hvars⟩ := VariableList.traces.option _ _ _ _ hd.vars hvars hkept₃.scope
  obtain ⟨hkept₁, hconstants⟩ :=
    ConstantList.traces.option _ _ _ _ hd.constants hconstants hkept₂
  obtain ⟨hkept₀, hparameters⟩ := ParameterList.traces _ _ _ _ hd.parameters hparameters hkept₁
  refine ⟨hkept₀, rfl, rfl, ?_⟩
  intro n hn
  simp only [toNode, List.mem_append, List.mem_cons, List.not_mem_nil, or_false,
    Option.mem_toList, Option.map_eq_some_iff] at hn
  rcases hn with (((rfl | rfl) | ⟨l, hl, rfl⟩) | ⟨l, hl, rfl⟩) | rfl
  · exact .inr hparameters
  · exact .inl rfl
  · exact .inr (hconstants l hl)
  · exact .inr (hvars l hl)
  · exact .inr hbody

theorem grammatical_withSlot {d : ProcedureDecl} (hd : d.Grammatical) (slot : Slot) :
    ProcedureDecl.Grammatical { d with returnType := d.returnType.withSlot slot } := by
  have htype : (d.returnType.withSlot slot).Grammatical := by
    have h := hd.returnType
    generalize d.returnType = type at h ⊢
    cases type <;> exact h
  exact { hd with returnType := htype }

theorem check_cases {d d' : ProcedureDecl} (h : d.check .root t = (d', t', .ok ())) :
    t.procedures.get? d.name.text = none ∧ ∃ inside,
      checkInside (Context.root.withProcedure d.name.text) (t.withProcedure d)
        { d with returnType := d.returnType.withSlot (some d.returnType.denoted) } =
          (inside, t', .ok ()) ∧ d' = { inside with slot := some d.returnType.denoted } := by
  unfold check at h
  split at h
  next => cases h
  next hnew =>
    dsimp only at h
    split at h
    next => cases h
    next inside t₁ hinside =>
      cases h
      exact ⟨hnew, inside, hinside, rfl⟩

theorem inner_toNode (d : ProcedureDecl) (procedure : Option String) :
    d.toNode.inner procedure = some d.name.text := rfl

/-- A procedure is settled by tables that extend those after its check. -/
theorem traces : Traces (fun t => T.Extends t) (ProcedureDecl.check .root) Grammatical
    (·.toNode.Settled T none) := by
  intro t d d' t' hd h hlater
  set ctx := Context.root.withProcedure d.name.text with hctx
  set ty := d.returnType.denoted with hty
  obtain ⟨hnew, inside, hinside, rfl⟩ := check_cases h
  have htables := check_tables hnew (by rw [h])
  rw [h, ← hctx] at htables
  dsimp only at htables
  have hbefore := hlater.trans (htables ▸ Tables.Extends.of_procedure hnew _)
  have hcurrent : (t'.current? ctx).isSome := by
    rw [htables, Tables.current?_declareAll, t.current?_withProcedure d]
    rfl
  have hkept : t'.KeptBy ctx T := hlater.keptBy fun q hq => by
    cases hq
    exact hcurrent
  obtain ⟨hstart, hname, htype, hparts⟩ :=
    checkInside_settled (grammatical_withSlot hd _) hinside hkept
  have hreturn : T.returnType? d.name.text = some ty := by
    refine hstart.returns d.name.text ty ?_
    have hself := t.current?_withProcedure d
    exact congrArg (Option.map (·.returnType)) hself
  -- No check visits the annotation of the return type; its slot is set at the start.
  have hannotation : (d.returnType.withSlot (some ty)).toNode.SettledAs T ctx.procedure ty :=
    TypeExpr.settledAs hd.returnType ctx.procedure
  have hslot : (ProcedureDecl.toNode { inside with slot := some ty }).slot = some ty := rfl
  refine ⟨hbefore, .mk hslot ?_ ?_⟩
  · refine ⟨inside.name, _, _, _, rfl, by rw [hname, hreturn], rfl, ?_⟩
    rw [htype]
    exact hannotation.slot
  · intro n hn
    have hinner : (some inside.name.text) = ctx.procedure := by
      rw [hname]
      rfl
    rw [inner_toNode, hinner]
    rcases hparts n hn with rfl | hsettled
    · exact hannotation.settled
    · exact hsettled

end ProcedureDecl

theorem ProcedureList.traces : Traces (fun t => T.Extends t) (ProcedureList.check .root)
    (fun l => ∀ d ∈ l.procedures, d.Grammatical) (·.toNode.Settled T none) := by
  intro t l l' t' hl h hlater
  rw [ProcedureList.check] at h
  rcases hall : checkEach (ProcedureDecl.check .root) t l.procedures with ⟨procedures, t₁, e | _⟩
  · simp [hall] at h
  simp only [hall, Prod.mk.injEq, and_true] at h
  obtain ⟨rfl, rfl⟩ := h
  obtain ⟨hbefore, hsettled⟩ := ProcedureDecl.traces.each t _ _ _ hl hall hlater
  have hnode : Node.Settled T Context.root.procedure
      (ProcedureList.toNode ⟨procedures, some .void⟩) :=
    Node.settled_void rfl rfl rfl (List.forall_mem_map.2 hsettled)
  exact ⟨hbefore, hnode⟩

namespace Program

theorem check_cases {p p' : Program} (h : p.check t = (p', t', .ok ())) :
    ∃ constants t₁ vars t₂ procedures t₃ statements,
      checkOption (ConstantList.check .root) t p.constants = (constants, t₁, .ok ()) ∧
      checkOption (VariableList.check .root) t₁ p.vars = (vars, t₂, .ok ()) ∧
      p.procedures.check .root t₂ = (procedures, t₃, .ok ()) ∧
      p.statements.check .root t₃ = (statements, t', .ok ()) ∧
      p' = ⟨p.keyword, constants, vars, procedures, statements, some .void⟩ := by
  rw [check] at h
  rcases hconstants : checkOption (ConstantList.check .root) t p.constants with
    ⟨constants, t₁, e | _⟩
  · simp [hconstants] at h
  rcases hvars : checkOption (VariableList.check .root) t₁ p.vars with ⟨vars, t₂, e | _⟩
  · simp [hconstants, hvars] at h
  rcases hprocedures : p.procedures.check .root t₂ with ⟨procedures, t₃, e | _⟩
  · simp [hconstants, hvars, hprocedures] at h
  rcases hstatements : p.statements.check .root t₃ with ⟨statements, t₄, e | _⟩
  · simp [hconstants, hvars, hprocedures, hstatements] at h
  simp only [hconstants, hvars, hprocedures, hstatements, Prod.mk.injEq, and_true] at h
  obtain ⟨rfl, rfl⟩ := h
  exact ⟨constants, t₁, vars, t₂, procedures, t₃, statements, rfl, hvars, hprocedures,
    hstatements, rfl⟩

/-- A successful check settles a program by the tables that it ends with. -/
theorem settled {p p' : Program} (hp : p.Grammatical) (h : p.check t = (p', T, .ok ())) :
    p'.toNode.Settled T none := by
  obtain ⟨constants, t₁, vars, t₂, procedures, t₃, statements, hconstants, hvars, hprocedures,
    hstatements, rfl⟩ := check_cases h
  have hroot : ∀ {t : Tables}, T.Extends t → t.KeptBy .root T := by
    intro t ht
    exact ht.keptBy fun q hq => by cases hq
  -- From the last check back to the first, each leaves what the ones behind it have kept.
  have hleft := p.statements.leavesCounters .root t₃
  rw [hstatements] at hleft
  have hextends₃ := Tables.Extends.of_leavesCounters hleft
  have hstatements := Block.settled (hroot hextends₃) p.statements hp.statements hstatements
  obtain ⟨hextends₂, hprocedures⟩ :=
    ProcedureList.traces _ _ _ _ hp.procedures hprocedures hextends₃
  obtain ⟨hkept₁, hvars⟩ := VariableList.traces.option _ _ _ _ hp.vars hvars (hroot hextends₂).scope
  obtain ⟨-, hconstants⟩ := ConstantList.traces.option _ _ _ _ hp.constants hconstants hkept₁
  have hnode : Node.Settled T Context.root.procedure
      (toNode ⟨p.keyword, constants, vars, procedures, statements, some .void⟩) := by
    refine Node.settled_void rfl rfl rfl fun n hn => ?_
    simp only [toNode, List.mem_append, List.mem_cons, List.not_mem_nil, or_false,
      Option.mem_toList, Option.map_eq_some_iff] at hn
    rcases hn with (⟨l, hl, rfl⟩ | ⟨l, hl, rfl⟩) | rfl | rfl
    · exact hconstants l hl
    · exact hvars l hl
    · exact hprocedures
    · exact hstatements
  exact hnode

end Program

end

/-- Every node of a compiled program has its type, and it is the one that the returned tables
and the types of its parts tell. -/
theorem compile_settled {source : String} {result : TypedProgram}
    (h : compile source = .ok result) :
    result.program.toNode.Settled result.tables none ∧
      ∀ e ∈ result.program.toNode.walk, e.2.slot.isSome := by
  obtain ⟨p, hp, hcheck⟩ := compile_eq_ok_iff.1 h
  have hsettled := Program.settled (grammatical_of_parseProgram hp) hcheck
  exact ⟨hsettled, hsettled.walk⟩

def hidingSource : String :=
  "const Limits := \x7b2, 3, 5\x7d; var n : string; i : integer;
  procedure half(n : integer;) : integer; begin return n div 2; end;
  program for i in Limits do n := IntToStr(half(i)); end; end;"

theorem hidingSource_settled : ∃ result, compile hidingSource = .ok result ∧
    result.program.toNode.Settled result.tables none ∧
      ∀ e ∈ result.program.toNode.walk, e.2.slot.isSome := by
  have haccepted : (compile hidingSource).isOk := by decide +kernel
  obtain ⟨result, hresult⟩ := exists_of_isOk haccepted
  exact ⟨result, hresult, compile_settled hresult⟩

end TeachLang
