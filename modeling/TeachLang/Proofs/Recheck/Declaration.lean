import TeachLang.Proofs.Check.Parsed
import TeachLang.Proofs.Grammar.Simulation
import TeachLang.Proofs.Recheck.Statement

/-! # Checks of programs with old types

The value of a constant list is read by the type in the slot of the list, which the check has just
written.  So the check of a program neither reads the slots that it comes with nor writes anything
but slots, and to check a typed program again changes nothing.
-/

namespace TeachLang

theorem ListLiteral.cleared_cleared (l : ListLiteral) :
    (l.map id Slot.cleared).map id Slot.cleared = l.map id Slot.cleared :=
  l.map_map ..

theorem ConstantValue.cleared_cleared (v : ConstantValue) :
    (v.map id Slot.cleared).map id Slot.cleared = v.map id Slot.cleared := by
  cases v with
  | simple l => rfl
  | list l => simp only [ConstantValue.map, ListLiteral.cleared_cleared]

theorem ConstantDecl.cleared_cleared (d : ConstantDecl) :
    (d.map id Slot.cleared).map id Slot.cleared = d.map id Slot.cleared := by
  simp only [ConstantDecl.map, ConstantValue.cleared_cleared, Slot.cleared, id]

theorem ConstantList.cleared_cleared (l : ConstantList) :
    (l.map id Slot.cleared).map id Slot.cleared = l.map id Slot.cleared :=
  l.map_map ..

theorem BindingDecl.cleared_cleared (d : BindingDecl) :
    (d.map id Slot.cleared).map id Slot.cleared = d.map id Slot.cleared :=
  d.map_map ..

theorem VariableList.cleared_cleared (l : VariableList) :
    (l.map id Slot.cleared).map id Slot.cleared = l.map id Slot.cleared :=
  l.map_map ..

theorem ProcedureDecl.cleared_cleared (d : ProcedureDecl) :
    (d.map id Slot.cleared).map id Slot.cleared = d.map id Slot.cleared :=
  d.map_map ..

theorem ProcedureList.cleared_cleared (l : ProcedureList) :
    (l.map id Slot.cleared).map id Slot.cleared = l.map id Slot.cleared := by
  simp [ProcedureList.map, ProcedureDecl.cleared_cleared, Slot.cleared, Function.comp_def]

theorem TypeExpr.denoted_cleared (e : TypeExpr) :
    (e.map id Slot.cleared).denoted = e.denoted := by
  cases e <;> rfl

theorem TypeExpr.cleared_withSlot (e : TypeExpr) (slot : Slot) :
    (e.map id Slot.cleared).withSlot slot = e.withSlot slot := by
  cases e <;> rfl

theorem TypeExpr.withSlot_cleared (e : TypeExpr) (slot : Slot) :
    (e.withSlot slot).map id Slot.cleared = e.map id Slot.cleared := by
  cases e <;> rfl

/-! The items of a list, and a part that may be missing. -/

section

variable {α : Type} {clear : α → α} {check : Tables → α → Visited α}

theorem Option.cleared_cleared (hclear : ∀ a, clear (clear a) = clear a) (o : Option α) :
    (o.map clear).map clear = o.map clear := by
  simp [Function.comp_def, hclear]

theorem checkEach_agrees (hclear : ∀ a, clear (clear a) = clear a)
    (h : ∀ t a, VisitAgrees clear a (check t a) (check t (clear a))) (t : Tables) (as : List α) :
    VisitAgrees (List.map clear) as (checkEach check t as) (checkEach check t (as.map clear)) := by
  induction as generalizing t with
  | nil => exact .ok rfl t
  | cons a as ih =>
    have hhead := h t a
    rw [List.map_cons, checkEach, checkEach]
    generalize check t a = c, check t (clear a) = c' at hhead ⊢
    cases hhead with
    | error same same' t e =>
      exact .error (by simp [same]) (by simp [same', Function.comp_def, hclear]) t e
    | ok same t =>
      have htail := ih t
      dsimp only
      generalize checkEach check t as = c, checkEach check t (as.map clear) = c' at htail ⊢
      cases htail with
      | error has has' t e => exact .error (by simp [same, has]) (by simp [same, has']) t e
      | ok has t => exact .ok (by simp [same, has]) t

theorem checkOption_agrees (h : ∀ t a, VisitAgrees clear a (check t a) (check t (clear a)))
    (t : Tables) (o : Option α) :
    VisitAgrees (Option.map clear) o (checkOption check t o)
      (checkOption check t (o.map clear)) := by
  cases o with
  | none => exact .ok rfl t
  | some a =>
    have ha := h t a
    rw [Option.map_some, checkOption, checkOption]
    generalize check t a = c, check t (clear a) = c' at ha ⊢
    cases ha with
    | error same same' t e => exact .error (congrArg some same) (congrArg some same') t e
    | ok same t => exact .ok (congrArg some same) t

end

theorem ConstantValue.check_agrees (v : ConstantValue) :
    Agrees (ConstantValue.map id Slot.cleared) v v.check (v.map id Slot.cleared).check := by
  cases v with
  | simple l =>
    have hl := l.check_agrees
    rw [ConstantValue.map, check, check]
    generalize l.check = c, (l.map id Slot.cleared).check = c' at hl ⊢
    cases hl with
    | ok same ty => exact .ok (congrArg ConstantValue.simple same) ty
    | error same same' e =>
      exact .error (congrArg ConstantValue.simple same) (congrArg ConstantValue.simple same') e
  | list l =>
    have hl := l.check_agrees
    rw [ConstantValue.map, check, check]
    generalize l.check = c, (l.map id Slot.cleared).check = c' at hl ⊢
    cases hl with
    | ok same ty => exact .ok (congrArg ConstantValue.list same) ty
    | error same same' e =>
      exact .error (congrArg ConstantValue.list same) (congrArg ConstantValue.list same') e

section

variable (ctx : Context) (t : Tables)

/-- The value that a constant gets is read from what its check leaves, which is one tree. -/
theorem ConstantDecl.check_agrees (d : ConstantDecl) :
    VisitAgrees (ConstantDecl.map id Slot.cleared) d (d.check ctx t)
      ((d.map id Slot.cleared).check ctx t) := by
  have hvalue := d.value.check_agrees
  rw [ConstantDecl.map, id, check, check]
  by_cases hnew : (t.scope ctx).contains d.name.text = true
  · simp only [if_pos hnew]
    exact .error rfl d.cleared_cleared t _
  · simp only [if_neg hnew]
    generalize d.value.check = c, (d.value.map id Slot.cleared).check = c' at hvalue ⊢
    cases hvalue with
    | error same same' e =>
      exact .error (by simp only [ConstantDecl.map, same])
        (by simp only [ConstantDecl.map, same', Slot.cleared]) t e
    | @ok value same ty =>
      by_cases hlist : ty = .list
      · simp only [if_pos hlist]
        exact .error (by simp only [ConstantDecl.map, same])
          (by simp only [ConstantDecl.map, same, Slot.cleared]) t _
      · simp only [if_neg hlist]
        exact .ok (by simp only [ConstantDecl.map, same, Slot.cleared]) _

theorem ConstantList.check_agrees (l : ConstantList) :
    VisitAgrees (ConstantList.map id Slot.cleared) l (l.check ctx t)
      ((l.map id Slot.cleared).check ctx t) := by
  have hall := checkEach_agrees ConstantDecl.cleared_cleared (ConstantDecl.check_agrees ctx) t
    l.declarations
  rw [ConstantList.map, id, check, check]
  generalize checkEach _ t l.declarations = c, checkEach _ t (l.declarations.map _) = c' at hall ⊢
  cases hall with
  | error same same' t e =>
    exact .error (by simp only [ConstantList.map, same])
      (by simp only [ConstantList.map, same', Slot.cleared, id]) t e
  | ok same t => exact .ok (by simp only [ConstantList.map, same, Slot.cleared]) t

theorem Identifier.declare_agrees (kind : BindingKind) (ty : Ty) (i : Identifier) :
    VisitAgrees (Identifier.map id Slot.cleared) i (i.declare ctx t kind ty)
      ((i.map id Slot.cleared).declare ctx t kind ty) := by
  have hname : (i.map id Slot.cleared).name = i.name := rfl
  rw [declare, declare, hname]
  by_cases hnew : (t.scope ctx).contains i.name = true
  · simp only [if_pos hnew]
    exact .error rfl (i.map_map ..) t _
  · simp only [if_neg hnew]
    exact .ok (by simp only [Identifier.map, Slot.cleared]) _

theorem BindingDecl.check_agrees (kind : BindingKind) (d : BindingDecl) :
    VisitAgrees (BindingDecl.map id Slot.cleared) d (d.check ctx t kind)
      ((d.map id Slot.cleared).check ctx t kind) := by
  have hall := checkEach_agrees (fun i : Identifier => i.map_map ..)
    (fun t => Identifier.declare_agrees ctx t kind d.type.denoted) t d.names
  rw [BindingDecl.map, check, check]
  dsimp only
  rw [TypeExpr.denoted_cleared, TypeExpr.cleared_withSlot]
  generalize checkEach _ t d.names = c, checkEach _ t (d.names.map _) = c' at hall ⊢
  cases hall with
  | error same same' t e =>
    exact .error (by simp only [BindingDecl.map, same, TypeExpr.withSlot_cleared])
      (by simp only [BindingDecl.map, same', TypeExpr.withSlot_cleared, Slot.cleared]) t e
  | ok same t => exact .ok (by simp only [BindingDecl.map, same, TypeExpr.withSlot_cleared, Slot.cleared]) t

theorem VariableList.check_agrees (l : VariableList) :
    VisitAgrees (VariableList.map id Slot.cleared) l (l.check ctx t)
      ((l.map id Slot.cleared).check ctx t) := by
  have hall := checkEach_agrees BindingDecl.cleared_cleared
    (fun t => BindingDecl.check_agrees ctx t .var) t l.declarations
  rw [VariableList.map, id, check, check]
  generalize checkEach _ t l.declarations = c, checkEach _ t (l.declarations.map _) = c' at hall ⊢
  cases hall with
  | error same same' t e =>
    exact .error (by simp only [VariableList.map, same])
      (by simp only [VariableList.map, same', Slot.cleared, id]) t e
  | ok same t => exact .ok (by simp only [VariableList.map, same, Slot.cleared]) t

theorem ParameterList.check_agrees (l : ParameterList) :
    VisitAgrees (ParameterList.map id Slot.cleared) l (l.check ctx t)
      ((l.map id Slot.cleared).check ctx t) := by
  have hall := checkEach_agrees BindingDecl.cleared_cleared
    (fun t => BindingDecl.check_agrees ctx t .param) t l.declarations
  rw [ParameterList.map, check, check]
  generalize checkEach _ t l.declarations = c, checkEach _ t (l.declarations.map _) = c' at hall ⊢
  cases hall with
  | error same same' t e =>
    exact .error (by simp only [ParameterList.map, same])
      (by simp only [ParameterList.map, same', Slot.cleared]) t e
  | ok same t => exact .ok (by simp only [ParameterList.map, same, Slot.cleared]) t

/-- A procedure with empty slots in its parts, but not in its return type, which is written before
the parts are checked. -/
def ProcedureDecl.clearedInside (d : ProcedureDecl) : ProcedureDecl :=
  { d.map id Slot.cleared with returnType := d.returnType, slot := d.slot }

theorem ProcedureDecl.checkInside_agrees (d : ProcedureDecl) :
    VisitAgrees (ProcedureDecl.map id Slot.cleared) d (d.checkInside ctx t)
      (d.clearedInside.checkInside ctx t) := by
  have hparameters := ParameterList.check_agrees ctx t d.parameters
  rw [clearedInside, ProcedureDecl.map, checkInside, checkInside]
  dsimp only
  generalize d.parameters.check ctx t = c, (d.parameters.map id Slot.cleared).check ctx t = c'
    at hparameters ⊢
  cases hparameters with
  | error hp hp' t e =>
    apply VisitAgrees.error
    · simp only [ProcedureDecl.map, hp]
    · simp only [ProcedureDecl.map, hp', Option.cleared_cleared ConstantList.cleared_cleared,
        Option.cleared_cleared VariableList.cleared_cleared, Block.cleared_cleared, id]
  | ok hp t =>
    have hconstants := checkOption_agrees (ConstantList.check_agrees ctx) t d.constants
    dsimp only
    generalize checkOption _ t d.constants = c, checkOption _ t (d.constants.map _) = c'
      at hconstants ⊢
    cases hconstants with
    | error hc hc' t e =>
      apply VisitAgrees.error
      · simp only [ProcedureDecl.map, hp, hc]
      · simp only [ProcedureDecl.map, hp, hc', Option.cleared_cleared
          VariableList.cleared_cleared, Block.cleared_cleared, id]
    | ok hc t =>
      have hvars := checkOption_agrees (VariableList.check_agrees ctx) t d.vars
      dsimp only
      generalize checkOption _ t d.vars = c, checkOption _ t (d.vars.map _) = c' at hvars ⊢
      cases hvars with
      | error hv hv' t e =>
        apply VisitAgrees.error
        · simp only [ProcedureDecl.map, hp, hc, hv]
        · simp only [ProcedureDecl.map, hp, hc, hv', Block.cleared_cleared, id]
      | ok hv t =>
        have hbody := Block.check_agrees ctx t d.body
        dsimp only
        generalize d.body.check ctx t = c, (d.body.map id Slot.cleared).check ctx t = c'
          at hbody ⊢
        cases hbody with
        | error hb hb' t e =>
          apply VisitAgrees.error
          · simp only [ProcedureDecl.map, hp, hc, hv, hb]
          · simp only [ProcedureDecl.map, hp, hc, hv, hb', id]
        | ok hb t => exact .ok (by simp only [ProcedureDecl.map, hp, hc, hv, hb]) t

theorem ProcedureDecl.check_agrees (d : ProcedureDecl) :
    VisitAgrees (ProcedureDecl.map id Slot.cleared) d (d.check ctx t)
      ((d.map id Slot.cleared).check ctx t) := by
  cases hp : t.procedures.get? d.name.text with
  | some existing =>
    have hp' : t.procedures.get? (d.map id Slot.cleared).name.text = some existing := hp
    rw [check, check, hp, hp']
    exact .error rfl d.cleared_cleared t _
  | none =>
    have hp' : t.procedures.get? (d.map id Slot.cleared).name.text = none := hp
    have hdenoted : (d.map id Slot.cleared).returnType.denoted = d.returnType.denoted :=
      d.returnType.denoted_cleared
    have htables : t.withProcedure (d.map id Slot.cleared) = t.withProcedure d := by
      rw [Tables.withProcedure, hdenoted]
      rfl
    set inner := d.withReturnSlot (some d.returnType.denoted) with hinner
    have hsame : inner.map id Slot.cleared = d.map id Slot.cleared := by
      simp only [hinner, withReturnSlot, ProcedureDecl.map, TypeExpr.withSlot_cleared]
    have hinner' : (d.map id Slot.cleared).withReturnSlot (some d.returnType.denoted) =
        { inner.clearedInside with slot := none } := by
      simp only [hinner, withReturnSlot, clearedInside, ProcedureDecl.map,
        TypeExpr.cleared_withSlot, Slot.cleared]
    have hinside := checkInside_agrees (ctx.withProcedure d.name.text) (t.withProcedure d) inner
    have hslot := checkInside_withSlot (ctx.withProcedure d.name.text) (t.withProcedure d)
      inner.clearedInside none
    have hname : (d.map id Slot.cleared).name = d.name := rfl
    rw [check_of_new hp, check_of_new hp', hdenoted, htables, ← hinner, hinner', hname, hslot]
    generalize inner.checkInside _ _ = c, inner.clearedInside.checkInside _ _ = c' at hinside ⊢
    cases hinside with
    | @error d' d'' same same' t e =>
      have hempty : ProcedureDecl.map id Slot.cleared { d'' with slot := none } =
          d.map id Slot.cleared := same'.trans hsame
      exact .error (same.trans hsame) hempty t e
    | @ok d' same t =>
      have hfilled : ProcedureDecl.map id Slot.cleared
          { d' with slot := some d.returnType.denoted } = d.map id Slot.cleared :=
        same.trans hsame
      exact .ok hfilled t

theorem ProcedureList.check_agrees (l : ProcedureList) :
    VisitAgrees (ProcedureList.map id Slot.cleared) l (l.check ctx t)
      ((l.map id Slot.cleared).check ctx t) := by
  have hall := checkEach_agrees ProcedureDecl.cleared_cleared (ProcedureDecl.check_agrees ctx) t
    l.procedures
  rw [ProcedureList.map, check, check]
  generalize checkEach _ t l.procedures = c, checkEach _ t (l.procedures.map _) = c' at hall ⊢
  cases hall with
  | error same same' t e =>
    exact .error (by simp only [ProcedureList.map, same])
      (by simp only [ProcedureList.map, same', Slot.cleared]) t e
  | ok same t => exact .ok (by simp only [ProcedureList.map, same, Slot.cleared]) t

theorem Program.check_agrees (p : Program) :
    VisitAgrees Program.untyped p (p.check t) (p.untyped.check t) := by
  have hconstants := checkOption_agrees (ConstantList.check_agrees .root) t p.constants
  rw [untyped, Program.map, check, check]
  dsimp only
  generalize checkOption _ t p.constants = c, checkOption _ t (p.constants.map _) = c'
    at hconstants ⊢
  cases hconstants with
  | error hc hc' t e =>
    apply VisitAgrees.error
    · simp only [untyped, Program.map, hc]
    · simp only [untyped, Program.map, hc', Option.cleared_cleared
        VariableList.cleared_cleared, ProcedureList.cleared_cleared, Block.cleared_cleared,
        Slot.cleared, id]
  | ok hc t =>
    have hvars := checkOption_agrees (VariableList.check_agrees .root) t p.vars
    dsimp only
    generalize checkOption _ t p.vars = c, checkOption _ t (p.vars.map _) = c' at hvars ⊢
    cases hvars with
    | error hv hv' t e =>
      apply VisitAgrees.error
      · simp only [untyped, Program.map, hc, hv]
      · simp only [untyped, Program.map, hc, hv', ProcedureList.cleared_cleared,
          Block.cleared_cleared, Slot.cleared, id]
    | ok hv t =>
      have hprocedures := ProcedureList.check_agrees .root t p.procedures
      dsimp only
      generalize p.procedures.check .root t = c,
        (p.procedures.map id Slot.cleared).check .root t = c' at hprocedures ⊢
      cases hprocedures with
      | error hp hp' t e =>
        apply VisitAgrees.error
        · simp only [untyped, Program.map, hc, hv, hp]
        · simp only [untyped, Program.map, hc, hv, hp', Block.cleared_cleared, Slot.cleared, id]
      | ok hp t =>
        have hstatements := Block.check_agrees .root t p.statements
        dsimp only
        generalize p.statements.check .root t = c,
          (p.statements.map id Slot.cleared).check .root t = c' at hstatements ⊢
        cases hstatements with
        | error hs hs' t e =>
          apply VisitAgrees.error
          · simp only [untyped, Program.map, hc, hv, hp, hs]
          · simp only [untyped, Program.map, hc, hv, hp, hs', Slot.cleared, id]
        | ok hs t =>
          exact .ok (by simp only [untyped, Program.map, hc, hv, hp, hs, Slot.cleared, id]) t

end

/-- A check that succeeds is the check of the program with empty slots. -/
theorem Program.check_eq_of_ok {t : Tables} {p : Program} (h : (p.check t).2.2 = .ok ()) :
    p.check t = p.untyped.check t := by
  have hagrees := p.check_agrees t
  generalize p.check t = c, p.untyped.check t = c' at hagrees h ⊢
  cases hagrees with
  | ok => rfl
  | error => cases h

/-- A check writes nothing but slots, and it finds and leaves the same, whatever the slots have held
before.  So a program that has passed its check passes it again, and stays as it is. -/
theorem Program.check_untyped (t : Tables) (p : Program) :
    (p.check t).1.untyped = p.untyped ∧ (p.check t).2 = (p.untyped.check t).2 ∧
      ((p.check t).2.2 = .ok () →
        (p.check t).1 = (p.untyped.check t).1 ∧ (p.check t).1.check t = p.check t) := by
  have hslots (p : Program) : (p.check t).1.untyped = p.untyped ∧
      (p.check t).2 = (p.untyped.check t).2 := by
    have hagrees := p.check_agrees t
    generalize p.check t = c, p.untyped.check t = c' at hagrees ⊢
    cases hagrees with
    | ok same t => exact ⟨same, rfl⟩
    | error same same' t e => exact ⟨same, rfl⟩
  obtain ⟨herased, houtcome⟩ := hslots p
  refine ⟨herased, houtcome, fun hok => ⟨congrArg Prod.fst (check_eq_of_ok hok), ?_⟩⟩
  -- The second check is one of a program that differs from the first by its slots only.
  have hagain : ((p.check t).1.check t).2 = (p.untyped.check t).2 := by
    rw [(hslots (p.check t).1).2, herased]
  have hok' : ((p.check t).1.check t).2.2 = .ok () := by
    rw [hagain, ← houtcome, hok]
  rw [check_eq_of_ok hok', herased, check_eq_of_ok hok]

/-- A constant list, whose value is read by the type in its slot. -/
def limitsSource : String := "const Limits := \x7b2, 3\x7d; program end;"

/-- A tree whose slots are all set, and all to a wrong type. -/
theorem check_untyped_overwritten : ∃ p stale : Program,
    (parseProgram limitsSource).1 = .ok p ∧ stale = p.map id (fun _ => some .boolList) ∧
      (stale.check .initial).2.2 = .ok () ∧ stale.check .initial = p.check .initial ∧
      (stale.check .initial).1.check .initial = p.check .initial := by
  have haccepted : (compile limitsSource).isOk := by decide +kernel
  obtain ⟨result, hresult⟩ := exists_of_isOk haccepted
  obtain ⟨p, hp, hcheck⟩ := compile_eq_ok_iff.1 hresult
  have huntyped : p.untyped = p := ((parseProgram_eq_ok_iff limitsSource p).1 hp).untyped
  have hstale : (p.map id fun _ => some .boolList).untyped = p :=
    (p.map_map ..).trans huntyped
  obtain ⟨-, houtcome, hagain⟩ := Program.check_untyped .initial (p.map id fun _ => some .boolList)
  rw [hstale] at houtcome hagain
  have hok : ((p.map id fun _ => some .boolList).check .initial).2.2 = .ok () := by
    rw [houtcome, hcheck]
  obtain ⟨hsame, htwice⟩ := hagain hok
  have hboth : (p.map id fun _ => some .boolList).check .initial = p.check .initial :=
    Prod.ext hsame houtcome
  exact ⟨p, _, hp, rfl, hok, hboth, htwice.trans hboth⟩

end TeachLang
