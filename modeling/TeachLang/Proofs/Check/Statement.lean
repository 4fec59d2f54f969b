import TeachLang.Proofs.Check.Counters
import TeachLang.Proofs.Tree.Uses

/-! # Statements against the rules

The check of statements succeeds exactly where the rules allow them, in tables that agree
with their scope.
-/

namespace TeachLang

section

variable {t : Tables} {ctx : Context} {Γ : Scope}

/-- A call in an expression is checked as a call by itself. -/
theorem Expr.check_call (callee : Token) (args : List Expr) (slot : Slot) :
    (Expr.call callee args slot).check t ctx =
      match checkCall t ctx callee args with
      | (args, .error e) => (.call callee args slot, .error e)
      | (args, .ok ty) => (.call callee args (some ty), .ok ty) := by
  rw [check, checkCall]
  cases t.callee callee args.length with
  | error e => rfl
  | ok p =>
    dsimp only
    rcases checkArgs t ctx p.parameters args with ⟨args', e | _⟩ <;> rfl

theorem checkCall_snd (callee : Token) (args : List Expr) (slot : Slot) :
    (checkCall t ctx callee args).2 = ((Expr.call callee args slot).check t ctx).2 := by
  rw [Expr.check_call]
  rcases checkCall t ctx callee args with ⟨args', e | ty⟩ <;> rfl

theorem checkCondition_eq_ok_iff (h : t.Agrees ctx Γ) (keyword : Token) {condition : Expr}
    (hc : condition.Grammatical) :
    (checkCondition t ctx keyword condition).2 = .ok () ↔ condition.HasType Γ .bool := by
  rw [← Expr.check_eq_ok_iff h condition hc, checkCondition]
  rcases condition.check t ctx with ⟨condition', e | found⟩
  · simp
  · by_cases hfound : found = .bool <;> simp [hfound]

theorem checkForHead_eq_ok_iff (h : t.Agrees ctx Γ) {item : Identifier} {iterable : Expr}
    (hitem : item.Grammatical) (hiterable : iterable.Grammatical) :
    (checkForHead t ctx item iterable).2 = .ok () ↔ ∃ b whole, Γ.resolve? item.name = some b ∧
      b.ty.toListType? = some whole ∧ iterable.HasType Γ whole := by
  have hi := Identifier.check_eq_ok_iff hitem h
  have he := Expr.check_eq_ok_iff h iterable hiterable
  have hsteps : (checkForHead t ctx item iterable).2 = .ok () ↔ ∃ itemTy listTy,
      (item.check t ctx).2 = .ok itemTy ∧ (iterable.check t ctx).2 = .ok listTy ∧
        itemTy.toListType? = some listTy := by
    rw [checkForHead]
    rcases item.check t ctx with ⟨item', e | itemTy⟩
    · simp
    rcases iterable.check t ctx with ⟨iterable', e | listTy⟩
    · simp
    by_cases hlist : itemTy.toListType? = some listTy <;> simp [hlist]
  rw [hsteps]
  constructor
  · rintro ⟨itemTy, listTy, hname, hwhole, hlist⟩
    obtain ⟨b, hb, rfl⟩ := (hi itemTy).1 hname
    exact ⟨b, listTy, hb, hlist, (he listTy).1 hwhole⟩
  · rintro ⟨b, whole, hb, hlist, hwhole⟩
    exact ⟨b.ty, whole, (hi b.ty).2 ⟨b, hb, rfl⟩, (he whole).2 hwhole, hlist⟩

theorem Tables.Agrees.isConstant_iff (h : t.Agrees ctx Γ) {i : Identifier} (hi : i.Grammatical)
    {b : Binding} (hb : Γ.resolve? i.name = some b) :
    t.isConstant ctx i.name = true ↔ b.kind = .const := by
  rw [← h.names i.name (not_isCounter_of_writes hi), Option.map_eq_some_iff] at hb
  obtain ⟨r, hr, rfl⟩ := hb
  simp [Tables.isConstant, hr, Register.binding]

/-- What an assignment writes to is checked like the expression that is written like it. -/
theorem Target.check_snd (target : Target) :
    (target.check t ctx).2 = (target.toExpr.check t ctx).2 := by
  cases target with
  | name i => rfl
  | element base opening position slot =>
    rw [check, toExpr, Expr.check]
    rcases base.check t ctx with ⟨base', e | whole⟩
    · rfl
    rcases position.check t ctx with ⟨position', e | found⟩
    · rfl
    dsimp only
    cases elementType opening whole position' found <;> rfl

theorem Target.Grammatical.toExpr {target : Target} (h : target.Grammatical) :
    target.toExpr.Grammatical := by
  cases target with
  | name i => exact h
  | element base opening position slot => exact h.2

/-- A source names what it assigns to. -/
theorem Target.Grammatical.exists_base {target : Target} (h : target.Grammatical) :
    ∃ i : Identifier, target.base? = some i ∧ i.Grammatical := by
  cases target with
  | name i => exact ⟨i, rfl, h⟩
  | element base opening position slot =>
    obtain ⟨⟨i, rfl⟩, hi, -⟩ := h
    exact ⟨i, rfl, hi⟩

theorem Target.Grammatical.check_base {target : Target} (h : target.Grammatical) :
    (target.check t ctx).1.base?.map (·.token) = target.base?.map (·.token) := by
  cases target with
  | name i =>
    rw [Target.check]
    exact congrArg some (i.check_token t ctx)
  | element base opening position slot =>
    obtain ⟨⟨i, rfl⟩, -⟩ := h
    have htoken := congrArg some (i.check_token t ctx)
    rw [Target.check, Expr.check]
    generalize i.check t ctx = left at htoken ⊢
    obtain ⟨i', e | whole⟩ := left
    · exact htoken
    dsimp only
    rcases position.check t ctx with ⟨position', e | found⟩
    · exact htoken
    dsimp only
    cases elementType opening whole position' found <;> exact htoken

/-- Whether a target is one of a constant is told by the tokens that it is written with. -/
theorem Target.constant?_eq_none_iff {target : Target} :
    target.constant? t ctx = none ↔
      ∀ x ∈ target.base?.map (·.token), t.isConstant ctx x.text = false := by
  rw [constant?]
  cases target.base? with
  | none => simp
  | some base => simp [Identifier.name]

theorem Target.Grammatical.constant?_check {target : Target} (h : target.Grammatical) :
    (target.check t ctx).1.constant? t ctx = none ↔ target.constant? t ctx = none := by
  rw [constant?_eq_none_iff, constant?_eq_none_iff, h.check_base]

theorem Tables.Agrees.constant?_eq_none_iff (h : t.Agrees ctx Γ) {target : Target} {i : Identifier}
    (hbase : target.base? = some i) (hi : i.Grammatical) {b : Binding}
    (hb : Γ.resolve? i.name = some b) : target.constant? t ctx = none ↔ b.kind ≠ .const := by
  rw [Target.constant?, hbase, ne_eq, ← h.isConstant_iff hi hb]
  simp

theorem Target.check_eq_ok_iff (h : t.Agrees ctx Γ) {target : Target}
    (htarget : target.Grammatical) (ty : Ty) :
    (target.check t ctx).2 = .ok ty ∧ target.constant? t ctx = none ↔ target.HasType Γ ty := by
  rw [check_snd, Expr.check_eq_ok_iff h _ htarget.toExpr]
  cases target with
  | name i =>
    constructor
    · rintro ⟨hi, hconst⟩
      cases hi with | name hb =>
      exact .name hb ((h.constant?_eq_none_iff rfl htarget hb).1 hconst)
    · intro hname
      cases hname with | name hb hkind =>
      exact ⟨.name hb, (h.constant?_eq_none_iff rfl htarget hb).2 hkind⟩
  | element base opening position slot =>
    obtain ⟨⟨i, rfl⟩, hi, -⟩ := htarget
    constructor
    · rintro ⟨hindex, hconst⟩
      cases hindex with | index hbase hint helement =>
      cases hbase with | name hb =>
      exact .element hb ((h.constant?_eq_none_iff rfl hi hb).1 hconst) hint helement
    · intro helement
      cases helement with | element hb hkind hint hty =>
      exact ⟨.index (.name hb) hint hty, (h.constant?_eq_none_iff rfl hi hb).2 hkind⟩

theorem checkAssignment_eq_ok_iff (h : t.Agrees ctx Γ) (symbol : Token) {target : Target}
    {value : Expr} (htarget : target.Grammatical) (hvalue : value.Grammatical) :
    (checkAssignment t ctx target symbol value).2 = .ok () ↔ ∃ a b, target.HasType Γ a ∧
      value.HasType Γ b ∧ b.Flows a := by
  have hconstant : (target.check t ctx).1.constant? t ctx = none ↔ target.constant? t ctx = none :=
    htarget.constant?_check
  simp only [← Target.check_eq_ok_iff h htarget, ← Expr.check_eq_ok_iff h value hvalue,
    ← Ty.accepts_iff]
  rw [checkAssignment]
  generalize target.check t ctx = found at hconstant ⊢
  obtain ⟨target', e | a⟩ := found
  · simp
  dsimp only at hconstant ⊢
  rw [← hconstant]
  cases hconst : target'.constant? t ctx with
  | some base => simp
  | none =>
    rcases value.check t ctx with ⟨value', e | b⟩
    · simp
    by_cases haccepts : a.accepts b <;> simp [haccepts]

/-- The type of a returned value, that of nothing included. -/
def Scope.Returns (Γ : Scope) (value : Option Expr) (ty : Ty) : Prop :=
  match value with
  | none => ty = .void
  | some e => e.HasType Γ ty

theorem checkReturn_eq_ok_iff (h : t.Agrees ctx Γ) (keyword : Token) {value : Option Expr}
    (hvalue : ∀ e ∈ value, e.Grammatical) (ty : Ty) :
    (checkReturn t ctx keyword value).2 = .ok ty ↔
      ∃ a, Γ.result = some a ∧ ty.Flows a ∧ Γ.Returns value ty := by
  have hreturned : (checkReturned t ctx value).2 = .ok ty ↔ Γ.Returns value ty := by
    cases value with
    | none => simp [checkReturned, Scope.Returns, eq_comm]
    | some e => simp [checkReturned, Scope.Returns, Expr.check_eq_ok_iff h e (hvalue e rfl)]
  rw [← hreturned, ← h.result, checkReturn]
  simp only [← Ty.accepts_iff]
  cases t.current? ctx with
  | none => simp
  | some p =>
    rcases checkReturned t ctx value with ⟨value', e | found⟩
    · simp
    · by_cases haccepts : p.returnType.accepts found
      · simp only [if_pos haccepts, Except.ok.injEq, Option.map_some, Option.some.injEq]
        constructor
        · rintro rfl
          exact ⟨_, rfl, haccepts, rfl⟩
        · rintro ⟨_, _, _, heq⟩
          exact heq
      · simp only [if_neg haccepts, reduceCtorEq, false_iff, Except.ok.injEq, Option.map_some,
          Option.some.injEq]
        rintro ⟨_, rfl, hty, rfl⟩
        exact haccepts hty

end

section

/-! What it takes for a statement to be well typed, read backwards. -/

variable {Γ : Scope} {loop : Bool} {keyword : Token} {slot : Slot}

theorem Statement.wellTyped_assignment_iff {target : Target} {symbol : Token} {value : Expr} :
    Statement.WellTyped Γ loop (.assignment target symbol value slot) ↔
      ∃ a b, target.HasType Γ a ∧ value.HasType Γ b ∧ b.Flows a := by
  constructor
  · intro h
    cases h with | assignment ha hb hflows =>
    exact ⟨_, _, ha, hb, hflows⟩
  · rintro ⟨a, b, ha, hb, hflows⟩
    exact .assignment ha hb hflows

theorem Statement.wellTyped_call_iff {callee : Token} {args : List Expr} :
    Statement.WellTyped Γ loop (.call callee args slot) ↔
      ∃ ty, (Expr.call callee args slot).HasType Γ ty := by
  constructor
  · intro h
    cases h with | call hdeclared hfit =>
    exact ⟨_, .call hdeclared hfit⟩
  · rintro ⟨ty, h⟩
    cases h with | call hdeclared hfit =>
    exact .call hdeclared hfit

theorem Statement.wellTyped_conditional_iff {condition : Expr} {body : Block} {elseIfs : ElseIfs}
    {elseIfsSlot : Slot} {otherwise : Else} :
    Statement.WellTyped Γ loop
        (.conditional keyword condition body elseIfs elseIfsSlot otherwise slot) ↔
      condition.HasType Γ .bool ∧ Block.WellTyped Γ loop body ∧ ElseIfs.WellTyped Γ loop elseIfs ∧
        Else.WellTyped Γ loop otherwise := by
  constructor
  · intro h
    cases h with | conditional hcondition hbody helseIfs hotherwise =>
    exact ⟨hcondition, hbody, helseIfs, hotherwise⟩
  · rintro ⟨hcondition, hbody, helseIfs, hotherwise⟩
    exact .conditional hcondition hbody helseIfs hotherwise

theorem Statement.wellTyped_loop_iff {body : Block} :
    Statement.WellTyped Γ loop (.loop keyword body slot) ↔ Block.WellTyped Γ true body := by
  constructor
  · intro h
    cases h with | loop hbody =>
    exact hbody
  · exact .loop

theorem Statement.wellTyped_forEach_iff {item : Identifier} {iterable : Expr} {body : Block} :
    Statement.WellTyped Γ loop (.forEach keyword item iterable body slot) ↔
      (∃ b whole, Γ.resolve? item.name = some b ∧ b.ty.toListType? = some whole ∧
        iterable.HasType Γ whole) ∧ Block.WellTyped Γ true body := by
  constructor
  · intro h
    cases h with | forEach hb hlist hwhole hbody =>
    exact ⟨⟨_, _, hb, hlist, hwhole⟩, hbody⟩
  · rintro ⟨⟨b, whole, hb, hlist, hwhole⟩, hbody⟩
    exact .forEach hb hlist hwhole hbody

theorem Statement.wellTyped_returning_iff {value : Option Expr} :
    Statement.WellTyped Γ loop (.returning keyword value slot) ↔
      ∃ ty a, Γ.result = some a ∧ ty.Flows a ∧ Γ.Returns value ty := by
  constructor
  · intro h
    cases h with
    | returnNothing ha => exact ⟨.void, .void, ha, .refl _, rfl⟩
    | returnValue ha hvalue hflows => exact ⟨_, _, ha, hflows, hvalue⟩
  · rintro ⟨ty, a, ha, hflows, hvalue⟩
    cases value with
    | none =>
      obtain rfl : ty = .void := hvalue
      cases hflows
      exact .returnNothing ha
    | some value => exact .returnValue ha hvalue hflows

theorem Statement.wellTyped_exit_iff :
    Statement.WellTyped Γ loop (.exit keyword slot) ↔ loop = true := by
  constructor
  · intro h
    cases h
    rfl
  · rintro rfl
    exact .exit

theorem Block.wellTyped_iff {statements : List Statement} :
    Block.WellTyped Γ loop (.mk statements slot) ↔ Statement.AllWellTyped Γ loop statements := by
  constructor
  · intro h
    cases h with | mk hall =>
    exact hall
  · exact .mk

theorem Statement.allWellTyped_cons_iff {s : Statement} {ss : List Statement} :
    Statement.AllWellTyped Γ loop (s :: ss) ↔
      Statement.WellTyped Γ loop s ∧ Statement.AllWellTyped Γ loop ss := by
  constructor
  · intro h
    cases h with | cons hs hss =>
    exact ⟨hs, hss⟩
  · rintro ⟨hs, hss⟩
    exact .cons hs hss

theorem ElseIfs.wellTyped_cons_iff {condition : Expr} {body : Block} {rest : ElseIfs} :
    ElseIfs.WellTyped Γ loop (.cons keyword condition body slot rest) ↔
      condition.HasType Γ .bool ∧ Block.WellTyped Γ loop body ∧ ElseIfs.WellTyped Γ loop rest := by
  constructor
  · intro h
    cases h with | cons hcondition hbody hrest =>
    exact ⟨hcondition, hbody, hrest⟩
  · rintro ⟨hcondition, hbody, hrest⟩
    exact .cons hcondition hbody hrest

theorem Else.wellTyped_present_iff {body : Block} :
    Else.WellTyped Γ loop (.present keyword body slot) ↔ Block.WellTyped Γ loop body := by
  constructor
  · intro h
    cases h with | present hbody =>
    exact hbody
  · exact .present

end

mutual

/-- The check of a statement succeeds exactly where the rules allow the statement. -/
theorem Statement.check_eq_ok_iff {t : Tables} {ctx : Context} {Γ : Scope} (h : t.Agrees ctx Γ)
    (s : Statement) (hs : s.Grammatical) :
    (s.check ctx t).2.2 = .ok () ↔ Statement.WellTyped Γ ctx.insideLoop s := by
  cases s with
  | assignment target symbol value slot =>
    rw [Statement.wellTyped_assignment_iff, ← checkAssignment_eq_ok_iff h symbol hs.1 hs.2.2, Statement.check]
    rcases checkAssignment t ctx target symbol value with ⟨_, e | _⟩ <;> simp
  | call callee args slot =>
    simp only [Statement.wellTyped_call_iff, ← Expr.check_eq_ok_iff h (.call callee args slot) hs,
      ← checkCall_snd]
    rw [Statement.check]
    rcases checkCall t ctx callee args with ⟨_, e | _⟩ <;> simp
  | conditional keyword condition body elseIfs elseIfsSlot otherwise slot =>
    obtain ⟨-, hcondition, hbody, helseIfs, hotherwise⟩ := hs
    rw [Statement.wellTyped_conditional_iff, ← checkCondition_eq_ok_iff h keyword hcondition,
      ← Block.check_eq_ok_iff h body hbody, Statement.check]
    have hleft := body.leavesCounters ctx t
    rcases checkCondition t ctx keyword condition with ⟨_, e | _⟩
    · simp
    generalize body.check ctx t = left at hleft ⊢
    rcases left with ⟨body', t₁, e | _⟩
    · simp
    have h₁ := h.of_leavesCounters hleft
    have hleft₁ := elseIfs.leavesCounters ctx t₁
    rw [← ElseIfs.check_eq_ok_iff h₁ elseIfs helseIfs]
    dsimp only
    generalize elseIfs.check ctx t₁ = left at hleft₁ ⊢
    rcases left with ⟨elseIfs', t₂, e | _⟩
    · simp
    rw [← Else.check_eq_ok_iff (h₁.of_leavesCounters hleft₁) otherwise hotherwise]
    dsimp only
    rcases otherwise.check ctx t₂ with ⟨otherwise', t₃, e | _⟩ <;> simp
  | loop keyword body slot =>
    have hbody : _ ↔ Block.WellTyped Γ true body := Block.check_eq_ok_iff h.withLoop body hs.2
    rw [Statement.wellTyped_loop_iff, ← hbody, Statement.check]
    rcases body.check ctx.withLoop t with ⟨body', t', e | _⟩ <;> simp
  | forEach keyword item iterable body slot =>
    obtain ⟨-, hitem, hiterable, hgrammatical⟩ := hs
    have hbody (name : String) : _ ↔ Block.WellTyped Γ true body :=
      Block.check_eq_ok_iff (h.declareCounters [name]).withLoop body hgrammatical
    rw [Statement.wellTyped_forEach_iff, ← checkForHead_eq_ok_iff h hitem hiterable, Statement.check]
    rcases checkForHead t ctx item iterable with ⟨⟨item', iterable'⟩, e | _⟩
    · simp
    rw [← hbody item'.name]
    simp only [counterRows, List.map_cons, List.map_nil, Tables.declareAll_cons,
      Tables.declareAll_nil]
    rcases body.check ctx.withLoop _ with ⟨body', t', e | _⟩ <;> simp
  | returning keyword value slot =>
    simp only [Statement.wellTyped_returning_iff, ← checkReturn_eq_ok_iff h keyword hs.2]
    rw [Statement.check]
    rcases checkReturn t ctx keyword value with ⟨_, e | _⟩ <;> simp
  | exit keyword slot =>
    rw [Statement.wellTyped_exit_iff, Statement.check]
    cases ctx.insideLoop <;> simp

theorem Block.check_eq_ok_iff {t : Tables} {ctx : Context} {Γ : Scope} (h : t.Agrees ctx Γ)
    (b : Block) (hb : b.Grammatical) :
    (b.check ctx t).2.2 = .ok () ↔ Block.WellTyped Γ ctx.insideLoop b := by
  cases b with
  | mk statements slot =>
    rw [Block.wellTyped_iff, ← Statement.checkAll_eq_ok_iff h statements hb, Block.check]
    rcases Statement.checkAll ctx t statements with ⟨statements', t', e | _⟩ <;> simp

theorem Statement.checkAll_eq_ok_iff {t : Tables} {ctx : Context} {Γ : Scope} (h : t.Agrees ctx Γ)
    (ss : List Statement) (hss : Statement.AllGrammatical ss) :
    (Statement.checkAll ctx t ss).2.2 = .ok () ↔ Statement.AllWellTyped Γ ctx.insideLoop ss := by
  cases ss with
  | nil => exact iff_of_true rfl .nil
  | cons s ss =>
    rw [Statement.allWellTyped_cons_iff, ← Statement.check_eq_ok_iff h s hss.1, Statement.checkAll]
    have hleft := s.leavesCounters ctx t
    generalize s.check ctx t = left at hleft ⊢
    rcases left with ⟨s', t', e | _⟩
    · simp
    · simp [← Statement.checkAll_eq_ok_iff (h.of_leavesCounters hleft) ss hss.2]

theorem ElseIfs.check_eq_ok_iff {t : Tables} {ctx : Context} {Γ : Scope} (h : t.Agrees ctx Γ)
    (b : ElseIfs) (hb : b.Grammatical) :
    (b.check ctx t).2.2 = .ok () ↔ ElseIfs.WellTyped Γ ctx.insideLoop b := by
  cases b with
  | nil => exact iff_of_true rfl .nil
  | cons keyword condition body slot rest =>
    obtain ⟨-, hcondition, hbody, hrest⟩ := hb
    rw [ElseIfs.wellTyped_cons_iff, ← checkCondition_eq_ok_iff h keyword hcondition,
      ← Block.check_eq_ok_iff h body hbody, ElseIfs.check]
    have hleft := body.leavesCounters ctx t
    rcases checkCondition t ctx keyword condition with ⟨_, e | _⟩
    · simp
    generalize body.check ctx t = left at hleft ⊢
    rcases left with ⟨body', t', e | _⟩
    · simp
    · simp [← ElseIfs.check_eq_ok_iff (h.of_leavesCounters hleft) rest hrest]

theorem Else.check_eq_ok_iff {t : Tables} {ctx : Context} {Γ : Scope} (h : t.Agrees ctx Γ)
    (b : Else) (hb : b.Grammatical) :
    (b.check ctx t).2.2 = .ok () ↔ Else.WellTyped Γ ctx.insideLoop b := by
  cases b with
  | absent => exact iff_of_true rfl .absent
  | present keyword body slot =>
    rw [Else.wellTyped_present_iff, ← Block.check_eq_ok_iff h body hb.2, Else.check]
    rcases body.check ctx t with ⟨body', t', e | _⟩ <;> simp

end

end TeachLang
