import TeachLang.Proofs.Slots.Expr

/-! # Slots of statements

A check of statements that succeeds leaves settled slots behind.  Its counters are no
matter to what tables keep.
-/

namespace TeachLang

section

variable {t T : Tables} {ctx : Context}

namespace Tables.KeptBy

theorem withLoop (h : t.KeptBy ctx T) : t.KeptBy ctx.withLoop T := ⟨h.names, h.returns⟩

/-- Hidden counters do not matter. -/
theorem iff_of_leavesCounters {t' : Tables} {items : List String}
    {result : Except SemanticError Unit} (hleft : LeavesCounters ctx t items (t', result)) :
    t'.KeptBy ctx T ↔ t.KeptBy ctx T := by
  obtain ⟨first, -, rfl, -⟩ := hleft
  have hlookup : ∀ x, ¬ IsCounter x →
      (t.declareAll ctx (counterRows first)).lookup? ctx x = t.lookup? ctx x :=
    fun x hx => t.lookup?_declareCounters ctx first hx
  have hreturn := t.returnType?_declareAll ctx (counterRows first)
  constructor
  · intro h
    exact ⟨fun x r hx hr => h.names x r hx (by rw [hlookup x hx, hr]),
      fun x ty hty => h.returns x ty (by rw [hreturn, hty])⟩
  · intro h
    exact ⟨fun x r hx hr => h.names x r hx (by rw [← hlookup x hx, hr]),
      fun x ty hty => h.returns x ty (by rw [← hreturn, hty])⟩

theorem of_leavesCounters (h : t.KeptBy ctx T) {t' : Tables} {items : List String}
    {result : Except SemanticError Unit} (hleft : LeavesCounters ctx t items (t', result)) :
    t'.KeptBy ctx T :=
  (iff_of_leavesCounters hleft).2 h

end Tables.KeptBy

theorem Target.settledAs (hkept : t.KeptBy ctx T) {target target' : Target} {ty : Ty}
    (htarget : target.Grammatical) (h : target.check t ctx = (target', .ok ty)) :
    target'.toNode.SettledAs T ctx.procedure ty := by
  cases target with
  | name i =>
    rw [Target.check] at h
    rcases hi : i.check t ctx with ⟨i', result⟩
    rw [hi] at h
    cases h
    exact Identifier.settledAs hkept htarget hi
  | element base opening position slot =>
    rw [Target.check] at h
    rcases hbase : base.check t ctx with ⟨base', e | whole⟩
    · simp [hbase] at h
    rcases hposition : position.check t ctx with ⟨position', e | found⟩
    · simp [hbase, hposition] at h
    rcases helement : elementType opening whole position' found with e | element
    · simp [hbase, hposition, helement] at h
    simp only [hbase, hposition, helement, Prod.mk.injEq, Except.ok.injEq] at h
    obtain ⟨rfl, rfl⟩ := h
    exact Node.settledAs_index opening (Expr.settledAs hkept base htarget.2.1 hbase)
      (Expr.settledAs hkept position htarget.2.2.2 hposition) (elementType_cases helement)

theorem checkAssignment_settled (hkept : t.KeptBy ctx T) {target target' : Target}
    {value value' : Expr} {symbol : Token} (htarget : target.Grammatical)
    (hvalue : value.Grammatical)
    (h : checkAssignment t ctx target symbol value = ((target', value'), .ok ())) :
    target'.toNode.Settled T ctx.procedure ∧ value'.toNode.Settled T ctx.procedure := by
  rw [checkAssignment] at h
  rcases hleft : target.check t ctx with ⟨left, e | expected⟩
  · simp [hleft] at h
  rcases hconst : left.constant? t ctx with _ | base
  swap
  · simp [hleft, hconst] at h
  rcases hright : value.check t ctx with ⟨right, e | found⟩
  · simp [hleft, hconst, hright] at h
  by_cases haccepts : expected.accepts found = true
  · simp only [hleft, hconst, hright, if_pos haccepts, Prod.mk.injEq, and_true] at h
    obtain ⟨rfl, rfl⟩ := h
    exact ⟨(Target.settledAs hkept htarget hleft).settled,
      (Expr.settledAs hkept value hvalue hright).settled⟩
  · simp [hleft, hconst, hright, haccepts] at h

theorem checkCondition_settled (hkept : t.KeptBy ctx T) {keyword : Token}
    {condition condition' : Expr} (hcondition : condition.Grammatical)
    (h : checkCondition t ctx keyword condition = (condition', .ok ())) :
    condition'.toNode.Settled T ctx.procedure := by
  rw [checkCondition] at h
  rcases hc : condition.check t ctx with ⟨found', e | found⟩
  · simp [hc] at h
  by_cases hbool : found = .bool
  · simp only [hc, if_pos hbool, Prod.mk.injEq, and_true] at h
    subst h
    exact (Expr.settledAs hkept condition hcondition hc).settled
  · simp [hc, hbool] at h

theorem checkForHead_settled (hkept : t.KeptBy ctx T) {item item' : Identifier}
    {iterable iterable' : Expr} (hitem : item.Grammatical) (hiterable : iterable.Grammatical)
    (h : checkForHead t ctx item iterable = ((item', iterable'), .ok ())) :
    item'.toNode.Settled T ctx.procedure ∧ iterable'.toNode.Settled T ctx.procedure := by
  rw [checkForHead] at h
  rcases hi : item.check t ctx with ⟨left, e | itemTy⟩
  · simp [hi] at h
  rcases hl : iterable.check t ctx with ⟨right, e | listTy⟩
  · simp [hi, hl] at h
  by_cases hlist : itemTy.toListType? = some listTy
  · simp only [hi, hl, if_pos hlist, Prod.mk.injEq, and_true] at h
    obtain ⟨rfl, rfl⟩ := h
    exact ⟨(Identifier.settledAs hkept hitem hi).settled,
      (Expr.settledAs hkept iterable hiterable hl).settled⟩
  · simp [hi, hl, hlist] at h

theorem checkCall_settled (hkept : t.KeptBy ctx T) {callee : Token} {args args' : List Expr}
    {ty : Ty} (hargs : Expr.AllGrammatical args)
    (h : checkCall t ctx callee args = (args', .ok ty)) :
    ∀ n ∈ Expr.toNodes args', n.Settled T ctx.procedure := by
  rw [checkCall] at h
  rcases hcallee : t.callee callee args.length with e | p
  · simp [hcallee] at h
  rcases hall : Expr.checkArgs t ctx p.parameters args with ⟨found, e | _⟩
  · simp [hcallee, hall] at h
  simp only [hcallee, hall, Prod.mk.injEq, Except.ok.injEq] at h
  obtain ⟨rfl, rfl⟩ := h
  obtain ⟨-, hlength⟩ := (callee_eq_ok_iff callee args.length p).1 hcallee
  exact Expr.args_settled hkept args hargs (Nat.le_of_eq hlength) hall

/-- A return without a value is of no type, and one with a value is of the type of the value. -/
theorem checkReturn_cases (hkept : t.KeptBy ctx T) {keyword : Token} {value value' : Option Expr}
    {ty : Ty} (hvalue : ∀ e ∈ value, e.Grammatical)
    (h : checkReturn t ctx keyword value = (value', .ok ty)) :
    (value' = none ∧ ty = .void) ∨
      ∃ e, value' = some e ∧ e.toNode.SettledAs T ctx.procedure ty := by
  rw [checkReturn] at h
  rcases hcurrent : t.current? ctx with _ | p
  · simp [hcurrent] at h
  rcases hreturned : checkReturned t ctx value with ⟨found', e | found⟩
  · simp [hcurrent, hreturned] at h
  by_cases haccepts : p.returnType.accepts found = true
  · simp only [hcurrent, hreturned, if_pos haccepts, Prod.mk.injEq, Except.ok.injEq] at h
    obtain ⟨rfl, rfl⟩ := h
    cases value with
    | none =>
      cases hreturned
      exact .inl ⟨rfl, rfl⟩
    | some e =>
      rw [checkReturned] at hreturned
      rcases he : e.check t ctx with ⟨e', result⟩
      rw [he] at hreturned
      cases hreturned
      exact .inr ⟨e', rfl, Expr.settledAs hkept e (hvalue e rfl) he⟩
  · simp [hcurrent, hreturned, haccepts] at h

/-- The slot of a node that stands for no value. -/
theorem Node.settled_void {n : Node} (hslot : n.slot = some .void)
    (hholds : n.Holds T ctx.procedure .void) (hinner : n.inner ctx.procedure = ctx.procedure)
    (hparts : ∀ c ∈ n.children, c.Settled T ctx.procedure) : n.Settled T ctx.procedure :=
  (Node.settledAs_mk hslot hholds hinner hparts).settled

def Block.Settles (T : Tables) (ctx : Context) (b : Block) : Prop :=
  ∀ {t t' : Tables} {b' : Block}, t.KeptBy ctx T → b.check ctx t = (b', t', .ok ()) →
    b'.toNode.Settled T ctx.procedure

def ElseIfs.Settles (T : Tables) (ctx : Context) (b : ElseIfs) : Prop :=
  ∀ {t t' : Tables} {b' : ElseIfs}, t.KeptBy ctx T → b.check ctx t = (b', t', .ok ()) →
    ∀ n ∈ b'.toNodes, n.Settled T ctx.procedure

def Else.Settles (T : Tables) (ctx : Context) (b : Else) : Prop :=
  ∀ {t t' : Tables} {b' : Else}, t.KeptBy ctx T → b.check ctx t = (b', t', .ok ()) →
    ∀ n ∈ b'.toNodes, n.Settled T ctx.procedure

namespace Statement

variable {s' : Statement} {t' : Tables} {keyword : Token} {slot : Slot}

theorem assignment_settled (hkept : t.KeptBy ctx T) {target : Target} {symbol : Token}
    {value : Expr} (htarget : target.Grammatical) (hvalue : value.Grammatical)
    (h : Statement.check ctx t (.assignment target symbol value slot) = (s', t', .ok ())) :
    s'.toNode.Settled T ctx.procedure := by
  rw [Statement.check] at h
  rcases hparts : checkAssignment t ctx target symbol value with ⟨⟨target', value'⟩, e | _⟩
  · simp [hparts] at h
  simp only [hparts, Prod.mk.injEq, and_true] at h
  obtain ⟨rfl, rfl⟩ := h
  obtain ⟨htarget, hvalue⟩ := checkAssignment_settled hkept htarget hvalue hparts
  exact Node.settled_void rfl rfl rfl (by simpa [toNode] using ⟨htarget, hvalue⟩)

theorem call_settled (hkept : t.KeptBy ctx T) {callee : Token} {args : List Expr}
    (hargs : Expr.AllGrammatical args)
    (h : Statement.check ctx t (.call callee args slot) = (s', t', .ok ())) :
    s'.toNode.Settled T ctx.procedure := by
  rw [Statement.check] at h
  rcases hcall : checkCall t ctx callee args with ⟨args', e | ty⟩
  · simp [hcall] at h
  simp only [hcall, Prod.mk.injEq, and_true] at h
  obtain ⟨rfl, rfl⟩ := h
  exact Node.settled_void rfl rfl rfl (checkCall_settled hkept hargs hcall)

/-- Every branch is checked in the tables that the branches before it leave. -/
theorem conditional_settled (hkept : t.KeptBy ctx T) {condition : Expr} {body : Block}
    {elseIfs : ElseIfs} {elseIfsSlot : Slot} {otherwise : Else}
    (hcondition : condition.Grammatical) (hbody : body.Settles T ctx)
    (helseIfs : elseIfs.Settles T ctx) (hotherwise : otherwise.Settles T ctx)
    (h : Statement.check ctx t
      (.conditional keyword condition body elseIfs elseIfsSlot otherwise slot) = (s', t', .ok ())) :
    s'.toNode.Settled T ctx.procedure := by
  rw [Statement.check] at h
  rcases hhead : checkCondition t ctx keyword condition with ⟨condition', e | _⟩
  · simp [hhead] at h
  have hleft := body.leavesCounters ctx t
  rcases hfirst : body.check ctx t with ⟨body', t₁, e | _⟩
  · simp [hhead, hfirst] at h
  rw [hfirst] at hleft
  have hkept₁ := hkept.of_leavesCounters hleft
  have hleft := elseIfs.leavesCounters ctx t₁
  rcases hmiddle : elseIfs.check ctx t₁ with ⟨elseIfs', t₂, e | _⟩
  · simp [hhead, hfirst, hmiddle] at h
  rw [hmiddle] at hleft
  have hkept₂ := hkept₁.of_leavesCounters hleft
  rcases hlast : otherwise.check ctx t₂ with ⟨otherwise', t₃, e | _⟩
  · simp [hhead, hfirst, hmiddle, hlast] at h
  simp only [hhead, hfirst, hmiddle, hlast, Prod.mk.injEq, and_true] at h
  obtain ⟨rfl, rfl⟩ := h
  have hmiddle : Node.Settled T ctx.procedure
      ⟨.elseIfList, none, some .void, none, elseIfs'.toNodes⟩ :=
    Node.settled_void rfl rfl rfl (helseIfs hkept₁ hmiddle)
  refine Node.settled_void rfl rfl rfl (List.forall_mem_append.2 ⟨?_, hotherwise hkept₂ hlast⟩)
  simpa using ⟨checkCondition_settled hkept hcondition hhead, hbody hkept hfirst, hmiddle⟩

theorem loop_settled (hkept : t.KeptBy ctx T) {body : Block} (hbody : body.Settles T ctx.withLoop)
    (h : Statement.check ctx t (.loop keyword body slot) = (s', t', .ok ())) :
    s'.toNode.Settled T ctx.procedure := by
  rw [Statement.check] at h
  rcases hresult : body.check ctx.withLoop t with ⟨body', t₁, e | _⟩
  · simp [hresult] at h
  simp only [hresult, Prod.mk.injEq, and_true] at h
  obtain ⟨rfl, rfl⟩ := h
  have hsettled : body'.toNode.Settled T ctx.procedure := hbody hkept.withLoop hresult
  exact Node.settled_void rfl rfl rfl (by simpa [toNode] using hsettled)

/-- The counter of a loop is in the tables before its body is checked. -/
theorem forEach_settled (hkept : t.KeptBy ctx T) {item : Identifier} {iterable : Expr}
    {body : Block} (hitem : item.Grammatical) (hiterable : iterable.Grammatical)
    (hbody : body.Settles T ctx.withLoop)
    (h : Statement.check ctx t (.forEach keyword item iterable body slot) = (s', t', .ok ())) :
    s'.toNode.Settled T ctx.procedure := by
  rw [Statement.check] at h
  rcases hhead : checkForHead t ctx item iterable with ⟨⟨item', iterable'⟩, e | _⟩
  · simp [hhead] at h
  have hcounter : LeavesCounters ctx t [item'.name]
      (t.declare ctx (counterName item'.name) (.var .int), .ok ()) :=
    ⟨[item'.name], List.prefix_rfl, rfl, fun _ => rfl⟩
  rcases hresult : body.check ctx.withLoop
    (t.declare ctx (counterName item'.name) (.var .int)) with ⟨body', t₁, e | _⟩
  · simp [hhead, hresult] at h
  simp only [hhead, hresult, Prod.mk.injEq, and_true] at h
  obtain ⟨rfl, rfl⟩ := h
  obtain ⟨hitem, hiterable⟩ := checkForHead_settled hkept hitem hiterable hhead
  have hsettled : body'.toNode.Settled T ctx.procedure :=
    hbody (hkept.of_leavesCounters hcounter).withLoop hresult
  exact Node.settled_void rfl rfl rfl (by simpa [toNode] using ⟨hitem, hiterable, hsettled⟩)

theorem returning_settled (hkept : t.KeptBy ctx T) {value : Option Expr}
    (hvalue : ∀ e ∈ value, e.Grammatical)
    (h : Statement.check ctx t (.returning keyword value slot) = (s', t', .ok ())) :
    s'.toNode.Settled T ctx.procedure := by
  rw [Statement.check] at h
  rcases hreturn : checkReturn t ctx keyword value with ⟨value', e | ty⟩
  · simp [hreturn] at h
  simp only [hreturn, Prod.mk.injEq, and_true] at h
  obtain ⟨rfl, rfl⟩ := h
  rcases checkReturn_cases hkept hvalue hreturn with ⟨rfl, rfl⟩ | ⟨e, rfl, he⟩
  · have hholds : Node.Holds T ctx.procedure
        (Statement.toNode (.returning keyword none (some .void))) .void :=
      .inl ⟨rfl, rfl⟩
    exact (Node.settledAs_leaf rfl hholds rfl).settled
  · have hholds : Node.Holds T ctx.procedure
        (Statement.toNode (.returning keyword (some e) (some ty))) ty :=
      .inr ⟨e.toNode, rfl, he.slot⟩
    exact (Node.settledAs_mk rfl hholds rfl (by simpa [toNode] using he.settled)).settled

theorem exit_settled (h : Statement.check ctx t (.exit keyword slot) = (s', t', .ok ())) :
    s'.toNode.Settled T ctx.procedure := by
  rw [Statement.check] at h
  split at h
  · cases h
    exact Node.settled_void rfl rfl rfl (by simp [toNode])
  · cases h

end Statement

end

section

variable {T : Tables}

mutual

theorem Statement.settled {ctx : Context} {t : Tables} (hkept : t.KeptBy ctx T) (s : Statement)
    (hs : s.Grammatical) {s' : Statement} {t' : Tables} (h : s.check ctx t = (s', t', .ok ())) :
    s'.toNode.Settled T ctx.procedure := by
  cases s with
  | assignment target symbol value slot =>
    exact Statement.assignment_settled hkept hs.1 hs.2.2 h
  | call callee args slot => exact Statement.call_settled hkept hs.2 h
  | conditional keyword condition body elseIfs elseIfsSlot otherwise slot =>
    obtain ⟨-, hcondition, hbody, helseIfs, hotherwise⟩ := hs
    refine Statement.conditional_settled hkept hcondition ?_ ?_ ?_ h
    · exact fun hkept hcheck => Block.settled hkept body hbody hcheck
    · exact fun hkept hcheck => ElseIfs.settled hkept elseIfs helseIfs hcheck
    · exact fun hkept hcheck => Else.settled hkept otherwise hotherwise hcheck
  | loop keyword body slot =>
    refine Statement.loop_settled hkept ?_ h
    exact fun hkept hcheck => Block.settled hkept body hs.2 hcheck
  | forEach keyword item iterable body slot =>
    obtain ⟨-, hitem, hiterable, hbody⟩ := hs
    refine Statement.forEach_settled hkept hitem hiterable ?_ h
    exact fun hkept hcheck => Block.settled hkept body hbody hcheck
  | returning keyword value slot => exact Statement.returning_settled hkept hs.2 h
  | exit keyword slot => exact Statement.exit_settled h
termination_by structural s

theorem Block.settled {ctx : Context} {t : Tables} (hkept : t.KeptBy ctx T) (b : Block)
    (hb : b.Grammatical) {b' : Block} {t' : Tables} (h : b.check ctx t = (b', t', .ok ())) :
    b'.toNode.Settled T ctx.procedure := by
  cases b with | mk statements slot =>
  rw [Block.check] at h
  rcases hall : Statement.checkAll ctx t statements with ⟨statements', t₁, e | _⟩
  · simp [hall] at h
  simp only [hall, Prod.mk.injEq, and_true] at h
  obtain ⟨rfl, rfl⟩ := h
  exact Node.settled_void rfl rfl rfl (Statement.all_settled hkept statements hb hall)
termination_by structural b

theorem Statement.all_settled {ctx : Context} {t : Tables} (hkept : t.KeptBy ctx T)
    (ss : List Statement) (hss : Statement.AllGrammatical ss) {ss' : List Statement} {t' : Tables}
    (h : Statement.checkAll ctx t ss = (ss', t', .ok ())) :
    ∀ n ∈ Statement.toNodes ss', n.Settled T ctx.procedure := by
  cases ss with
  | nil =>
    cases h
    simp [Statement.toNodes]
  | cons s ss =>
    rw [Statement.checkAll] at h
    have hleft := s.leavesCounters ctx t
    rcases hs : s.check ctx t with ⟨s', t₁, e | _⟩
    · simp [hs] at h
    rw [hs] at hleft
    rcases hrest : Statement.checkAll ctx t₁ ss with ⟨rest, t₂, result⟩
    simp only [hs, hrest, Prod.mk.injEq] at h
    obtain ⟨rfl, rfl, rfl⟩ := h
    exact List.forall_mem_cons.2 ⟨Statement.settled hkept s hss.1 hs,
      Statement.all_settled (hkept.of_leavesCounters hleft) ss hss.2 hrest⟩
termination_by structural ss

theorem ElseIfs.settled {ctx : Context} {t : Tables} (hkept : t.KeptBy ctx T) (b : ElseIfs)
    (hb : b.Grammatical) {b' : ElseIfs} {t' : Tables} (h : b.check ctx t = (b', t', .ok ())) :
    ∀ n ∈ b'.toNodes, n.Settled T ctx.procedure := by
  cases b with
  | nil =>
    cases h
    simp [ElseIfs.toNodes]
  | cons keyword condition body slot rest =>
    obtain ⟨-, hbc, hbb, hbr⟩ := hb
    rw [ElseIfs.check] at h
    rcases hcondition : checkCondition t ctx keyword condition with ⟨condition', e | _⟩
    · simp [hcondition] at h
    have hleft := body.leavesCounters ctx t
    rcases hbody : body.check ctx t with ⟨body', t₁, e | _⟩
    · simp [hcondition, hbody] at h
    rw [hbody] at hleft
    rcases hrest : rest.check ctx t₁ with ⟨rest', t₂, result⟩
    simp only [hcondition, hbody, hrest, Prod.mk.injEq] at h
    obtain ⟨rfl, rfl, rfl⟩ := h
    have hcondition := checkCondition_settled hkept hbc hcondition
    have hbody := Block.settled hkept body hbb hbody
    refine List.forall_mem_cons.2
      ⟨?_, ElseIfs.settled (hkept.of_leavesCounters hleft) rest hbr hrest⟩
    exact Node.settled_void rfl rfl rfl (by simpa using ⟨hcondition, hbody⟩)
termination_by structural b

theorem Else.settled {ctx : Context} {t : Tables} (hkept : t.KeptBy ctx T) (b : Else)
    (hb : b.Grammatical) {b' : Else} {t' : Tables} (h : b.check ctx t = (b', t', .ok ())) :
    ∀ n ∈ b'.toNodes, n.Settled T ctx.procedure := by
  cases b with
  | absent =>
    cases h
    simp [Else.toNodes]
  | present keyword body slot =>
    rw [Else.check] at h
    rcases hbody : body.check ctx t with ⟨body', t₁, e | _⟩
    · simp [hbody] at h
    simp only [hbody, Prod.mk.injEq, and_true] at h
    obtain ⟨rfl, rfl⟩ := h
    have hbody := Block.settled hkept body hb.2 hbody
    refine List.forall_mem_singleton.2 (Node.settled_void rfl rfl rfl ?_)
    simpa using hbody
termination_by structural b

end

end

end TeachLang
