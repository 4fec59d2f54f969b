import TeachLang.Proofs.Check.Expr

/-! # Hidden counters

Whatever its outcome, the check of statements adds to the tables nothing but hidden
counters of loops, which no name of a program can find.  So tables that agree with a
scope go on to agree with it.
-/

namespace TeachLang

/-- The rows of the hidden counters of loops over some variables. -/
def counterRows (items : List String) : List (String × Register) :=
  items.map fun item => (counterName item, .var .int)

mutual

/-- The variables of the loops over lists, outer loops first. -/
def Statement.loopItems : Statement → List String
  | .conditional _ _ body elseIfs _ otherwise _ =>
    body.loopItems ++ (elseIfs.loopItems ++ otherwise.loopItems)
  | .loop _ body _ => body.loopItems
  | .forEach _ item _ body _ => item.name :: body.loopItems
  | .assignment _ _ _ _ | .call _ _ _ | .returning _ _ _ | .exit _ _ => []

def Block.loopItems : Block → List String
  | .mk statements _ => Statement.allLoopItems statements

def Statement.allLoopItems : List Statement → List String
  | [] => []
  | s :: ss => s.loopItems ++ Statement.allLoopItems ss

def ElseIfs.loopItems : ElseIfs → List String
  | .nil => []
  | .cons _ _ body _ rest => body.loopItems ++ rest.loopItems

def Else.loopItems : Else → List String
  | .absent => []
  | .present _ body _ => body.loopItems

end

/-- A check that has declared the counters of the first of some loops, and of all when it
succeeded. -/
def LeavesCounters (ctx : Context) (t : Tables) (items : List String)
    (left : Tables × Except SemanticError Unit) : Prop :=
  ∃ first, first <+: items ∧ left.1 = t.declareAll ctx (counterRows first) ∧
    (left.2 = .ok () → first = items)

namespace LeavesCounters

variable {ctx : Context} {t t' : Tables} {items more : List String}

theorem refl (result : Except SemanticError Unit) : LeavesCounters ctx t [] (t, result) :=
  ⟨[], List.prefix_rfl, rfl, fun _ => rfl⟩

theorem of_error {e : SemanticError} (h : LeavesCounters ctx t items (t', .error e)) :
    LeavesCounters ctx t (items ++ more) (t', .error e) := by
  obtain ⟨first, hfirst, htables, -⟩ := h
  exact ⟨first, hfirst.trans (List.prefix_append _ _), htables, fun h => by cases h⟩

theorem eq_of_ok (h : LeavesCounters ctx t items (t', .ok ())) :
    t' = t.declareAll ctx (counterRows items) := by
  obtain ⟨first, -, htables, hall⟩ := h
  rw [← hall rfl]
  exact htables

theorem append {left : Tables × Except SemanticError Unit}
    (h : LeavesCounters ctx t items (t', .ok ())) (hmore : LeavesCounters ctx t' more left) :
    LeavesCounters ctx t (items ++ more) left := by
  obtain ⟨first, hfirst, htables, hall⟩ := hmore
  refine ⟨items ++ first, (List.prefix_append_right_inj items).2 hfirst, ?_, fun hok => ?_⟩
  · rw [htables, h.eq_of_ok, counterRows, counterRows, counterRows, List.map_append,
      Tables.declareAll_append]
  · rw [hall hok]

theorem of_withLoop {left : Tables × Except SemanticError Unit}
    (h : LeavesCounters ctx.withLoop t items left) : LeavesCounters ctx t items left := h

end LeavesCounters

theorem Identifier.check_token (t : Tables) (ctx : Context) (i : Identifier) :
    (i.check t ctx).1.token = i.token := by
  unfold Identifier.check
  cases t.lookup? ctx i.name <;> rfl

theorem checkForHead_token (t : Tables) (ctx : Context) (item : Identifier) (iterable : Expr) :
    (checkForHead t ctx item iterable).1.1.token = item.token := by
  have htoken := item.check_token t ctx
  unfold checkForHead
  generalize item.check t ctx = found at htoken ⊢
  obtain ⟨item', e | itemTy⟩ := found
  · exact htoken
  rcases iterable.check t ctx with ⟨iterable', e | listTy⟩
  · exact htoken
  · dsimp only
    split <;> exact htoken

theorem checkForHead_name (t : Tables) (ctx : Context) (item : Identifier) (iterable : Expr) :
    (checkForHead t ctx item iterable).1.1.name = item.name :=
  congrArg Token.text (checkForHead_token t ctx item iterable)

mutual

/-- The check of a statement adds nothing but the counters of its loops. -/
theorem Statement.leavesCounters (s : Statement) (ctx : Context) (t : Tables) :
    LeavesCounters ctx t s.loopItems (s.check ctx t).2 := by
  cases s with
  | assignment target symbol value slot =>
    rw [Statement.check]
    rcases checkAssignment t ctx target symbol value with ⟨_, e | _⟩ <;> exact .refl _
  | call callee args slot =>
    rw [Statement.check]
    rcases checkCall t ctx callee args with ⟨_, e | _⟩ <;> exact .refl _
  | conditional keyword condition body elseIfs elseIfsSlot otherwise slot =>
    have hbody := body.leavesCounters ctx t
    rw [Statement.check, Statement.loopItems]
    rcases checkCondition t ctx keyword condition with ⟨_, e | _⟩
    · exact (LeavesCounters.refl (.error e)).of_error
    generalize body.check ctx t = left at hbody ⊢
    rcases left with ⟨body', t₁, e | _⟩
    · exact hbody.of_error
    refine hbody.append ?_
    dsimp only
    have helseIfs := elseIfs.leavesCounters ctx t₁
    generalize elseIfs.check ctx t₁ = left at helseIfs ⊢
    rcases left with ⟨elseIfs', t₂, e | _⟩
    · exact helseIfs.of_error
    refine helseIfs.append ?_
    dsimp only
    have hotherwise := otherwise.leavesCounters ctx t₂
    generalize otherwise.check ctx t₂ = left at hotherwise ⊢
    rcases left with ⟨otherwise', t₃, e | _⟩ <;> exact hotherwise
  | loop keyword body slot =>
    have hbody := body.leavesCounters ctx.withLoop t
    rw [Statement.check, Statement.loopItems]
    generalize body.check ctx.withLoop t = left at hbody ⊢
    rcases left with ⟨body', t', e | _⟩ <;> exact hbody.of_withLoop
  | forEach keyword item iterable body slot =>
    have hname := checkForHead_name t ctx item iterable
    rw [Statement.check, Statement.loopItems]
    generalize checkForHead t ctx item iterable = head at hname ⊢
    obtain ⟨⟨item', iterable'⟩, e | _⟩ := head
    · have hnone : LeavesCounters ctx t [] (t, .error e) := .refl _
      exact hnone.of_error
    have hcounter : LeavesCounters ctx t [item.name]
        (t.declare ctx (counterName item'.name) (.var .int), .ok ()) :=
      ⟨[item.name], List.prefix_rfl, by rw [hname]; rfl, fun _ => rfl⟩
    dsimp only
    have hbody := body.leavesCounters ctx.withLoop
      (t.declare ctx (counterName item'.name) (.var .int))
    generalize body.check ctx.withLoop _ = left at hbody ⊢
    rcases left with ⟨body', t', e | _⟩ <;> exact hcounter.append hbody.of_withLoop
  | returning keyword value slot =>
    rw [Statement.check]
    rcases checkReturn t ctx keyword value with ⟨_, e | _⟩ <;> exact .refl _
  | exit keyword slot =>
    rw [Statement.check]
    split <;> exact .refl _

theorem Block.leavesCounters (b : Block) (ctx : Context) (t : Tables) :
    LeavesCounters ctx t b.loopItems (b.check ctx t).2 := by
  cases b with
  | mk statements slot =>
    have hall := Statement.all_leavesCounters statements ctx t
    rw [Block.check, Block.loopItems]
    generalize Statement.checkAll ctx t statements = left at hall ⊢
    rcases left with ⟨statements', t', e | _⟩ <;> exact hall

theorem Statement.all_leavesCounters (ss : List Statement) (ctx : Context) (t : Tables) :
    LeavesCounters ctx t (Statement.allLoopItems ss) (Statement.checkAll ctx t ss).2 := by
  cases ss with
  | nil => exact .refl _
  | cons s ss =>
    have hs := s.leavesCounters ctx t
    rw [Statement.checkAll, Statement.allLoopItems]
    generalize s.check ctx t = left at hs ⊢
    rcases left with ⟨s', t', e | _⟩
    · exact hs.of_error
    · exact hs.append (Statement.all_leavesCounters ss ctx t')

theorem ElseIfs.leavesCounters (b : ElseIfs) (ctx : Context) (t : Tables) :
    LeavesCounters ctx t b.loopItems (b.check ctx t).2 := by
  cases b with
  | nil => exact .refl _
  | cons keyword condition body slot rest =>
    have hbody := body.leavesCounters ctx t
    rw [ElseIfs.check, ElseIfs.loopItems]
    rcases checkCondition t ctx keyword condition with ⟨_, e | _⟩
    · exact (LeavesCounters.refl (.error e)).of_error
    generalize body.check ctx t = left at hbody ⊢
    rcases left with ⟨body', t', e | _⟩
    · exact hbody.of_error
    · exact hbody.append (rest.leavesCounters ctx t')

theorem Else.leavesCounters (b : Else) (ctx : Context) (t : Tables) :
    LeavesCounters ctx t b.loopItems (b.check ctx t).2 := by
  cases b with
  | absent => exact .refl _
  | present keyword body slot =>
    have hbody := body.leavesCounters ctx t
    rw [Else.check, Else.loopItems]
    generalize body.check ctx t = left at hbody ⊢
    rcases left with ⟨body', t', e | _⟩ <;> exact hbody

end

theorem ne_of_mem_counterRows {items : List String} {x : String} (hx : ¬ IsCounter x) :
    ∀ row ∈ counterRows items, x ≠ row.1 := by
  intro row hrow hname
  obtain ⟨item, -, rfl⟩ := List.mem_map.1 hrow
  exact hx ⟨item, hname⟩

/-- No name of a program finds a hidden counter. -/
theorem Tables.lookup?_declareCounters (t : Tables) (ctx : Context) (items : List String)
    {x : String} (hx : ¬ IsCounter x) :
    (t.declareAll ctx (counterRows items)).lookup? ctx x = t.lookup? ctx x :=
  lookup?_declareAll t ctx (ne_of_mem_counterRows hx)

section

variable {t : Tables} {ctx : Context} {Γ : Scope}

namespace Tables.Agrees

theorem withLoop (h : t.Agrees ctx Γ) : t.Agrees ctx.withLoop Γ :=
  ⟨h.names, h.procedures, h.result, h.counters⟩

/-- Hidden counters do not disturb. -/
theorem declareCounters (h : t.Agrees ctx Γ) (items : List String) :
    (t.declareAll ctx (counterRows items)).Agrees ctx Γ where
  names x hx := by
    rw [lookup?_declareCounters t ctx items hx]
    exact h.names x hx
  procedures x := by
    rw [get?_procedures_declareAll, ← h.procedures x]
    split
    next hcurrent =>
      cases hp : t.procedures.get? x with
      | none => rfl
      | some p =>
        have hscope : t.scope ctx = p.symbols := by simp [scope, current?, hcurrent, hp]
        have hrows : (p.symbols.insertAll (counterRows items)).parameterRows =
            p.symbols.parameterRows := by
          apply SymbolTable.parameterRows_insertAll_of_not_param
          · intro row hrow
            obtain ⟨item, -, rfl⟩ := List.mem_map.1 hrow
            simp
          · intro row hrow r hr
            obtain ⟨item, -, rfl⟩ := List.mem_map.1 hrow
            obtain rfl := h.counters _ r ⟨item, rfl⟩ (hscope ▸ hr)
            simp
        simp [Procedure.signature, Procedure.parameterTypes, Procedure.parameters,
          SymbolTable.parameters, hrows]
    next => rfl
  result := by
    rw [current?_declareAll, ← h.result, Option.map_map]
    rfl
  counters x r hx hr := by
    rw [scope_declareAll] at hr
    rcases SymbolTable.mem_or_get?_of_insertAll hr with hmem | hget
    · obtain ⟨item, -, hrow⟩ := List.mem_map.1 hmem
      cases hrow
      rfl
    · exact h.counters x r hx hget

theorem of_leavesCounters {t' : Tables} {items : List String} {result : Except SemanticError Unit}
    (h : t.Agrees ctx Γ) (hleft : LeavesCounters ctx t items (t', result)) : t'.Agrees ctx Γ := by
  obtain ⟨first, -, rfl, -⟩ := hleft
  exact h.declareCounters first

end Tables.Agrees

end

end TeachLang
