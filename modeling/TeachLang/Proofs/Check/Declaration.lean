import TeachLang.Check.Declaration
import TeachLang.Proofs.Check.Statement

/-! # Declarations against the rules

A check of declarations succeeds exactly where its items are fine and their names are
new in the scope, and then it has declared one row for each name.  From this the checks
of lists, of optional parts and of procedures are put together.
-/

namespace TeachLang

/-- The rows of some items, each item on top of the tables that the items before it leave. -/
def rowsEach {α : Type} (ctx : Context) (rows : Tables → α → List (String × Register)) (t : Tables) :
    List α → List (String × Register)
  | [] => []
  | a :: as => rows t a ++ rowsEach ctx rows (t.declareAll ctx (rows t a)) as

/-- A check that succeeds exactly where its item is fine and its names are new, and that has then
declared the rows of the item. -/
structure Declares {α : Type} (ctx : Context) (check : Tables → α → Visited α) (fine : α → Prop)
    (rows : Tables → α → List (String × Register)) : Prop where
  ok_iff : ∀ t a, (check t a).2.2 = .ok () ↔ fine a ∧ (t.scope ctx).Fresh (rows t a)
  tables : ∀ t a, (check t a).2.2 = .ok () → (check t a).2.1 = t.declareAll ctx (rows t a)

section

variable {α : Type} {ctx : Context} {check : Tables → α → Visited α} {fine : α → Prop}
  {rows : Tables → α → List (String × Register)}

theorem SymbolTable.fresh_nil (m : SymbolTable) : m.Fresh [] := by simp [Fresh]

theorem SymbolTable.fresh_singleton {m : SymbolTable} {row : String × Register} :
    m.Fresh [row] ↔ m.contains row.1 = false := by
  simp [Fresh, NameMap.contains_eq_false_iff]

theorem SymbolTable.fresh_iff {m : SymbolTable} {rows : List (String × Register)} :
    m.Fresh rows ↔ (rows.map (·.1)).Nodup ∧ ∀ x ∈ rows.map (·.1), m.get? x = none := by
  simp [Fresh]

theorem rowsEach_const (row : α → List (String × Register)) (t : Tables) (as : List α) :
    rowsEach ctx (fun _ => row) t as = as.flatMap row := by
  induction as generalizing t with
  | nil => rfl
  | cons a as ih => rw [rowsEach, ih, List.flatMap_cons]

theorem map_fst_rowsEach (names : α → List String) (h : ∀ t a, (rows t a).map (·.1) = names a)
    (t : Tables) (as : List α) : (rowsEach ctx rows t as).map (·.1) = as.flatMap names := by
  induction as generalizing t with
  | nil => rfl
  | cons a as ih => rw [rowsEach, List.map_append, h, ih, List.flatMap_cons]

def checkBoth {α β : Type} (check : Tables → α → Visited α) (other : Tables → β → Visited β)
    (t : Tables) (parts : α × β) : Visited (α × β) :=
  match check t parts.1 with
  | (a, t, .error e) => ((a, parts.2), t, .error e)
  | (a, t, .ok ()) =>
    match other t parts.2 with
    | (b, t, result) => ((a, b), t, result)

theorem checkBoth_eq_ok_iff {β : Type} (other : Tables → β → Visited β) (t : Tables) (a : α)
    (b : β) : (checkBoth check other t (a, b)).2.2 = .ok () ↔
      (check t a).2.2 = .ok () ∧ (other (check t a).2.1 b).2.2 = .ok () := by
  rw [checkBoth]
  rcases check t a with ⟨a', t', e | _⟩ <;> simp

theorem checkBoth_tables {β : Type} {other : Tables → β → Visited β} {t : Tables} {a : α} {b : β}
    (h : (check t a).2.2 = .ok ()) :
    (checkBoth check other t (a, b)).2.1 = (other (check t a).2.1 b).2.1 := by
  rw [checkBoth]
  generalize check t a = left at h ⊢
  rcases left with ⟨a', t', e | _⟩
  · cases h
  · rfl

namespace Declares

/-- The items of a list are checked on top of each other. -/
theorem each (h : Declares ctx check fine rows) :
    Declares ctx (checkEach check) (fun as => ∀ a ∈ as, fine a) (rowsEach ctx rows) := by
  have hcons : ∀ t a as, (checkEach check t (a :: as)).2.2 = .ok () ↔
      (check t a).2.2 = .ok () ∧ (checkEach check (check t a).2.1 as).2.2 = .ok () := by
    intro t a as
    rw [checkEach]
    rcases check t a with ⟨a', t', e | _⟩ <;> simp
  constructor
  · intro t as
    induction as generalizing t with
    | nil => simp [checkEach, rowsEach, SymbolTable.fresh_nil]
    | cons a as ih =>
      rw [hcons, List.forall_mem_cons, rowsEach, SymbolTable.fresh_append, h.ok_iff,
        ← Tables.scope_declareAll]
      constructor
      · rintro ⟨ha, has⟩
        rw [h.tables t a ((h.ok_iff t a).2 ha), ih] at has
        exact ⟨⟨ha.1, has.1⟩, ha.2, has.2⟩
      · rintro ⟨⟨ha, has⟩, hfresh, hrest⟩
        have hok := (h.ok_iff t a).2 ⟨ha, hfresh⟩
        rw [h.tables t a hok, ih]
        exact ⟨⟨ha, hfresh⟩, has, hrest⟩
  · intro t as
    induction as generalizing t with
    | nil => exact fun _ => rfl
    | cons a as ih =>
      intro hok
      obtain ⟨ha, has⟩ := (hcons t a as).1 hok
      have htables : (checkEach check t (a :: as)).2.1 =
          (checkEach check (check t a).2.1 as).2.1 := by
        rw [checkEach]
        generalize check t a = left at ha ⊢
        rcases left with ⟨a', t', e | _⟩
        · cases ha
        · rfl
      rw [htables, ih _ has, h.tables t a ha, rowsEach, Tables.declareAll_append]

/-- A part that is missing declares nothing. -/
theorem option (h : Declares ctx check fine rows) :
    Declares ctx (checkOption check) (fun o => ∀ a ∈ o, fine a)
      (fun t o => o.elim [] (rows t)) := by
  constructor
  · rintro t (_ | a)
    · simp [checkOption, SymbolTable.fresh_nil]
    · simpa [checkOption] using h.ok_iff t a
  · rintro t (_ | a) hok
    · rfl
    · exact h.tables t a hok

/-- Two parts are checked on top of each other. -/
theorem both {β : Type} {other : Tables → β → Visited β} {fine' : β → Prop}
    {rows' : Tables → β → List (String × Register)} (h : Declares ctx check fine rows)
    (h' : Declares ctx other fine' rows') :
    Declares ctx (checkBoth check other) (fun parts => fine parts.1 ∧ fine' parts.2)
      (fun t parts => rows t parts.1 ++ rows' (t.declareAll ctx (rows t parts.1)) parts.2) := by
  constructor
  · rintro t ⟨a, b⟩
    rw [checkBoth_eq_ok_iff, SymbolTable.fresh_append, ← Tables.scope_declareAll, h.ok_iff]
    constructor
    · rintro ⟨⟨ha, hfresh⟩, hb⟩
      rw [h.tables t a ((h.ok_iff t a).2 ⟨ha, hfresh⟩), h'.ok_iff] at hb
      exact ⟨⟨ha, hb.1⟩, hfresh, hb.2⟩
    · rintro ⟨⟨ha, hb⟩, hfresh, hfresh'⟩
      refine ⟨⟨ha, hfresh⟩, ?_⟩
      rw [h.tables t a ((h.ok_iff t a).2 ⟨ha, hfresh⟩), h'.ok_iff]
      exact ⟨hb, hfresh'⟩
  · rintro t ⟨a, b⟩ hok
    obtain ⟨ha, hb⟩ := (checkBoth_eq_ok_iff ..).1 hok
    rw [checkBoth_tables ha, h'.tables _ _ hb, h.tables t a ha, Tables.declareAll_append]

/-- A check that does with its item what another one does with a part of it. -/
theorem of_part {β : Type} {check : β → Tables → α → Visited α} {fine : β → α → Prop}
    {rows : β → Tables → α → List (String × Register)}
    (whole : Tables → β → Visited β) (part : β → α)
    (h : ∀ b, Declares ctx (check b) (fine b) (rows b))
    (hresult : ∀ t b, (whole t b).2 = (check b t (part b)).2) :
    Declares ctx whole (fun b => fine b (part b)) (fun t b => rows b t (part b)) where
  ok_iff t b := by rw [hresult, (h b).ok_iff]
  tables t b hok := by
    rw [hresult] at hok ⊢
    exact (h b).tables t (part b) hok

end Declares

end

def ConstantDecl.row (d : ConstantDecl) : String × Register :=
  (d.name.text, .const d.value.ty d.value.check.1.value?)

theorem ListLiteral.ty_eq_list_iff (l : ListLiteral) : l.ty = .list ↔ l.elements = [] := by
  unfold ty
  cases l.elements with
  | nil => simp
  | cons e es =>
    have hne : e.value.listTy ≠ .list := by cases e.value <;> simp [LiteralValue.listTy]
    simpa using hne

theorem ConstantValue.check_eq_ok_iff (v : ConstantValue) (ty : Ty) :
    v.check.2 = .ok ty ∧ ty ≠ .list ↔ v.WellTyped ∧ v.ty = ty := by
  cases v with
  | simple l =>
    have hne : l.value.ty ≠ .list := by cases l.value <;> simp [LiteralValue.ty]
    rw [ConstantValue.check, l.check_eq_ok_iff]
    constructor
    · exact And.left
    · rintro ⟨hfits, rfl⟩
      exact ⟨⟨hfits, rfl⟩, hne⟩
  | list l =>
    rw [ConstantValue.check, l.check_eq_ok_iff, ConstantValue.WellTyped, ConstantValue.ty]
    constructor
    · rintro ⟨⟨hwell, rfl⟩, hne⟩
      exact ⟨⟨hwell, mt l.ty_eq_list_iff.2 hne⟩, rfl⟩
    · rintro ⟨⟨hwell, hne⟩, rfl⟩
      exact ⟨⟨hwell, rfl⟩, mt l.ty_eq_list_iff.1 hne⟩

section

variable (ctx : Context)

theorem ConstantDecl.check_eq_ok_iff (t : Tables) (d : ConstantDecl) :
    (d.check ctx t).2.2 = .ok () ↔
      (t.scope ctx).contains d.name.text = false ∧ d.value.WellTyped := by
  have hvalue := d.value.check_eq_ok_iff
  have hwell : d.value.WellTyped ↔ ∃ ty, d.value.check.2 = .ok ty ∧ ty ≠ .list := by
    simp [hvalue]
  rw [hwell, ConstantDecl.check]
  by_cases hnew : (t.scope ctx).contains d.name.text = true
  · simp [hnew]
  rw [if_neg hnew, Bool.eq_false_iff]
  rcases d.value.check with ⟨value, e | ty⟩
  · simp
  · by_cases hlist : ty = .list <;> simp [hlist, hnew]

theorem ConstantDecl.declares :
    Declares ctx (ConstantDecl.check ctx) (·.value.WellTyped) (fun _ d => [d.row]) where
  ok_iff t d := by rw [SymbolTable.fresh_singleton, d.check_eq_ok_iff ctx, and_comm]; rfl
  tables t d hok := by
    obtain ⟨hnew, hwell⟩ := (d.check_eq_ok_iff ctx t).1 hok
    obtain ⟨hvalue, hne⟩ := (d.value.check_eq_ok_iff d.value.ty).2 ⟨hwell, rfl⟩
    rw [Tables.declareAll_cons, Tables.declareAll_nil, ConstantDecl.row, ConstantDecl.check,
      if_neg (by simp [hnew])]
    generalize d.value.check = left at hvalue ⊢
    obtain ⟨value, result⟩ := left
    obtain rfl : result = .ok d.value.ty := hvalue
    simp [hne]

def ConstantList.rows (l : ConstantList) : List (String × Register) :=
  l.declarations.map ConstantDecl.row

theorem ConstantList.declares :
    Declares ctx (ConstantList.check ctx) ConstantList.WellTyped (fun _ l => l.rows) := by
  have h := Declares.of_part (ConstantList.check ctx) ConstantList.declarations
    (fun _ => (ConstantDecl.declares ctx).each) (fun t l => ?_)
  · simp only [rowsEach_const, ← List.map_eq_flatMap] at h
    exact h
  · rw [ConstantList.check]
    rcases checkEach (ConstantDecl.check ctx) t l.declarations with ⟨_, _, e | _⟩ <;> rfl

theorem Identifier.declares (kind : BindingKind) (ty : Ty) :
    Declares ctx (fun t => Identifier.declare ctx t kind ty) (fun _ => True)
      (fun t i => [(i.name, kind.register ctx t ty)]) where
  ok_iff t i := by
    rw [SymbolTable.fresh_singleton, Identifier.declare]
    by_cases hnew : (t.scope ctx).contains i.name = true <;> simp [hnew]
  tables t i hok := by
    unfold Identifier.declare at hok ⊢
    by_cases hnew : (t.scope ctx).contains i.name = true
    · simp [hnew] at hok
    · simp [hnew]

def BindingDecl.rows (ctx : Context) (kind : BindingKind) (t : Tables) (d : BindingDecl) :
    List (String × Register) :=
  rowsEach ctx (fun t i => [(i.name, kind.register ctx t d.type.denoted)]) t d.names

theorem BindingDecl.declares (kind : BindingKind) :
    Declares ctx (fun t => BindingDecl.check ctx t kind) (fun _ => True) (rows ctx kind) := by
  have h := Declares.of_part (fun t => BindingDecl.check ctx t kind) BindingDecl.names
    (fun d => (Identifier.declares ctx kind d.type.denoted).each) (fun t d => ?_)
  · simp only [implies_true] at h
    exact h
  · rw [BindingDecl.check]
    rcases checkEach (fun t => Identifier.declare ctx t kind d.type.denoted) t d.names
      with ⟨_, _, e | _⟩ <;> rfl

theorem BindingDecl.rows_var (t : Tables) (d : BindingDecl) :
    d.rows ctx .var t = d.names.map fun i => (i.name, .var d.type.denoted) := by
  unfold rows
  simp only [BindingKind.register]
  rw [rowsEach_const (fun i : Identifier => [(i.name, Register.var d.type.denoted)]),
    ← List.map_eq_flatMap]

def VariableList.rows (l : VariableList) : List (String × Register) :=
  l.declarations.flatMap fun d => d.names.map fun i => (i.name, .var d.type.denoted)

theorem VariableList.declares :
    Declares ctx (VariableList.check ctx) (fun _ => True) (fun _ l => l.rows) := by
  have hrows : BindingDecl.rows ctx .var =
      fun _ d => d.names.map fun i => (i.name, .var d.type.denoted) := by
    funext t d
    exact d.rows_var ctx t
  have h := Declares.of_part (VariableList.check ctx) VariableList.declarations
    (fun _ => (BindingDecl.declares ctx .var).each) (fun t l => ?_)
  · simp only [implies_true, hrows, rowsEach_const] at h
    exact h
  · rw [VariableList.check]
    rcases checkEach (fun t => BindingDecl.check ctx t .var) t l.declarations with ⟨_, _, e | _⟩ <;>
      rfl

def localRows (constants : Option ConstantList) (vars : Option VariableList) :
    List (String × Register) :=
  constants.elim [] (·.rows) ++ vars.elim [] (·.rows)

theorem declaresLocals :
    Declares ctx
      (checkBoth (checkOption (ConstantList.check ctx)) (checkOption (VariableList.check ctx)))
      (fun parts => ∀ l ∈ parts.1, l.WellTyped) (fun _ parts => localRows parts.1 parts.2) := by
  simpa [localRows] using (ConstantList.declares ctx).option.both (VariableList.declares ctx).option

theorem ParameterList.declares :
    Declares ctx (ParameterList.check ctx) (fun _ => True)
      (fun t l => rowsEach ctx (BindingDecl.rows ctx .param) t l.declarations) := by
  have h := Declares.of_part (ParameterList.check ctx) ParameterList.declarations
    (fun _ => (BindingDecl.declares ctx .param).each) (fun t l => ?_)
  · simpa using h
  · rw [ParameterList.check]
    rcases checkEach (fun t => BindingDecl.check ctx t .param) t l.declarations with
      ⟨_, _, e | _⟩ <;> rfl

end

end TeachLang
