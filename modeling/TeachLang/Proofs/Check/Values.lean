import TeachLang.Proofs.Check.Declaration

/-! # Values of constants

The values that tables hold belong to the types of their rows.  The value of a constant is
taken from its literals one by one and is there only if all of them match; a constant that
passes its check always has one.
-/

namespace TeachLang

/-- The types of names and of the elements of lists. -/
def Ty.Concrete (ty : Ty) : Prop := ty ∈ [int, string, bool, intList, stringList, boolList]

instance (ty : Ty) : Decidable ty.Concrete := inferInstanceAs (Decidable (ty ∈ _))

/-- The integers that literals write. -/
def IsLiteralInt (n : Int) : Prop := 0 ≤ n ∧ n ≤ maxInt

/-- A value is of the variant of a type. -/
inductive Value.HasType : Value → Ty → Prop
  | int {n : Int} (h : IsLiteralInt n) : HasType (int n) .int
  | string (s : String) : HasType (string s) .string
  | bool (b : Bool) : HasType (bool b) .bool
  | ints {ns : List Int} (h : ∀ n ∈ ns, IsLiteralInt n) : HasType (ints ns) .intList
  | strings (ss : List String) : HasType (strings ss) .stringList
  | bools (bs : List Bool) : HasType (bools bs) .boolList

/-- Every variable and every parameter starts with a value of its type. -/
theorem Value.exists_default? {ty : Ty} (h : ty.Concrete) :
    ∃ v, Value.default? ty = some v ∧ v.HasType ty := by
  have hzero : IsLiteralInt 0 := by simp [IsLiteralInt]
  cases ty with
  | int => exact ⟨_, rfl, .int hzero⟩
  | string => exact ⟨_, rfl, .string _⟩
  | bool => exact ⟨_, rfl, .bool _⟩
  | intList => exact ⟨_, rfl, .ints (by simpa using hzero)⟩
  | stringList => exact ⟨_, rfl, .strings _⟩
  | boolList => exact ⟨_, rfl, .bools _⟩
  | void => simp [Ty.Concrete] at h
  | list => simp [Ty.Concrete] at h

theorem TypeExpr.concrete_denoted {e : TypeExpr} (h : e.IsWritten) : e.denoted.Concrete := by
  cases e with
  | simple token s slot => cases s <;> simp [denoted, SimpleType.toTy, Ty.Concrete]
  | list keyword token element slot =>
    cases element <;> simp [denoted, SimpleType.toListTy, Ty.Concrete]
  | void slot => cases h

theorem LiteralValue.exists_toValue? {v : LiteralValue} (h : v.Fits) :
    ∃ w, v.toValue? = some w ∧ w.HasType v.ty := by
  cases v with
  | int n =>
    have hn : n ≤ maxInt := h
    refine ⟨_, if_pos hn, .int ?_⟩
    simpa [IsLiteralInt] using hn
  | string s => exact ⟨_, rfl, .string s⟩
  | bool b => exact ⟨_, rfl, .bool b⟩

/-- The values of literals of one type are put together to a list if that variant is asked for. -/
theorem ListLiteral.exists_values? {α : Type} {P : α → Prop} {variant? : Value → Option α}
    {together : List α → Value} {ty listTy : Ty}
    (hvariant : ∀ w : Value, w.HasType ty → ∃ a, variant? w = some a ∧ P a)
    (htogether : ∀ as, (∀ a ∈ as, P a) → (together as).HasType listTy) {l : ListLiteral}
    (h : ∀ v ∈ l.elements.map (·.value), v.Fits ∧ v.ty = ty) :
    ∃ w, (l.values? variant?).map together = some w ∧ w.HasType listTy := by
  suffices hall : ∃ as, l.values? variant? = some as ∧ ∀ a ∈ as, P a by
    obtain ⟨as, has, hpas⟩ := hall
    exact ⟨together as, congrArg (Option.map together) has, htogether as hpas⟩
  unfold values?
  generalize l.elements = es at h
  induction es with
  | nil => exact ⟨[], rfl, by simp⟩
  | cons e es ih =>
    rw [List.map_cons, List.forall_mem_cons] at h
    obtain ⟨⟨hfits, rfl⟩, hes⟩ := h
    obtain ⟨w, hw, htype⟩ := LiteralValue.exists_toValue? hfits
    obtain ⟨a, ha, hpa⟩ := hvariant w htype
    obtain ⟨as, has, hpas⟩ := ih hes
    refine ⟨a :: as, ?_, List.forall_mem_cons.2 ⟨hpa, hpas⟩⟩
    simp [List.mapM_cons, hw, ha, has]

/-! A check fills slots and leaves the values of literals as they are. -/

theorem Literal.value_check (l : Literal) : l.check.1.value = l.value := by
  unfold check
  cases l.type <;> rfl

theorem Literal.values_checkAll (expected : Ty) (ls : List Literal) :
    (Literal.checkAll expected ls).1.map (·.value) = ls.map (·.value) := by
  induction ls with
  | nil => rfl
  | cons l ls ih =>
    have hvalue := l.value_check
    rw [checkAll]
    generalize l.check = checked at hvalue ⊢
    rcases checked with ⟨l', e | found⟩
    · exact congrArg (· :: _) hvalue
    · by_cases hfound : found = expected <;> simpa [hfound, ih] using hvalue

theorem ListLiteral.values_check (l : ListLiteral) :
    l.check.1.elements.map (·.value) = l.elements.map (·.value) := by
  unfold check
  cases l.elements with
  | nil => rfl
  | cons first rest =>
    have hvalue := first.value_check
    dsimp only
    generalize first.check = checked at hvalue ⊢
    rcases checked with ⟨first', e | ty⟩
    · exact congrArg (· :: _) hvalue
    have hrest := Literal.values_checkAll ty rest
    dsimp only
    generalize Literal.checkAll ty rest = checked at hrest ⊢
    rcases checked with ⟨rest', e | _⟩ <;> exact congrArg₂ List.cons hvalue hrest

/-- The elements of a list literal that passes its check agree with the type that was found. -/
theorem ListLiteral.listTy_eq {l : ListLiteral} (h : l.WellTyped) {e : Literal}
    (he : e ∈ l.elements) : l.ty = e.value.listTy := by
  unfold ListLiteral.ty
  cases hl : l.elements with
  | nil => simp [hl] at he
  | cons first rest =>
    have hsame := h.homogeneous first (by simp [hl]) e he
    have hlist := congrArg Ty.toListType? hsame
    rw [LiteralValue.toListType?_ty, LiteralValue.toListType?_ty] at hlist
    exact Option.some.inj hlist

/-- The slot of a list literal is written before anything reads it. -/
theorem ListLiteral.slot_check {l : ListLiteral} {ty : Ty} (h : l.check.2 = .ok ty) :
    l.check.1.slot = some ty := by
  unfold check at h ⊢
  cases hl : l.elements with
  | nil =>
    rw [hl] at h
    exact congrArg some (Except.ok.inj h)
  | cons first rest =>
    rw [hl] at h
    dsimp only at h ⊢
    generalize first.check = checked at h ⊢
    rcases checked with ⟨first', e | element⟩
    · cases h
    dsimp only at h ⊢
    generalize Literal.checkAll element rest = checked at h ⊢
    rcases checked with ⟨rest', e | _⟩
    · cases h
    · exact congrArg some (Except.ok.inj h)

/-- A list literal with elements that passes its check has a value, from all of its elements. -/
theorem ListLiteral.exists_value? {l : ListLiteral} {ty : Ty} (h : l.check.2 = .ok ty)
    (hne : ty ≠ .list) : ty.Concrete ∧ ∃ w, l.check.1.value? = some w ∧ w.HasType ty := by
  have hslot := slot_check h
  obtain ⟨hwell, rfl⟩ := (l.check_eq_ok_iff ty).1 h
  obtain ⟨first, hfirst⟩ := List.exists_mem_of_ne_nil _ (mt l.ty_eq_list_iff.2 hne)
  have hall : ∀ v ∈ l.check.1.elements.map (·.value), v.Fits ∧ v.ty = first.value.ty := by
    rw [l.values_check]
    intro v hv
    obtain ⟨e, he, rfl⟩ := List.mem_map.1 hv
    exact ⟨hwell.fits e he, hwell.homogeneous e he first hfirst⟩
  rw [listTy_eq hwell hfirst] at hslot ⊢
  refine ⟨by cases first.value <;> simp [LiteralValue.listTy, Ty.Concrete], ?_⟩
  unfold value?
  rw [hslot]
  cases hvalue : first.value with
  | int n =>
    rw [hvalue] at hall
    have hint (w : Value) : w.HasType .int → ∃ n, w.int? = some n ∧ IsLiteralInt n := by
      rintro ⟨h⟩
      exact ⟨_, rfl, h⟩
    exact exists_values? hint (fun _ => .ints) hall
  | string s =>
    rw [hvalue] at hall
    have hstring (w : Value) : w.HasType .string → ∃ s, w.string? = some s ∧ True := by
      rintro ⟨⟩
      exact ⟨_, rfl, trivial⟩
    exact exists_values? hstring (fun ss _ => .strings ss) hall
  | bool b =>
    rw [hvalue] at hall
    have hbool (w : Value) : w.HasType .bool → ∃ b, w.bool? = some b ∧ True := by
      rintro ⟨⟩
      exact ⟨_, rfl, trivial⟩
    exact exists_values? hbool (fun bs _ => .bools bs) hall

/-- A constant that passes its check has a value of the type that was found. -/
theorem ConstantValue.exists_value? {v v' : ConstantValue} {ty : Ty} (h : v.check = (v', .ok ty))
    (hne : ty ≠ .list) : ty.Concrete ∧ ∃ w, v'.value? = some w ∧ w.HasType ty := by
  cases v with
  | simple l =>
    obtain ⟨rfl, htype⟩ := Prod.mk.inj h
    obtain ⟨hfits, rfl⟩ := (l.check_eq_ok_iff ty).1 htype
    refine ⟨by cases l.value <;> simp [LiteralValue.ty, Ty.Concrete], ?_⟩
    obtain ⟨w, hw, hty⟩ := LiteralValue.exists_toValue? hfits
    exact ⟨w, (congrArg LiteralValue.toValue? l.value_check).trans hw, hty⟩
  | list l =>
    obtain ⟨rfl, htype⟩ := Prod.mk.inj h
    exact l.exists_value? htype hne

end TeachLang
