import TeachLang.Proofs.Table.Value
import TeachLang.Proofs.Text.TypeName
import TeachLang.Proofs.Token.Spelling
import TeachLang.Table.Symbols

/-! # Rows read back from tables

A row shows the name, the type, the kind and the position, and the value of a constant.  The value
of any other row is the default of its type.
-/

namespace TeachLang

/-- A text made of the characters of names. -/
def IsRowName (name : String) : Prop :=
  name.toList ≠ [] ∧ ∀ c ∈ name.toList, Unicode.isXidContinue c

instance : DecidablePred IsRowName := fun _ =>
  @instDecidableAnd _ _ inferInstance (List.decidableBAll _ _)

namespace IsRowName

theorem delimited :
    Delimited IsRowName (fun c => ¬ Unicode.isXidContinue c) (fun name => name.toList) :=
  (delimited_run fun c => Unicode.isXidContinue c).comp (f := String.toList) (fun _ h => h.2)
    fun _ _ _ _ h => String.toList_inj.1 h

theorem isLine {name : String} (h : IsRowName name) : IsLine name.toList := by
  have hends : ¬ Unicode.isXidContinue '\n' ∧ ¬ Unicode.isXidContinue '\r' := by decide +kernel
  intro c hc
  constructor
  · rintro rfl
    exact hends.1 (h.2 _ hc)
  · rintro rfl
    exact hends.2 (h.2 _ hc)

end IsRowName

/-- A row with a value of its type, which is the default where it is not shown. -/
structure Register.Valued (r : Register) : Prop where
  typed : ∃ v, r.value = some v ∧ v.HasType r.ty
  started : r.kind ≠ .const → r.value = Value.default? r.ty

theorem SymbolKind.delimited_name :
    Delimited (fun _ => True) (· = ',') (fun k : SymbolKind => k.name.toList) := by
  refine ((delimited_run (· ≠ ',')).weaken (by simp)).comp
    (f := fun k : SymbolKind => k.name.toList) (fun k _ => ?_) fun k k' _ _ h => ?_
  · have hcomma : ',' ∉ k.name.toList := by cases k <;> decide
    exact fun c hc => ne_of_mem_of_not_mem hc hcomma
  · cases k <;> cases k' <;> first | rfl | exact absurd h (by decide)

theorem SymbolKind.isLine_name (k : SymbolKind) : IsLine k.name.toList := by
  cases k <;> decide

namespace Register

def writePosition (position : Option Nat) : List Char := position.elim ['-'] (Nat.toDigits 10)

/-- A dash is not a digit, and both end in front of a comma. -/
theorem delimited_writePosition : Delimited (fun _ => True) (· = ',') writePosition := by
  have hdigits (n : Nat) : ∀ c ∈ Nat.toDigits 10 n, c.isAlphanum := fun c hc =>
    isAlphanum_of_mem_toDigits (by decide) (by decide) hc
  have hdash {x y : List Char} {n : Nat} : '-' :: x ≠ Nat.toDigits 10 n ++ y := by
    obtain ⟨c, cs, hcs⟩ := List.exists_cons_of_ne_nil (Nat.toDigits_ne_nil (n := n) (b := 10))
    intro h
    rw [hcs] at h
    have hc := hdigits n c (by simp [hcs])
    rw [← (List.cons.inj h).1] at hc
    exact absurd hc (by decide)
  rintro (_ | m) (_ | n) x y - - hx hy h
  · exact ⟨rfl, (List.cons.inj h).2⟩
  · exact absurd h hdash
  · exact absurd h.symm hdash
  · obtain ⟨rfl, hxy⟩ := delimited_toDigits (by decide) (by decide) trivial trivial
      (hx.imp (by rintro c rfl; decide)) (hy.imp (by rintro c rfl; decide)) h
    exact ⟨rfl, hxy⟩

def writeValue (r : Register) : List Char :=
  match r.kind, r.value with
  | .const, some value => ',' :: ' ' :: value.describe.toList
  | _, _ => []

theorem stopped_writeValue (r : Register) : Stopped (· = ',') r.writeValue := by
  unfold writeValue
  split
  · simp
  · exact stopped_nil

theorem writeValue_of_const {r : Register} {v : Value} (hkind : r.kind = .const)
    (hvalue : r.value = some v) : r.writeValue = ',' :: ' ' :: v.describe.toList := by
  simp [writeValue, hkind, hvalue]

theorem toList_describe (r : Register) : r.describe.toList =
    r.ty.name.toList ++ ',' :: ' ' ::
      (r.kind.name.toList ++ ',' :: ' ' :: (writePosition r.position ++ r.writeValue)) := by
  obtain ⟨ty, kind, position, value⟩ := r
  cases kind <;> cases position <;> cases value <;> simp [describe, writePosition, writeValue]

/-- Constants show their values, and other rows have the default of their type. -/
theorem Valued.value_eq {r r' : Register} (hr : r.Valued) (hr' : r'.Valued) (hty : r.ty = r'.ty)
    (hkind : r.kind = r'.kind) (h : r.writeValue = r'.writeValue) : r.value = r'.value := by
  by_cases hconst : r.kind = .const
  · obtain ⟨v, hvalue, hv⟩ := hr.typed
    obtain ⟨v', hvalue', hv'⟩ := hr'.typed
    rw [writeValue_of_const hconst hvalue, writeValue_of_const (hkind ▸ hconst) hvalue'] at h
    have hshown := (List.cons.inj (List.cons.inj h).2).2
    rw [hvalue, hvalue', Value.describe_injOn hv (hty ▸ hv') (String.toList_inj.1 hshown)]
  · rw [hr.started hconst, hr'.started (hkind ▸ hconst), hty]

/-- A row is read back from what is shown of it. -/
theorem describe_injOn {r r' : Register} (hr : r.Valued) (hr' : r'.Valued)
    (h : r.describe = r'.describe) : r = r' := by
  have htext := congrArg String.toList h
  rw [toList_describe, toList_describe] at htext
  obtain ⟨hty, hrest⟩ := Ty.delimited_name trivial trivial (by simp) (by simp) htext
  obtain ⟨hkind, hrest⟩ := SymbolKind.delimited_name trivial trivial (by simp) (by simp)
    (List.cons.inj (List.cons.inj hrest).2).2
  obtain ⟨hposition, hshown⟩ := delimited_writePosition trivial trivial r.stopped_writeValue
    r'.stopped_writeValue (List.cons.inj (List.cons.inj hrest).2).2
  exact Register.ext hty hkind hposition (hr.value_eq hr' hty hkind hshown)

theorem isLine_writePosition (position : Option Nat) : IsLine (writePosition position) := by
  cases position with
  | none => simp [writePosition, IsLine]
  | some position => exact isLine_toDigits (by decide) (by decide) position

theorem isLine_describe {r : Register} (h : r.Valued) : IsLine r.describe.toList := by
  have hcomma : IsLine [',', ' '] := by decide
  have hvalue : IsLine r.writeValue := by
    obtain ⟨v, hv, htyped⟩ := h.typed
    by_cases hconst : r.kind = .const
    · rw [writeValue_of_const hconst hv]
      exact isLine_append.2 ⟨hcomma, Value.isLine_describe htyped⟩
    · simp [writeValue, hconst, isLine_nil]
  rw [toList_describe]
  exact isLine_append.2 ⟨r.ty.isLine_name, isLine_append.2 ⟨hcomma, isLine_append.2
    ⟨r.kind.isLine_name, isLine_append.2 ⟨hcomma, isLine_append.2
      ⟨isLine_writePosition r.position, hvalue⟩⟩⟩⟩⟩

end Register

/-- Text behind a name and a colon. -/
def headed (name text : String) : String := name ++ ": " ++ text

theorem toList_headed (name text : String) :
    (headed name text).toList = name.toList ++ ':' :: ' ' :: text.toList := by
  simp [headed]

theorem headed_inj {name name' text text' : String} (h : IsRowName name) (h' : IsRowName name')
    (heq : headed name text = headed name' text') : name = name' ∧ text = text' := by
  have hcolon : ¬ Unicode.isXidContinue ':' := by decide +kernel
  have hlist := congrArg String.toList heq
  rw [toList_headed, toList_headed] at hlist
  obtain ⟨hname, hrest⟩ := IsRowName.delimited h h' (stopped_cons.2 hcolon) (stopped_cons.2 hcolon)
    hlist
  exact ⟨hname, String.toList_inj.1 (List.cons.inj (List.cons.inj hrest).2).2⟩

theorem isLine_headed {name text : String} (h : IsRowName name) (htext : IsLine text.toList) :
    IsLine (headed name text).toList := by
  have hcolon : IsLine [':', ' '] := by decide
  rw [toList_headed]
  exact isLine_append.2 ⟨h.isLine, isLine_append.2 ⟨hcolon, htext⟩⟩

end TeachLang
