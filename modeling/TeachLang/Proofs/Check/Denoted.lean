import Mathlib.Data.List.Forall2
import Mathlib.Data.Nat.Digits.Defs
import Mathlib.Tactic.IntervalCases
import TeachLang.Proofs.Check.Values

/-! # What constants denote

The value of a constant is read off its tokens: a number is written in decimal digits, a
text between quotes with its own quotes doubled, and a list element by element.  The row
that a passed check declares for a constant has this value.
-/

namespace TeachLang

/-- Every quote is written twice. -/
def doubleQuotes (cs : List Char) : List Char :=
  cs.flatMap fun c => if c = '"' then ['"', '"'] else [c]

/-- The token of a simple literal writes a value; a number may have leading zeros. -/
inductive Token.Denotes (t : Token) : Value → Prop
  | int {digits : List Nat} (kind : t.kind = .intLiteral) (small : ∀ d ∈ digits, d < 10)
      (text : t.text.toList = digits.map Nat.digitChar) :
      Denotes t (.int (Nat.ofDigits 10 digits.reverse : Nat))
  | string {s : String} (kind : t.kind = .stringLiteral)
      (text : t.text.toList = '"' :: (doubleQuotes s.toList ++ ['"'])) : Denotes t (.string s)
  | true (kind : t.kind = .kwTrue) : Denotes t (.bool true)
  | false (kind : t.kind = .kwFalse) : Denotes t (.bool false)

/-- The value that a constant is declared with.  A list has as many values as elements are written,
in their order. -/
inductive ConstantValue.Denotes : ConstantValue → Value → Prop
  | simple {l : Literal} {v : Value} (h : l.token.Denotes v) : Denotes (simple l) v
  | ints {l : ListLiteral} {ns : List Int}
      (h : List.Forall₂ (fun e n => e.token.Denotes (.int n)) l.elements ns) :
      Denotes (list l) (.ints ns)
  | strings {l : ListLiteral} {ss : List String}
      (h : List.Forall₂ (fun e s => e.token.Denotes (.string s)) l.elements ss) :
      Denotes (list l) (.strings ss)
  | bools {l : ListLiteral} {bs : List Bool}
      (h : List.Forall₂ (fun e b => e.token.Denotes (.bool b)) l.elements bs) :
      Denotes (list l) (.bools bs)

/-- The declaration of a constant and the row of its name. -/
inductive ConstantDecl.Gives (d : ConstantDecl) : String × Register → Prop
  | mk {v : Value} {ty : Ty} (denotes : d.value.Denotes v) (typed : v.HasType ty) :
      Gives d (d.name.text, .const ty (some v))

theorem digitChar_of_isDigit {c : Char} (h : c.isDigit) :
    c.toNat - '0'.toNat < 10 ∧ Nat.digitChar (c.toNat - '0'.toNat) = c := by
  obtain ⟨hlow, hhigh⟩ : 48 ≤ c.toNat ∧ c.toNat ≤ 57 := by
    simpa [Char.isDigit, UInt32.le_iff_toNat_le] using h
  have hc : Char.ofNat c.toNat = c := Char.ofNat_toNat c
  rw [← hc]
  generalize c.toNat = n at hlow hhigh
  interval_cases n <;> decide

/-- Digits are read from the most significant one on. -/
theorem decimalValue_eq_ofDigits (cs : List Char) :
    decimalValue cs = Nat.ofDigits 10 (cs.map fun c => c.toNat - '0'.toNat).reverse := by
  rw [decimalValue, Nat.ofDigits_eq_foldr, List.foldr_reverse, List.foldl_map]
  simp only [Nat.cast_id, Nat.add_comm]

theorem doubleQuotes_collapseQuotes {body : List Char} (h : StringBody body) :
    doubleQuotes (collapseQuotes body) = body := by
  induction h with
  | nil => rfl
  | char quote newline rest ih => simp [collapseQuotes, doubleQuotes, quote] at ih ⊢; exact ih
  | quotes rest ih => simpa [collapseQuotes, doubleQuotes] using ih

/-- The value of a literal that can be written is the one that its token denotes. -/
theorem Literal.Grammatical.denotes {l : Literal} (hl : l.Grammatical) {v : Value}
    (hv : l.value.toValue? = some v) : l.token.Denotes v := by
  obtain ⟨⟨kind, hkind, hwritten, hadmits⟩, hvalue⟩ := hl
  rw [hvalue, LiteralValue.ofToken, hwritten] at hv
  simp only [First.simpleLiteral, List.mem_cons, List.not_mem_nil, or_false] at hkind
  rcases hkind with hint | hstring | htrue | hfalse
  · subst hint
    obtain ⟨-, hdigits⟩ := hadmits
    obtain ⟨-, hv⟩ := Option.ite_none_right_eq_some.1 hv
    obtain rfl := Option.some.inj hv
    rw [decimalValue_eq_ofDigits]
    refine .int hwritten (fun d hd => ?_) ?_
    · obtain ⟨c, hc, rfl⟩ := List.mem_map.1 hd
      exact (digitChar_of_isDigit (hdigits c hc)).1
    · rw [List.map_map]
      conv_lhs => rw [← List.map_id l.token.text.toList]
      exact List.map_congr_left fun c hc => (digitChar_of_isDigit (hdigits c hc)).2.symm
  · subst hstring
    obtain ⟨body, htext, hbody⟩ := hadmits
    obtain rfl := Option.some.inj hv
    refine .string hwritten ?_
    simp [unquote, htext, doubleQuotes_collapseQuotes hbody]
  · subst htrue
    obtain rfl := Option.some.inj hv
    exact .true hwritten
  · subst hfalse
    obtain rfl := Option.some.inj hv
    exact .false hwritten

/-- The values that a list puts together are, one by one, those that its elements denote. -/
theorem ListLiteral.Grammatical.forall₂_denotes {α : Type} {variant? : Value → Option α}
    {single : α → Value} (hvariant : ∀ w a, variant? w = some a → w = single a) {l : ListLiteral}
    (hl : l.Grammatical) {as : List α} (h : l.check.1.values? variant? = some as) :
    List.Forall₂ (fun e a => e.token.Denotes (single a)) l.elements as := by
  have hvalues : l.check.1.values? variant? =
      (l.elements.map (·.value)).mapM fun v => v.toValue?.bind variant? := by
    rw [← l.values_check, List.mapM_map]
    rfl
  rw [hvalues, List.mapM_map] at h
  obtain ⟨-, helements⟩ := hl
  generalize l.elements = es at h helements
  induction es generalizing as with
  | nil =>
    obtain rfl : [] = as := by simpa using h
    exact .nil
  | cons e es ih =>
    obtain ⟨he, hes⟩ := List.forall_mem_cons.1 helements
    obtain ⟨a, ha, rest, hrest, rfl⟩ : ∃ a, e.value.toValue?.bind variant? = some a ∧
        ∃ rest, es.mapM _ = some rest ∧ a :: rest = as := by
      simpa [List.mapM_cons, Option.bind_eq_some_iff] using h
    obtain ⟨w, hw, hwa⟩ := Option.bind_eq_some_iff.1 ha
    exact .cons (hvariant w a hwa ▸ he.denotes hw) (ih hrest hes)

/-- The value that a list gets in the tables is the one that its elements denote. -/
theorem ListLiteral.Grammatical.denotes {l : ListLiteral} (hl : l.Grammatical) {v : Value}
    (hv : l.check.1.value? = some v) : (ConstantValue.list l).Denotes v := by
  have hint (w : Value) (n : Int) : w.int? = some n → w = .int n := by
    cases w <;> simp [Value.int?]
  have hstring (w : Value) (s : String) : w.string? = some s → w = .string s := by
    cases w <;> simp [Value.string?]
  have hbool (w : Value) (b : Bool) : w.bool? = some b → w = .bool b := by
    cases w <;> simp [Value.bool?]
  unfold value? at hv
  split at hv
  next =>
    obtain ⟨ns, hns, rfl⟩ := Option.map_eq_some_iff.1 hv
    exact .ints (hl.forall₂_denotes hint hns)
  next =>
    obtain ⟨ss, hss, rfl⟩ := Option.map_eq_some_iff.1 hv
    exact .strings (hl.forall₂_denotes hstring hss)
  next =>
    obtain ⟨bs, hbs, rfl⟩ := Option.map_eq_some_iff.1 hv
    exact .bools (hl.forall₂_denotes hbool hbs)
  next => cases hv

/-- A constant that can be written and passes its check gets the row that its declaration gives. -/
theorem ConstantDecl.Grammatical.gives_row {d : ConstantDecl} (hd : d.Grammatical)
    (hwell : d.value.WellTyped) : d.Gives d.row := by
  obtain ⟨hcheck, hne⟩ := (d.value.check_eq_ok_iff d.value.ty).2 ⟨hwell, rfl⟩
  obtain ⟨-, v, hv, htyped⟩ := ConstantValue.exists_value? (Prod.ext rfl hcheck) hne
  rw [row, hv]
  refine .mk ?_ htyped
  obtain ⟨-, hvalue⟩ := hd
  cases h : d.value with
  | simple l =>
    rw [h] at hv hvalue
    exact .simple (hvalue.denotes ((congrArg LiteralValue.toValue? l.value_check).symm.trans hv))
  | list l =>
    rw [h] at hv hvalue
    exact hvalue.1.denotes hv

end TeachLang
