import TeachLang.Proofs.Check.Values
import TeachLang.Proofs.Text.Quoted

/-! # Values read back from tables

The values of one type are written in different ways, each on one line.  Elements of lists are told
from what follows them by commas and by the closing bracket, as texts stand between quotes.
-/

namespace TeachLang

namespace Value

/-- What ends an element of a list. -/
def EndsElement (c : Char) : Prop := c = ',' ∨ c = '\x7d'

/-! Elements of lists, which are delimited by what ends an element. -/

theorem toList_toString {n : Int} (h : IsLiteralInt n) :
    (toString n).toList = Nat.toDigits 10 n.toNat := by
  rw [Int.toString_eq_repr, Int.repr_eq_if, if_pos h.1, Nat.toList_repr]

theorem delimited_toString :
    Delimited IsLiteralInt EndsElement (fun n => (toString n).toList) := by
  intro m n x y hm hn hx hy heq
  dsimp only at heq
  rw [toList_toString hm, toList_toString hn] at heq
  have hends : ∀ c, EndsElement c → ¬ c.isAlphanum := by
    rintro c (rfl | rfl) <;> decide
  obtain ⟨hmn, hxy⟩ := delimited_toDigits (by decide) (by decide) trivial trivial (hx.imp hends)
    (hy.imp hends) heq
  obtain ⟨hm, -⟩ := hm
  obtain ⟨hn, -⟩ := hn
  exact ⟨by omega, hxy⟩

theorem head_toString {n : Int} (h : IsLiteralInt n) :
    ∃ c cs, (toString n).toList = c :: cs ∧ c ≠ '\x7d' := by
  rw [toList_toString h]
  obtain ⟨c, cs, hdigits⟩ :=
    List.exists_cons_of_ne_nil (Nat.toDigits_ne_nil (n := n.toNat) (b := 10))
  refine ⟨c, cs, hdigits, ?_⟩
  have hc : c ∈ Nat.toDigits 10 n.toNat := by simp [hdigits]
  have hdigit := isAlphanum_of_mem_toDigits (by decide) (by decide) hc
  rintro rfl
  exact absurd hdigit (by decide)

theorem delimited_describeBool :
    Delimited (fun _ => True) EndsElement (fun b => (describeBool b).toList) := by
  have hletters : ∀ b, (describeBool b).toList.all Char.isAlpha := by decide
  have hinj : ∀ b b', (describeBool b).toList = (describeBool b').toList → b = b' := by decide
  have hends : ∀ c, EndsElement c → ¬ c.isAlpha := by
    rintro c (rfl | rfl) <;> decide
  exact ((delimited_run fun c => c.isAlpha).weaken hends).comp
    (f := fun b => (describeBool b).toList) (fun b _ => List.all_eq_true.1 (hletters b))
    fun b b' _ _ => hinj b b'

theorem toList_quoted (s : String) : (quoted s).toList = Quoted.encode s.toList :=
  String.toList_ofList

theorem delimited_quoted :
    Delimited (fun _ => True) EndsElement (fun s => (quoted s).toList) := by
  have hencode : Delimited _ EndsElement _ := Quoted.delimited_encode.weaken fun _ _ => trivial
  have h : Delimited (fun _ => True) EndsElement (Quoted.encode ∘ String.toList) :=
    hencode.comp (fun _ _ => trivial) fun _ _ _ _ => String.toList_inj.1
  simpa only [toList_quoted, Function.comp_def] using h

theorem toList_describeList (items : List String) : (describeList items).toList =
    '\x7b' :: ([',', ' '].intercalate (items.map String.toList) ++ ['\x7d']) := by
  simp [describeList, String.toList_intercalate]

theorem intercalate_cons (l : List Char) (ls : List (List Char)) :
    [',', ' '].intercalate (l :: ls) = l ++ ls.flatMap fun l => ',' :: ' ' :: l := by
  induction ls generalizing l with
  | nil => simp
  | cons k ls ih =>
    rw [List.intercalate_cons_cons, ih k, List.flatMap_cons]
    simp

/-- The first element of a list and the elements behind it, up to the closing bracket. -/
theorem toList_describeList_cons {α : Type} (describe : α → String) (a : α) (as : List α) :
    (describeList ((a :: as).map describe)).toList = '\x7b' :: ((describe a).toList ++
      ((as.flatMap fun a => ',' :: ' ' :: (describe a).toList) ++ ['\x7d'])) := by
  rw [toList_describeList, List.map_cons, List.map_cons, intercalate_cons, List.map_map,
    List.flatMap_map, List.append_assoc]
  rfl

/-- A list is read back from its elements. -/
theorem describeList_injOn {α : Type} {dom : α → Prop} {describe : α → String}
    (h : Delimited dom EndsElement fun a => (describe a).toList)
    (hfirst : ∀ a, dom a → ∃ c cs, (describe a).toList = c :: cs ∧ c ≠ '\x7d')
    {as bs : List α} (has : ∀ a ∈ as, dom a) (hbs : ∀ b ∈ bs, dom b)
    (heq : describeList (as.map describe) = describeList (bs.map describe)) : as = bs := by
  -- an element behind another one has a comma and a blank in front
  have hmore : Delimited dom EndsElement (fun a => ',' :: ' ' :: (describe a).toList) :=
    fun _ _ _ _ ha hb hx hy heq => h ha hb hx hy (List.cons.inj (List.cons.inj heq).2).2
  have hrest : Delimited (fun as : List α => ∀ a ∈ as, dom a) (· = '\x7d') _ :=
    hmore.flatMap (fun a _ => ⟨',', _, rfl, .inl rfl, by decide⟩) fun c hc => .inr hc
  have hstopped (as : List α) : Stopped EndsElement
      ((as.flatMap fun a => ',' :: ' ' :: (describe a).toList) ++ ['\x7d']) := by
    cases as <;> simp [EndsElement]
  have hempty {a : α} (ha : dom a) (as : List α) :
      describeList ([].map describe) ≠ describeList ((a :: as).map describe) := by
    intro heq
    obtain ⟨c, cs, hwrite, hc⟩ := hfirst a ha
    have htext := congrArg String.toList heq
    rw [toList_describeList_cons, hwrite, List.map_nil, toList_describeList] at htext
    exact hc (List.cons.inj (List.cons.inj htext).2).1.symm
  cases as with
  | nil =>
    cases bs with
    | nil => rfl
    | cons b bs => exact absurd heq (hempty (hbs b List.mem_cons_self) bs)
  | cons a as =>
    obtain ⟨ha, has'⟩ := List.forall_mem_cons.1 has
    cases bs with
    | nil => exact absurd heq.symm (hempty ha as)
    | cons b bs =>
      obtain ⟨hb, hbs'⟩ := List.forall_mem_cons.1 hbs
      have htext := congrArg String.toList heq
      rw [toList_describeList_cons, toList_describeList_cons] at htext
      obtain ⟨rfl, htail⟩ := h ha hb (hstopped as) (hstopped bs) (List.cons.inj htext).2
      rw [(hrest has' hbs' (by simp) (by simp) htail).1]

/-- A value is read back from what is shown of it, if its type is known. -/
theorem describe_injOn {v w : Value} {ty : Ty} (hv : v.HasType ty) (hw : w.HasType ty)
    (heq : v.describe = w.describe) : v = w := by
  have htext := congrArg String.toList heq
  cases hv with
  | int hn =>
    cases hw with | int hm =>
    rw [delimited_toString.injOn hn hm htext]
  | string s =>
    cases hw with | string s' =>
    rw [delimited_quoted.injOn trivial trivial htext]
  | bool b =>
    cases hw with | bool b' =>
    rw [delimited_describeBool.injOn trivial trivial htext]
  | ints hns =>
    cases hw with | ints hms =>
    exact congrArg ints (describeList_injOn delimited_toString (fun n hn => head_toString hn)
      hns hms heq)
  | strings ss =>
    cases hw with | strings ss' =>
    refine congrArg strings (describeList_injOn delimited_quoted (fun s _ => ?_)
      (fun _ _ => trivial) (fun _ _ => trivial) heq)
    exact ⟨'"', _, toList_quoted s, by decide⟩
  | bools bs =>
    cases hw with | bools bs' =>
    refine congrArg bools (describeList_injOn delimited_describeBool (fun b _ => ?_)
      (fun _ _ => trivial) (fun _ _ => trivial) heq)
    cases b <;> exact ⟨_, _, rfl, by decide⟩

theorem isLine_describeList {items : List String} (h : ∀ item ∈ items, IsLine item.toList) :
    IsLine (describeList items).toList := by
  have hinside : IsLine ([',', ' '].intercalate (items.map String.toList)) := by
    cases items with
    | nil => exact isLine_nil
    | cons item items =>
      obtain ⟨hitem, hitems⟩ := List.forall_mem_cons.1 h
      rw [List.map_cons, intercalate_cons]
      refine isLine_append.2 ⟨hitem, fun c hc => ?_⟩
      obtain ⟨l, hl, hc⟩ := List.mem_flatMap.1 hc
      obtain ⟨item', hitem', rfl⟩ := List.mem_map.1 hl
      rcases List.mem_cons.1 hc with rfl | hc
      · decide
      rcases List.mem_cons.1 hc with rfl | hc
      · decide
      exact hitems item' hitem' c hc
  rw [toList_describeList]
  refine List.forall_mem_cons.2 ⟨by decide, isLine_append.2 ⟨hinside, ?_⟩⟩
  simp [IsLine]

theorem isLine_describe {v : Value} {ty : Ty} (h : v.HasType ty) : IsLine v.describe.toList := by
  have hint {n : Int} (hn : IsLiteralInt n) : IsLine (toString n).toList :=
    toList_toString hn ▸ isLine_toDigits (by decide) (by decide) n.toNat
  have hstring (s : String) : IsLine (quoted s).toList := toList_quoted s ▸ Quoted.isLine_encode _
  have hbool : ∀ b, IsLine (describeBool b).toList := by decide
  cases h with
  | int hn => exact hint hn
  | string s => exact hstring s
  | bool b => exact hbool b
  | ints hns => exact isLine_describeList (List.forall_mem_map.2 fun n hn => hint (hns n hn))
  | strings ss => exact isLine_describeList (List.forall_mem_map.2 fun s _ => hstring s)
  | bools bs => exact isLine_describeList (List.forall_mem_map.2 fun b _ => hbool b)

end Value
end TeachLang
