import TeachLang.Proofs.Text.Delimited
import TeachLang.Text.Quoted

/-! # Reading quoted text back

A quoted text tells where it ends and what it is a quotation of, and it stands on one line.
-/

namespace TeachLang

section

variable {base : Nat}

theorem digitChar_injOn {m n : Nat} (hm : m < 16) (hn : n < 16)
    (h : m.digitChar = n.digitChar) : m = n := by
  have hall : ∀ m < 16, ∀ n < 16, m.digitChar = n.digitChar → m = n := by decide
  exact hall m hm n hn h

/-- Numbers have different digits. -/
theorem toDigits_injective (hbase : 1 < base) (hle : base ≤ 16) {m n : Nat}
    (h : Nat.toDigits base m = Nat.toDigits base n) : m = n := by
  induction m using Nat.strongRecOn generalizing n with
  | ind m ih =>
    have hpos : 0 < base := Nat.zero_lt_of_lt hbase
    have hsingle (k d : Nat) (c : Char) : Nat.toDigits base k ++ [c] ≠ [d.digitChar] := by
      intro heq
      have hlength := congrArg List.length heq
      rw [List.length_append, List.length_singleton, List.length_singleton] at hlength
      exact Nat.toDigits_ne_nil (List.length_eq_zero_iff.1 (Nat.succ.inj hlength))
    rw [Nat.toDigits_eq_if hbase (n := m), Nat.toDigits_eq_if hbase (n := n)] at h
    split at h <;> split at h
    next hm hn => exact digitChar_injOn (by omega) (by omega) (List.singleton_inj.1 h)
    next => exact absurd h.symm (hsingle _ _ _)
    next => exact absurd h (hsingle _ _ _)
    next hm hn =>
      obtain ⟨hfront, hlast⟩ := List.append_inj' h rfl
      have hdigit := digitChar_injOn (Nat.lt_of_lt_of_le (Nat.mod_lt m hpos) hle)
        (Nat.lt_of_lt_of_le (Nat.mod_lt n hpos) hle) (List.singleton_inj.1 hlast)
      have hrest := ih (m / base) (Nat.div_lt_self (by omega) hbase) hfront
      rw [← Nat.div_add_mod m base, ← Nat.div_add_mod n base, hdigit, hrest]

/-- Every digit of a number is the digit of a smaller number. -/
theorem exists_of_mem_toDigits (hbase : 1 < base) {n : Nat} {c : Char}
    (h : c ∈ Nat.toDigits base n) : ∃ d < base, c = d.digitChar := by
  induction n using Nat.strongRecOn with
  | ind n ih =>
    rw [Nat.toDigits_eq_if hbase] at h
    split at h
    next hlt => exact ⟨n, hlt, List.mem_singleton.1 h⟩
    next hle =>
      rcases List.mem_append.1 h with h | h
      · exact ih (n / base) (Nat.div_lt_self (by omega) hbase) h
      · exact ⟨n % base, Nat.mod_lt n (by omega), List.mem_singleton.1 h⟩

theorem isAlphanum_of_mem_toDigits (hbase : 1 < base) (hle : base ≤ 16) {n : Nat} {c : Char}
    (h : c ∈ Nat.toDigits base n) : c.isAlphanum := by
  have hall : ∀ d < 16, d.digitChar.isAlphanum := by decide
  obtain ⟨d, hd, rfl⟩ := exists_of_mem_toDigits hbase h
  exact hall d (Nat.lt_of_lt_of_le hd hle)

theorem delimited_toDigits (hbase : 1 < base) (hle : base ≤ 16) :
    Delimited (fun _ => True) (fun c => ¬ c.isAlphanum) (Nat.toDigits base) :=
  (delimited_run fun c => c.isAlphanum).comp
    (fun _ _ _ => isAlphanum_of_mem_toDigits hbase hle) fun _ _ _ _ => toDigits_injective hbase hle

theorem isLine_toDigits (hbase : 1 < base) (hle : base ≤ 16) (n : Nat) :
    IsLine (Nat.toDigits base n) := by
  intro c hc
  have hdigit := isAlphanum_of_mem_toDigits hbase hle hc
  constructor <;> rintro rfl <;> exact absurd hdigit (by decide)

end

namespace Quoted

/-- The characters that are written by a letter behind a backslash, with their letters. -/
def named : List (Char × Char) :=
  [('"', '"'), ('\\', '\\'), ('\t', 't'), ('\r', 'r'), ('\n', 'n'), ('\x00', '0')]

/-- How a character can be written. -/
inductive Encoded (c : Char) : List Char → Prop
  | plain (ordinary : c ∉ named.map (·.1)) : Encoded c [c]
  | letter {l : Char} (known : (c, l) ∈ named) : Encoded c ['\\', l]
  | code : Encoded c ('\\' :: 'u' :: '\x7b' :: (Nat.toDigits 16 c.toNat ++ ['\x7d']))

theorem encoded_encodeChar (c : Char) : Encoded c (encodeChar c) := by
  unfold encodeChar
  split
  case h_7 hquote hbackslash htab hreturn hnewline hnull =>
    split
    · refine .plain fun hmem => ?_
      simp only [named, List.map_cons, List.map_nil, List.mem_cons, List.not_mem_nil,
        or_false] at hmem
      rcases hmem with h | h | h | h | h | h
      · exact hquote h
      · exact hbackslash h
      · exact htab h
      · exact hreturn h
      · exact hnewline h
      · exact hnull h
    · simpa using Encoded.code
  all_goals exact .letter (by decide)

/-- A written character tells which one it is, whatever follows. -/
theorem Encoded.append_inj {c d : Char} {a b x y : List Char} (ha : Encoded c a) (hb : Encoded d b)
    (h : a ++ x = b ++ y) : c = d ∧ x = y := by
  have hordinary : ∀ {c : Char}, c ∉ named.map (·.1) → c ≠ '\\' := by
    rintro c hc rfl
    exact hc (by decide)
  have hletters : ∀ p ∈ named, p.2 ≠ 'u' ∧ ∀ q ∈ named, p.2 = q.2 → p.1 = q.1 := by decide
  cases ha with
  | plain hc =>
    cases hb with
    | plain => simpa using h
    | letter | code => exact absurd (List.cons.inj h).1 (hordinary hc)
  | letter hc =>
    cases hb with
    | plain hd => exact absurd (List.cons.inj h).1.symm (hordinary hd)
    | letter hd =>
      obtain ⟨hletter, hrest⟩ := List.cons.inj (List.cons.inj h).2
      exact ⟨(hletters _ hc).2 _ hd hletter, hrest⟩
    | code => exact absurd (List.cons.inj (List.cons.inj h).2).1 (hletters _ hc).1
  | code =>
    cases hb with
    | plain hd => exact absurd (List.cons.inj h).1.symm (hordinary hd)
    | letter hd => exact absurd (List.cons.inj (List.cons.inj h).2).1.symm (hletters _ hd).1
    | code =>
      simp only [List.cons_append, List.append_assoc, List.cons.injEq, true_and] at h
      have hbrace : ¬ Char.isAlphanum '\x7d' := by decide
      obtain ⟨hcode, hrest⟩ := delimited_toDigits (by decide) (Nat.le_refl 16) trivial trivial
        (stopped_cons.2 hbrace) (stopped_cons.2 hbrace) h
      exact ⟨Char.toNat_inj.1 hcode, by simpa using hrest⟩

theorem encodeChar_append_ne (c : Char) (x y : List Char) : encodeChar c ++ x ≠ '"' :: y := by
  intro h
  have hencoded := encoded_encodeChar c
  generalize encodeChar c = written at hencoded h
  cases hencoded with
  | plain hc =>
    obtain rfl := (List.cons.inj h).1
    exact hc (by decide)
  | letter | code => exact absurd (List.cons.inj h).1 (by decide)

theorem delimited_encode : Delimited (fun _ => True) (fun _ => True) encode := by
  rintro cs ds x y - - - - h
  simp only [encode, List.cons_append, List.append_assoc, List.cons.injEq, true_and,
    List.nil_append] at h
  induction cs generalizing ds with
  | nil =>
    cases ds with
    | nil => exact ⟨rfl, (List.cons.inj h).2⟩
    | cons d ds =>
      rw [List.flatMap_cons, List.append_assoc] at h
      exact absurd h.symm (encodeChar_append_ne d _ _)
  | cons c cs ih =>
    cases ds with
    | nil =>
      rw [List.flatMap_cons, List.append_assoc] at h
      exact absurd h (encodeChar_append_ne c _ _)
    | cons d ds =>
      rw [List.flatMap_cons, List.flatMap_cons, List.append_assoc, List.append_assoc] at h
      obtain ⟨rfl, hrest⟩ := (encoded_encodeChar c).append_inj (encoded_encodeChar d) h
      obtain ⟨rfl, hxy⟩ := ih hrest
      exact ⟨rfl, hxy⟩

theorem Encoded.isLine {c : Char} {written : List Char} (h : Encoded c written) :
    IsLine written := by
  cases h with
  | plain hc =>
    have hends : '\n' ∈ named.map (·.1) ∧ '\r' ∈ named.map (·.1) := by decide
    intro d hd
    obtain rfl := List.mem_singleton.1 hd
    exact ⟨fun h => hc (h ▸ hends.1), fun h => hc (h ▸ hends.2)⟩
  | letter hc =>
    have hletters : ∀ p ∈ named, IsLine ['\\', p.2] := by decide
    exact hletters _ hc
  | code =>
    have hdigits := isLine_toDigits (by decide) (Nat.le_refl 16) c.toNat
    simpa [IsLine, or_imp, forall_and] using hdigits

theorem isLine_encode (cs : List Char) : IsLine (encode cs) := by
  intro d hd
  rcases List.mem_cons.1 hd with rfl | hd
  · decide
  rcases List.mem_append.1 hd with hd | hd
  · obtain ⟨c, -, hd⟩ := List.mem_flatMap.1 hd
    exact (encoded_encodeChar c).isLine d hd
  · obtain rfl := List.mem_singleton.1 hd
    decide

end Quoted
end TeachLang
