import TeachLang.Proofs.Grammar.Reading

/-! # Lists and optional parts

Writings of items one after the other, of items with commas between, of parts that may be
missing and of parts with a semicolon behind, with the parsers that read them.
-/

namespace TeachLang

section

variable {α : Type}

inductive Repeated (R : Writing α) : Writing (List α)
  | nil : Repeated R [] []
  | cons {w ws : List Token} {a : α} {as : List α} (head : R w a) (tail : Repeated R ws as) :
      Repeated R (w ++ ws) (a :: as)

inductive After (kind : TokenKind) (R : Writing α) : Writing α
  | mk {t : Token} {w : List Token} {a : α} (kind_eq : t.kind = kind) (item : R w a) :
      After kind R (t :: w) a

inductive Separated (R : Writing α) : Writing (List α)
  | nil : Separated R [] []
  | cons {w ws : List Token} {a : α} {as : List α} (head : R w a)
      (tail : Repeated (After .comma R) ws as) : Separated R (w ++ ws) (a :: as)

inductive Optional (R : Writing α) : Writing (Option α)
  | none : Optional R [] none
  | some {w : List Token} {a : α} (item : R w a) : Optional R w (some a)

inductive Closed (R : Writing α) : Writing α
  | mk {t : Token} {w : List Token} {a : α} (item : R w a) (kind_eq : t.kind = .semicolon) :
      Closed R (w ++ [t]) a

def Begins (first : List TokenKind) (R : Writing α) : Prop :=
  ∀ ⦃w : List Token⦄ ⦃a : α⦄, R w a → ∃ t v, w = t :: v ∧ t.kind ∈ first

theorem Begins.length_pos {first : List TokenKind} {R : Writing α} (h : Begins first R)
    {w : List Token} {a : α} (hw : R w a) : 0 < w.length := by
  obtain ⟨t, v, rfl, -⟩ := h hw
  simp

theorem Begins.closed {first : List TokenKind} {R : Writing α} (h : Begins first R) :
    Begins first (Closed R) := by
  rintro _ a ⟨hitem, -⟩
  obtain ⟨t, v, rfl, ht⟩ := h hitem
  exact ⟨t, _, rfl, ht⟩

theorem begins_after (kind : TokenKind) (R : Writing α) : Begins [kind] (After kind R) := by
  rintro _ a ⟨hkind, -⟩
  exact ⟨_, _, rfl, by simp [hkind]⟩

variable {R S : Writing α}

theorem Repeated.imp {w : List Token} {as : List α} (h : Repeated R w as)
    (hRS : ∀ v a, v.length ≤ w.length → R v a → S v a) : Repeated S w as := by
  induction h with
  | nil => exact .nil
  | cons hhead _ ih =>
    rw [List.length_append] at hRS
    exact .cons (hRS _ _ (Nat.le_add_right _ _) hhead)
      (ih fun v a hv => hRS v a (Nat.le_trans hv (Nat.le_add_left _ _)))

theorem After.imp {kind : TokenKind} {w : List Token} {a : α} (h : After kind R w a)
    (hRS : ∀ v a, v.length ≤ w.length → R v a → S v a) : After kind S w a := by
  cases h with | mk hkind hitem =>
  exact .mk hkind (hRS _ _ (Nat.le_succ _) hitem)

theorem Separated.imp {w : List Token} {as : List α} (h : Separated R w as)
    (hRS : ∀ v a, v.length ≤ w.length → R v a → S v a) : Separated S w as := by
  cases h with
  | nil => exact .nil
  | cons hhead htail =>
    rw [List.length_append] at hRS
    refine .cons (hRS _ _ (Nat.le_add_right _ _) hhead) (htail.imp fun v a hv hafter => ?_)
    exact hafter.imp fun u b hu =>
      hRS u b (Nat.le_trans hu (Nat.le_trans hv (Nat.le_add_left _ _)))

theorem Closed.imp {w : List Token} {a : α} (h : Closed R w a)
    (hRS : ∀ v a, v.length < w.length → R v a → S v a) : Closed S w a := by
  cases h with | mk hitem hkind =>
  exact .mk (hRS _ _ (by simp) hitem) hkind

end

namespace Parser

open TokenStream (Reads)

variable {σ α : Type} [TokenStream σ] {p : Parser σ α} {R : Writing α} {first goesOn : List TokenKind}
  {bound : Nat}

theorem opt_sound (hp : Sound p R) : Sound (opt first p) (Optional R) := by
  intro s o left h
  rw [opt, hasAny_bind] at h
  split at h
  · obtain ⟨a, m, ha, hpure⟩ := bind_eq_ok.1 h
    obtain ⟨rfl, rfl⟩ := pure_eq_ok.1 hpure
    obtain ⟨w, hreads, hw⟩ := hp ha
    exact ⟨w, hreads, .some hw⟩
  · obtain ⟨rfl, rfl⟩ := pure_eq_ok.1 h
    exact ⟨[], rfl, .none⟩

theorem hasAny_of_begins (hR : Begins first R) {s left : σ} {w : List Token} {a : α} (hw : R w a)
    (hreads : Reads s w left) : first.contains (TokenStream.current s).kind = true := by
  obtain ⟨t, v, rfl, ht⟩ := hR hw
  rw [hreads.1]
  exact List.contains_iff_mem.2 ht

theorem opt_complete (hp : Complete p bound R goesOn) (hR : Begins first R) :
    Complete (opt first p) bound (Optional R) (first ++ goesOn) := by
  intro s w left o hw hlength hreads hleft
  rw [List.mem_append, not_or] at hleft
  rw [opt, hasAny_bind]
  cases hw with
  | none =>
    obtain rfl := TokenStream.reads_nil.1 hreads
    rw [if_neg (by simpa using hleft.1)]
    rfl
  | some hitem =>
    rw [if_pos (hasAny_of_begins hR hitem hreads), bind_eq_ok]
    exact ⟨_, _, hp hitem hlength hreads hleft.2, rfl⟩

theorem many_sound (hp : Sound p R) (fuel : Nat) : Sound (many first p fuel) (Repeated R) := by
  induction fuel with
  | zero =>
    intro s as left h
    obtain ⟨rfl, rfl⟩ := pure_eq_ok.1 h
    exact ⟨[], rfl, .nil⟩
  | succ fuel ih =>
    intro s as left h
    rw [many, hasAny_bind] at h
    split at h
    · obtain ⟨a, m, ha, hrest⟩ := bind_eq_ok.1 h
      obtain ⟨as', m', has, hpure⟩ := bind_eq_ok.1 hrest
      obtain ⟨rfl, rfl⟩ := pure_eq_ok.1 hpure
      obtain ⟨w, hreads, hw⟩ := hp ha
      obtain ⟨ws, hreads', hws⟩ := ih has
      exact ⟨w ++ ws, TokenStream.reads_append.2 ⟨m, hreads, hreads'⟩, .cons hw hws⟩
    · obtain ⟨rfl, rfl⟩ := pure_eq_ok.1 h
      exact ⟨[], rfl, .nil⟩

/-- A repetition goes on exactly as long as items can begin. -/
theorem many_complete (hp : Complete p bound R goesOn) (hR : Begins first R)
    (hfirst : ∀ k ∈ first, k ∉ goesOn) {fuel : Nat} (hfuel : bound ≤ fuel) :
    Complete (many first p fuel) bound (Repeated R) (first ++ goesOn) := by
  intro s w left as hw hlength hreads hleft
  rw [List.mem_append, not_or] at hleft
  have hcount := Nat.le_trans hlength hfuel
  clear hfuel
  induction hw generalizing s fuel with
  | nil =>
    obtain rfl := TokenStream.reads_nil.1 hreads
    cases fuel with
    | zero => rfl
    | succ fuel =>
      rw [many, hasAny_bind, if_neg (by simpa using hleft.1)]
      rfl
  | @cons w ws a as hhead htail ih =>
    obtain ⟨m, hreads, hrest⟩ := TokenStream.reads_append.1 hreads
    have hpos := hR.length_pos hhead
    rw [List.length_append] at hlength hcount
    obtain ⟨fuel, rfl⟩ : ∃ fewer, fuel = fewer + 1 := ⟨fuel - 1, by omega⟩
    have hm : (TokenStream.current m).kind ∉ goesOn := by
      cases htail with
      | nil =>
        obtain rfl := TokenStream.reads_nil.1 hrest
        exact hleft.2
      | cons hnext _ =>
        obtain ⟨_, hnext', -⟩ := TokenStream.reads_append.1 hrest
        obtain ⟨t, v, rfl, ht⟩ := hR hnext
        rw [hnext'.1]
        exact hfirst _ ht
    rw [many, hasAny_bind, if_pos (hasAny_of_begins hR hhead hreads), bind_eq_ok]
    refine ⟨a, m, hp hhead (by omega) hreads hm, bind_eq_ok.2 ⟨as, left, ?_, rfl⟩⟩
    exact ih (by omega) hrest (by omega)

def after (kind : TokenKind) (p : Parser σ α) : Parser σ α := do
  let _ ← expect kind
  p

theorem after_apply {kind : TokenKind} {s : σ} (h : (TokenStream.current s).kind = kind) :
    after kind p s = p (TokenStream.advance s) := by
  rw [after, bind_apply, expect_eq_ok.2 ⟨h, TokenStream.reads_advance s⟩]

theorem after_sound (kind : TokenKind) (hp : Sound p R) : Sound (after kind p) (After kind R) := by
  intro s a left h
  obtain ⟨t, m, ht, ha⟩ := bind_eq_ok.1 h
  obtain ⟨hkind, hreads⟩ := expect_eq_ok.1 ht
  obtain ⟨w, hreads', hw⟩ := hp ha
  exact ⟨t :: w, TokenStream.reads_append.2 ⟨m, hreads, hreads'⟩, .mk hkind hw⟩

theorem after_complete (kind : TokenKind) (hp : Complete p bound R goesOn) :
    Complete (after kind p) bound (After kind R) goesOn := by
  rintro s _ left a ⟨hkind, hw⟩ hlength ⟨ht, hreads⟩ hleft
  rw [after_apply (ht ▸ hkind)]
  exact hp hw (Nat.le_of_succ_le hlength) hreads hleft

theorem afterCommas_eq_many (p : Parser σ α) (fuel : Nat) :
    afterCommas p fuel = many [.comma] (after .comma p) fuel := by
  induction fuel with
  | zero => rfl
  | succ fuel ih =>
    funext s
    rw [afterCommas, many, take?_bind, hasAny_bind, ih]
    by_cases h : (TokenStream.current s).kind = .comma
    · rw [if_pos h, if_pos (by simp [h]), bind_apply (after .comma p), after_apply h]
      rfl
    · rw [if_neg h, if_neg (by simpa using h)]

theorem commaSeparated_sound (hp : Sound p R) (fuel : Nat) :
    Sound (commaSeparated first p fuel) (Separated R) := by
  intro s as left h
  rw [commaSeparated, hasAny_bind] at h
  split at h
  · obtain ⟨a, m, ha, hrest⟩ := bind_eq_ok.1 h
    obtain ⟨as', m', has, hpure⟩ := bind_eq_ok.1 hrest
    obtain ⟨rfl, rfl⟩ := pure_eq_ok.1 hpure
    rw [afterCommas_eq_many] at has
    obtain ⟨w, hreads, hw⟩ := hp ha
    obtain ⟨ws, hreads', hws⟩ := many_sound (after_sound .comma hp) fuel has
    exact ⟨w ++ ws, TokenStream.reads_append.2 ⟨m, hreads, hreads'⟩, .cons hw hws⟩
  · obtain ⟨rfl, rfl⟩ := pure_eq_ok.1 h
    exact ⟨[], rfl, .nil⟩

theorem afterCommas_complete (hp : Complete p bound R goesOn) (hcomma : .comma ∉ goesOn) {fuel : Nat}
    (hfuel : bound ≤ fuel) :
    Complete (afterCommas p fuel) bound (Repeated (After .comma R)) (.comma :: goesOn) := by
  rw [afterCommas_eq_many]
  exact many_complete (after_complete .comma hp) (begins_after .comma R) (by simpa using hcomma)
    hfuel

/-- Behind the first item of a list, there is a comma or what follows the list. -/
theorem current_not_goesOn (hcomma : .comma ∉ goesOn) {m left : σ} {ws : List Token} {as : List α}
    (hws : Repeated (After .comma R) ws as) (hreads : Reads m ws left)
    (hleft : (TokenStream.current left).kind ∉ goesOn) :
    (TokenStream.current m).kind ∉ goesOn := by
  cases hws with
  | nil =>
    obtain rfl := TokenStream.reads_nil.1 hreads
    exact hleft
  | cons hnext _ =>
    obtain ⟨_, hnext', -⟩ := TokenStream.reads_append.1 hreads
    obtain ⟨hkind, -⟩ := hnext
    rw [hnext'.1, hkind]
    exact hcomma

theorem commaSeparated_complete (hp : Complete p bound R goesOn) (hR : Begins first R)
    (hcomma : .comma ∉ goesOn) {fuel : Nat} (hfuel : bound ≤ fuel) :
    Complete (commaSeparated first p fuel) bound (Separated R) (first ++ .comma :: goesOn) := by
  intro s w left as hw hlength hreads hleft
  simp only [List.mem_append, List.mem_cons, not_or] at hleft
  obtain ⟨hfirst, hend, hgoesOn⟩ := hleft
  rw [commaSeparated, hasAny_bind]
  cases hw with
  | nil =>
    obtain rfl := TokenStream.reads_nil.1 hreads
    rw [if_neg (by simpa using hfirst)]
    rfl
  | cons hhead htail =>
    obtain ⟨m, hreads, hrest⟩ := TokenStream.reads_append.1 hreads
    rw [List.length_append] at hlength
    have hm := current_not_goesOn hcomma htail hrest hgoesOn
    have htail' := afterCommas_complete hp hcomma hfuel htail (by omega) hrest (by simp [hend, hgoesOn])
    rw [if_pos (hasAny_of_begins hR hhead hreads), bind_eq_ok]
    exact ⟨_, m, hp hhead (by omega) hreads hm, bind_eq_ok.2 ⟨_, left, htail', rfl⟩⟩

end Parser

end TeachLang
