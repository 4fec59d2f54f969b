import TeachLang.Grammar.Parser

/-! # Readings

What it means for a parser to read some tokens off a stream.  A relation tells which
tokens write which value; a parser is sound for it when everything it yields is written
by the tokens that it went past, and complete up to a length when it yields every value
of that length whose tokens are in sight, provided that the token behind cannot go on.
-/

namespace TeachLang

/-- Which tokens write which value. -/
abbrev Writing (α : Type) := List Token → α → Prop

namespace Parser

variable {σ α β : Type}

theorem bind_apply (p : Parser σ α) (f : α → Parser σ β) (s : σ) :
    (p >>= f) s = match p s with
      | (.ok a, s) => f a s
      | (.error e, s) => (.error e, s) := rfl

theorem bind_eq_ok {p : Parser σ α} {f : α → Parser σ β} {s left : σ} {b : β} :
    (p >>= f) s = (.ok b, left) ↔ ∃ a m, p s = (.ok a, m) ∧ f a m = (.ok b, left) := by
  rw [bind_apply]
  rcases p s with ⟨e | a, m⟩
  · simp
  · constructor
    · exact fun h => ⟨a, m, rfl, h⟩
    · rintro ⟨_, _, heq, h⟩
      cases heq
      exact h

theorem pure_eq_ok {s left : σ} {a b : α} :
    (pure a : Parser σ α) s = (.ok b, left) ↔ a = b ∧ s = left := by
  change (Except.ok a, s) = (.ok b, left) ↔ _
  simp

theorem failAt_eq_ok {s left : σ} {a : α} {expected : Expected} {token : Token} :
    (failAt expected token : Parser σ α) s = (.ok a, left) ↔ False := by
  simp [failAt]

end Parser

section

variable {σ : Type} [TokenStream σ]

/-- Some tokens come into sight one after the other, and a stream is left behind them. -/
def TokenStream.Reads (s : σ) : List Token → σ → Prop
  | [], left => s = left
  | t :: w, left => current s = t ∧ Reads (advance s) w left

namespace TokenStream

theorem reads_nil {s left : σ} : Reads s [] left ↔ s = left := Iff.rfl

theorem reads_cons {s left : σ} {t : Token} {w : List Token} :
    Reads s (t :: w) left ↔ current s = t ∧ Reads (advance s) w left := Iff.rfl

theorem reads_append {s left : σ} {v w : List Token} :
    Reads s (v ++ w) left ↔ ∃ m, Reads s v m ∧ Reads m w left := by
  induction v generalizing s with
  | nil => simp [reads_nil]
  | cons t v ih => simp [reads_cons, ih, and_assoc]

theorem reads_singleton {s left : σ} {t : Token} :
    Reads s [t] left ↔ current s = t ∧ advance s = left := Iff.rfl

theorem reads_advance (s : σ) : Reads s [current s] (advance s) := ⟨rfl, rfl⟩

end TokenStream

namespace Parser

open TokenStream (Reads)

variable {α β : Type}

/-- What a parser yields is written by the tokens that it went past. -/
def Sound (p : Parser σ α) (R : Writing α) : Prop :=
  ∀ ⦃s : σ⦄ ⦃a : α⦄ ⦃left : σ⦄, p s = (.ok a, left) → ∃ w, Reads s w left ∧ R w a

theorem Sound.map {p : Parser σ α} {R : Writing α} {S : Writing β} {f : α → β} (h : Sound p R)
    (hf : ∀ w a, R w a → S w (f a)) : Sound (p >>= fun a => pure (f a)) S := by
  intro s b left hb
  simp only [bind_eq_ok, pure_eq_ok] at hb
  obtain ⟨a, m, ha, rfl, rfl⟩ := hb
  obtain ⟨w, hreads, hw⟩ := h ha
  exact ⟨w, hreads, hf w a hw⟩

/-- A parser yields what the tokens in sight write, up to a number of tokens, where the token behind
them has none of the kinds that go on. -/
def Complete (p : Parser σ α) (bound : Nat) (R : Writing α) (goesOn : List TokenKind) : Prop :=
  ∀ ⦃s : σ⦄ ⦃w : List Token⦄ ⦃left : σ⦄ ⦃a : α⦄, R w a → w.length ≤ bound → Reads s w left →
    (TokenStream.current left).kind ∉ goesOn → p s = (.ok a, left)

/-! The results of the primitive parsers. -/

theorem fail_eq_ok {s left : σ} {a : α} {expected : Expected} :
    (fail expected : Parser σ α) s = (.ok a, left) ↔ False := by
  simp [fail]

theorem current_bind (f : Token → Parser σ β) (s : σ) :
    (current >>= f) s = f (TokenStream.current s) s := rfl

theorem advance_eq_ok {s left : σ} {t : Token} :
    (advance : Parser σ Token) s = (.ok t, left) ↔
      TokenStream.current s = t ∧ TokenStream.advance s = left := by
  simp [advance]

theorem has_bind (kind : TokenKind) (f : Bool → Parser σ β) (s : σ) :
    (has kind >>= f) s = f ((TokenStream.current s).kind == kind) s := rfl

theorem hasAny_bind (kinds : List TokenKind) (f : Bool → Parser σ β) (s : σ) :
    (hasAny kinds >>= f) s = f (kinds.contains (TokenStream.current s).kind) s := rfl

theorem has_eq_ok {kind : TokenKind} {s left : σ} {b : Bool} :
    has kind s = (.ok b, left) ↔ ((TokenStream.current s).kind == kind) = b ∧ s = left :=
  pure_eq_ok

theorem take?_apply (kind : TokenKind) (s : σ) :
    take? kind s = if (TokenStream.current s).kind = kind then
      (.ok (some (TokenStream.current s)), TokenStream.advance s) else (.ok none, s) := by
  rw [take?, has_bind]
  by_cases h : (TokenStream.current s).kind = kind
  · rw [if_pos h, if_pos (beq_iff_eq.2 h)]
    rfl
  · rw [if_neg h, if_neg (by simpa using h)]
    rfl

theorem takeAny?_apply (kinds : List TokenKind) (s : σ) :
    takeAny? kinds s = if (TokenStream.current s).kind ∈ kinds then
      (.ok (some (TokenStream.current s)), TokenStream.advance s) else (.ok none, s) := by
  rw [takeAny?, hasAny_bind]
  by_cases h : (TokenStream.current s).kind ∈ kinds
  · rw [if_pos h, if_pos (List.contains_iff_mem.2 h)]
    rfl
  · rw [if_neg h, if_neg (by simpa using h)]
    rfl

def takeAs? (meaning? : TokenKind → Option β) : Parser σ (Option (β × Token)) := do
  match meaning? (← current).kind with
  | some b => return some (b, ← advance)
  | none => return none

theorem takeAs?_apply (meaning? : TokenKind → Option β) (s : σ) :
    takeAs? meaning? s = match meaning? (TokenStream.current s).kind with
      | some b => (.ok (some (b, TokenStream.current s)), TokenStream.advance s)
      | none => (.ok none, s) := by
  rw [takeAs?, current_bind]
  cases meaning? (TokenStream.current s).kind <;> rfl

theorem take?_bind (kind : TokenKind) (f : Option Token → Parser σ β) (s : σ) :
    (take? kind >>= f) s = if (TokenStream.current s).kind = kind then
      f (some (TokenStream.current s)) (TokenStream.advance s) else f none s := by
  rw [bind_apply, take?_apply]
  by_cases h : (TokenStream.current s).kind = kind
  · simp only [if_pos h]
  · simp only [if_neg h]

theorem take?_some_eq_ok {kind : TokenKind} {s left : σ} {t : Token} :
    take? kind s = (.ok (some t), left) ↔ t.kind = kind ∧ Reads s [t] left := by
  rw [take?_apply, TokenStream.reads_singleton]
  by_cases h : (TokenStream.current s).kind = kind
  · simp only [if_pos h, Prod.mk.injEq, Except.ok.injEq, Option.some.injEq]
    constructor
    · rintro ⟨rfl, rfl⟩
      exact ⟨h, rfl, rfl⟩
    · exact And.right
  · simp only [if_neg h, Prod.mk.injEq, Except.ok.injEq, reduceCtorEq, false_and, false_iff]
    rintro ⟨ht, rfl, -⟩
    exact h ht

theorem take?_none_eq_ok {kind : TokenKind} {s left : σ} :
    take? kind s = (.ok none, left) ↔ (TokenStream.current s).kind ≠ kind ∧ s = left := by
  rw [take?_apply]
  by_cases h : (TokenStream.current s).kind = kind <;> simp [h]

theorem takeAs?_some_eq_ok {meaning? : TokenKind → Option β} {s left : σ} {b : β} {t : Token} :
    takeAs? meaning? s = (.ok (some (b, t)), left) ↔
      meaning? t.kind = some b ∧ Reads s [t] left := by
  rw [takeAs?_apply, TokenStream.reads_singleton]
  cases h : meaning? (TokenStream.current s).kind with
  | some c =>
    simp only [Prod.mk.injEq, Except.ok.injEq, Option.some.injEq]
    constructor
    · rintro ⟨⟨rfl, rfl⟩, rfl⟩
      exact ⟨h, rfl, rfl⟩
    · rintro ⟨ht, rfl, rfl⟩
      rw [h] at ht
      exact ⟨⟨Option.some.inj ht, rfl⟩, rfl⟩
  | none =>
    simp only [Prod.mk.injEq, Except.ok.injEq, reduceCtorEq, false_and, false_iff]
    rintro ⟨ht, rfl, -⟩
    rw [h] at ht
    cases ht

theorem takeAs?_none_eq_ok {meaning? : TokenKind → Option β} {s left : σ} :
    takeAs? meaning? s = (.ok none, left) ↔
      meaning? (TokenStream.current s).kind = none ∧ s = left := by
  rw [takeAs?_apply]
  cases h : meaning? (TokenStream.current s).kind <;> simp

theorem takeAs?_bind {γ : Type} (meaning? : TokenKind → Option β)
    (f : Option (β × Token) → Parser σ γ) (s : σ) :
    (takeAs? meaning? >>= f) s = match meaning? (TokenStream.current s).kind with
      | some b => f (some (b, TokenStream.current s)) (TokenStream.advance s)
      | none => f none s := by
  rw [bind_apply, takeAs?_apply]
  cases meaning? (TokenStream.current s).kind <;> rfl

theorem expect_eq_ok {kind : TokenKind} {s left : σ} {t : Token} :
    expect kind s = (.ok t, left) ↔ t.kind = kind ∧ Reads s [t] left := by
  rw [expect, take?_bind, TokenStream.reads_singleton]
  by_cases h : (TokenStream.current s).kind = kind
  · simp only [if_pos h, pure_eq_ok]
    constructor
    · rintro ⟨rfl, rfl⟩
      exact ⟨h, rfl, rfl⟩
    · exact And.right
  · simp only [if_neg h, fail_eq_ok, false_iff]
    rintro ⟨ht, rfl, -⟩
    exact h ht

theorem expectAny_eq_ok {kinds : List TokenKind} {s left : σ} {t : Token} :
    expectAny kinds s = (.ok t, left) ↔ t.kind ∈ kinds ∧ Reads s [t] left := by
  rw [expectAny, bind_apply, takeAny?_apply, TokenStream.reads_singleton]
  by_cases h : (TokenStream.current s).kind ∈ kinds
  · simp only [if_pos h, pure_eq_ok]
    constructor
    · rintro ⟨rfl, rfl⟩
      exact ⟨h, rfl, rfl⟩
    · exact And.right
  · simp only [if_neg h, fail_eq_ok, false_iff]
    rintro ⟨ht, rfl, -⟩
    exact h ht

theorem expect_of_ne {kind : TokenKind} {s : σ} (h : (TokenStream.current s).kind ≠ kind) :
    (expect kind : Parser σ Token) s = fail (.one kind) s := by
  rw [expect, take?_bind, if_neg h]

theorem expectAny_of_not_mem {kinds : List TokenKind} {s : σ}
    (h : (TokenStream.current s).kind ∉ kinds) :
    (expectAny kinds : Parser σ Token) s = fail (.anyOf kinds) s := by
  rw [expectAny, bind_apply, takeAny?_apply, if_neg h]

end Parser

end

end TeachLang
