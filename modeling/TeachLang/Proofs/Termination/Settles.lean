import TeachLang.Proofs.Grammar.Reading
import TeachLang.Proofs.Termination.Metered

/-! # Parsers that come to an end

With more fuel than tokens in front of the end of input, no parser runs out of it.  A part of the
grammar that cannot begin with the token in sight leaves it there, and one that can takes it, even
if it fails further on.
-/

namespace TeachLang

namespace TokenStream

variable {σ : Type} [TokenStream σ]

/-- The end of input comes into sight within some number of tokens, and stays there. -/
inductive Ends : Nat → σ → Prop
  | eof {n : Nat} {s : σ} (kind : (current s).kind = .eof) (stays : advance s = s) : Ends n s
  | token {n : Nat} {s : σ} (kind : (current s).kind ≠ .eof) (rest : Ends n (advance s)) :
      Ends (n + 1) s

variable {s : σ} {m n : Nat}

theorem Ends.mono (h : Ends m s) (hm : m ≤ n) : Ends n s := by
  induction h generalizing n with
  | eof hkind hstays => exact .eof hkind hstays
  | token hkind _ ih =>
    obtain ⟨n, rfl⟩ := Nat.exists_eq_add_one_of_ne_zero (Nat.ne_zero_of_lt hm)
    exact .token hkind (ih (Nat.le_of_succ_le_succ hm))

theorem Ends.advance_lt (h : Ends n s) (hkind : (current s).kind ≠ .eof) :
    ∃ m < n, Ends m (advance s) := by
  cases h with
  | eof heof => exact absurd heof hkind
  | token _ hrest => exact ⟨_, Nat.lt_succ_self _, hrest⟩

theorem Ends.advance (h : Ends n s) : Ends n (advance s) := by
  cases h with
  | eof heof hstays =>
    rw [hstays]
    exact .eof heof hstays
  | token _ hrest => exact hrest.mono (Nat.le_succ _)

end TokenStream

open TokenStream (Ends)

/-- Loops and nestings use up one unit of fuel for each token, whatever they have of it. -/
theorem metered_induction {T : Nat → Nat → Nat → Prop}
    (step : ∀ n fuel more, n ≤ fuel → n ≤ more → (∀ m < n, T m fuel more) →
      T n (fuel + 1) (more + 1))
    {n fuel more : Nat} (hfuel : n < fuel) (hmore : n < more) : T n fuel more := by
  induction n using Nat.strongRecOn generalizing fuel more with
  | ind n ih =>
    obtain ⟨fuel, rfl⟩ := Nat.exists_eq_add_one_of_ne_zero (Nat.ne_zero_of_lt hfuel)
    obtain ⟨more, rfl⟩ := Nat.exists_eq_add_one_of_ne_zero (Nat.ne_zero_of_lt hmore)
    exact step n fuel more (by omega) (by omega) fun m hm => ih m hm (by omega) (by omega)

variable {σ α β : Type} [TokenStream σ]

/-- A metered parser does not run out of fuel and has the result of one that is not metered, with
at most some number of tokens left. -/
structure Halts (n : Nat) (u : Metered σ α) (p : Parser σ α) (s : σ) : Prop where
  eq : u s = some (p s)
  ends : Ends n (p s).2

/-- A metered parser of what some kinds of tokens begin, and one that is not metered, where at most
some number of tokens are left: with one of the kinds in sight a token is taken, and with any other
one none is and the result is an idle one. -/
structure Settles (first : List TokenKind) (idle : Except SyntaxError α → Prop) (n : Nat)
    (u : Metered σ α) (p : Parser σ α) (s : σ) : Prop where
  takes : (TokenStream.current s).kind ∈ first → ∃ m < n, Halts m u p s
  stays : (TokenStream.current s).kind ∉ first → u s = some (p s) ∧ (p s).2 = s ∧ idle (p s).1

/-- A part settles wherever less than some number of tokens are left. -/
def SettlesBelow (n : Nat) (first : List TokenKind) (idle : Except SyntaxError α → Prop)
    (u : Metered σ α) (p : Parser σ α) : Prop :=
  ∀ ⦃m s⦄, m < n → Ends m s → Settles first idle m u p s

/-- The result of what has to be there and is not. -/
def Failed (result : Except SyntaxError α) : Prop := ∃ e, result = .error e

theorem Parser.takeAny?_bind (kinds : List TokenKind) (f : Option Token → Parser σ β) (s : σ) :
    (takeAny? kinds >>= f) s = if (TokenStream.current s).kind ∈ kinds then
      f (some (TokenStream.current s)) (TokenStream.advance s) else f none s := by
  rw [bind_apply, takeAny?_apply]
  by_cases h : (TokenStream.current s).kind ∈ kinds
  · simp only [if_pos h]
  · simp only [if_neg h]

theorem Parser.take?_eq_takeAny? (kind : TokenKind) :
    (take? kind : Parser σ (Option Token)) = takeAny? [kind] := by
  funext s
  rw [take?_apply, takeAny?_apply]
  simp only [List.mem_singleton]

namespace Metered

omit [TokenStream σ] in
theorem bind_apply (u : Metered σ α) (f : α → Metered σ β) (s : σ) :
    (u >>= f) s = match u s with
      | some (.ok a, left) => f a left
      | some (.error e, left) => some (.error e, left)
      | none => none := by
  change (u s >>= fun x => _) = _
  rcases u s with _ | ⟨e | a, left⟩ <;> rfl

omit [TokenStream σ] in
theorem lift_bind (p : Parser σ α) (f : α → Parser σ β) :
    lift (p >>= f) = lift p >>= fun a => lift (f a) := by
  funext s
  rw [bind_apply, lift, lift, Parser.bind_apply]
  rcases p s with ⟨e | a, left⟩ <;> rfl

theorem lift_takeAny?_bind (kinds : List TokenKind) (f : Option Token → Metered σ β) (s : σ) :
    (lift (Parser.takeAny? kinds) >>= f) s = if (TokenStream.current s).kind ∈ kinds then
      f (some (TokenStream.current s)) (TokenStream.advance s) else f none s := by
  rw [bind_apply, lift, Parser.takeAny?_apply]
  by_cases h : (TokenStream.current s).kind ∈ kinds
  · simp only [if_pos h]
  · simp only [if_neg h]

end Metered

open Metered (lift)

variable {m n fuel more : Nat} {s : σ} {first kinds : List TokenKind} {kind : TokenKind}
  {idle : Except SyntaxError α → Prop} {u : Metered σ α} {p : Parser σ α}
  {f : α → Metered σ β} {g : α → Parser σ β}

namespace Halts

theorem mono (h : Halts m u p s) (hm : m ≤ n) : Halts n u p s := ⟨h.eq, h.ends.mono hm⟩

/-- Parsers that go on as others do from elsewhere. -/
theorem of_eq {s' : σ} {u' : Metered σ α} {p' : Parser σ α} (h : Halts n u' p' s')
    (hu : u s = u' s') (hp : p s = p' s') : Halts n u p s := by
  refine ⟨?_, ?_⟩
  · rw [hu, hp, h.eq]
  · rw [hp]
    exact h.ends

theorem lift (h : Ends n (p s).2) : Halts n (lift p) p s := ⟨rfl, h⟩

protected theorem pure (h : Ends n s) (a : α) : Halts n (pure a) (pure a) s := ⟨rfl, h⟩

protected theorem fail (h : Ends n s) (expected : Expected) :
    Halts (α := α) n (Metered.lift (Parser.fail expected)) (Parser.fail expected) s := ⟨rfl, h⟩

protected theorem bind (hp : Halts n u p s)
    (hf : ∀ a left, Ends n left → Halts n (f a) (g a) left) : Halts n (u >>= f) (p >>= g) s := by
  obtain ⟨heq, hends⟩ := hp
  rcases hresult : p s with ⟨e | a, left⟩ <;> rw [hresult] at heq hends
  · refine ⟨?_, ?_⟩
    · rw [Metered.bind_apply, Parser.bind_apply, heq, hresult]
    · rwa [Parser.bind_apply, hresult]
  · refine (hf a left hends).of_eq ?_ ?_
    · rw [Metered.bind_apply, heq]
    · rw [Parser.bind_apply, hresult]

theorem map (hp : Halts n u p s) (h : α → β) :
    Halts n (do return h (← u)) (do return h (← p)) s :=
  hp.bind fun a _ hleft => .pure hleft (h a)

theorem standsFor (h : Ends n s) (meaning? : TokenKind → Option α) (expected : Expected)
    (t : Token) : Halts n (Metered.lift (Parser.standsFor meaning? expected t))
      (Parser.standsFor meaning? expected t) s := by
  refine .lift ?_
  rw [Parser.standsFor]
  cases meaning? t.kind <;> exact h

theorem has_bind {f : Bool → Metered σ β} {g : Bool → Parser σ β}
    (h : ∀ b, ((TokenStream.current s).kind = kind ↔ b = true) → Halts n (f b) (g b) s) :
    Halts n (Metered.lift (Parser.has kind) >>= f) (Parser.has kind >>= g) s :=
  (h _ beq_iff_eq.symm).of_eq rfl rfl

theorem hasAny_bind {f : Bool → Metered σ β} {g : Bool → Parser σ β}
    (h : ∀ b, ((TokenStream.current s).kind ∈ kinds ↔ b = true) → Halts n (f b) (g b) s) :
    Halts n (Metered.lift (Parser.hasAny kinds) >>= f) (Parser.hasAny kinds >>= g) s :=
  (h _ List.contains_iff_mem.symm).of_eq rfl rfl

theorem current_bind {f : Token → Metered σ β} {g : Token → Parser σ β}
    (h : Halts n (f (TokenStream.current s)) (g (TokenStream.current s)) s) :
    Halts n (Metered.lift Parser.current >>= f) (Parser.current >>= g) s :=
  h.of_eq rfl rfl

theorem takeAny?_bind {f : Option Token → Metered σ β} {g : Option Token → Parser σ β}
    (h : Ends n s) (hkinds : .eof ∉ kinds)
    (hsome : ∀ t m left, m < n → Ends m left → Halts m (f (some t)) (g (some t)) left)
    (hnone : Halts n (f none) (g none) s) :
    Halts n (Metered.lift (Parser.takeAny? kinds) >>= f) (Parser.takeAny? kinds >>= g) s := by
  by_cases hs : (TokenStream.current s).kind ∈ kinds
  · obtain ⟨m, hm, hleft⟩ := h.advance_lt fun heof => hkinds (heof ▸ hs)
    refine ((hsome (TokenStream.current s) m _ hm hleft).mono (Nat.le_of_lt hm)).of_eq ?_ ?_
    · rw [Metered.lift_takeAny?_bind, if_pos hs]
    · rw [Parser.takeAny?_bind, if_pos hs]
  · refine hnone.of_eq ?_ ?_
    · rw [Metered.lift_takeAny?_bind, if_neg hs]
    · rw [Parser.takeAny?_bind, if_neg hs]

theorem take?_bind {f : Option Token → Metered σ β} {g : Option Token → Parser σ β} (h : Ends n s)
    (hkind : kind ≠ .eof)
    (hsome : ∀ t m left, m < n → Ends m left → Halts m (f (some t)) (g (some t)) left)
    (hnone : Halts n (f none) (g none) s) :
    Halts n (Metered.lift (Parser.take? kind) >>= f) (Parser.take? kind >>= g) s := by
  rw [Parser.take?_eq_takeAny?]
  exact .takeAny?_bind h (by simpa using hkind.symm) hsome hnone

protected theorem advance (h : Ends n s) :
    Halts n (Metered.lift Parser.advance) Parser.advance s := .lift h.advance

/-- The end of input can be expected, too; it stays in sight then. -/
protected theorem expect (h : Ends n s) (kind : TokenKind) :
    Halts n (Metered.lift (Parser.expect kind)) (Parser.expect kind) s := by
  refine .lift ?_
  by_cases hs : (TokenStream.current s).kind = kind
  · rw [Parser.expect_eq_ok.2 ⟨hs, TokenStream.reads_advance s⟩]
    exact h.advance
  · rw [Parser.expect_of_ne hs]
    exact h

end Halts

namespace Settles

/-- A part that can begin with the token in sight. -/
theorem of_mem (hs : (TokenStream.current s).kind ∈ first) (h : ∃ m < n, Halts m u p s) :
    Settles first idle n u p s :=
  ⟨fun _ => h, fun hnot => absurd hs hnot⟩

theorem of_not_mem (hs : (TokenStream.current s).kind ∉ first)
    (h : u s = some (p s) ∧ (p s).2 = s ∧ idle (p s).1) : Settles first idle n u p s :=
  ⟨fun hmem => absurd hmem hs, fun _ => h⟩

theorem of_eq {u' : Metered σ α} {p' : Parser σ α} (h : Settles first idle n u' p' s)
    (hu : u s = u' s) (hp : p s = p' s) : Settles first idle n u p s := by
  refine ⟨fun hs => ?_, fun hs => ?_⟩
  · obtain ⟨m, hm, hhalts⟩ := h.takes hs
    exact ⟨m, hm, hhalts.of_eq hu hp⟩
  · rw [hu, hp]
    exact h.stays hs

/-- What begins a part besides the token in sight does not matter. -/
theorem change {others : List TokenKind} (h : Settles others idle n u p s)
    (hs : (TokenStream.current s).kind ∈ first ↔ (TokenStream.current s).kind ∈ others) :
    Settles first idle n u p s :=
  ⟨fun hmem => h.takes (hs.1 hmem), fun hnot => h.stays (mt hs.2 hnot)⟩

theorem mono (h : Settles first idle m u p s) (hm : m ≤ n) : Settles first idle n u p s := by
  refine ⟨fun hs => ?_, h.stays⟩
  obtain ⟨k, hk, hhalts⟩ := h.takes hs
  exact ⟨k, Nat.lt_of_lt_of_le hk hm, hhalts⟩

theorem halts (h : Settles first idle n u p s) (hends : Ends n s) : Halts n u p s := by
  by_cases hs : (TokenStream.current s).kind ∈ first
  · obtain ⟨m, hm, hhalts⟩ := h.takes hs
    exact hhalts.mono (Nat.le_of_lt hm)
  · obtain ⟨heq, hstays, -⟩ := h.stays hs
    exact ⟨heq, by rwa [hstays]⟩

protected theorem fail (expected : Expected) (hs : (TokenStream.current s).kind ∉ first) :
    Settles (α := α) first Failed n (Metered.lift (Parser.fail expected)) (Parser.fail expected)
      s :=
  .of_not_mem hs ⟨rfl, rfl, _, rfl⟩

/-- What comes behind a part that has to be there begins behind a token. -/
protected theorem bind (hp : Settles first Failed n u p s)
    (hf : ∀ a m left, m < n → Ends m left → Halts m (f a) (g a) left) :
    Settles first Failed n (u >>= f) (p >>= g) s := by
  refine ⟨fun hs => ?_, fun hs => ?_⟩
  · obtain ⟨m, hm, hhalts⟩ := hp.takes hs
    exact ⟨m, hm, hhalts.bind fun a left hleft => hf a m left hm hleft⟩
  · obtain ⟨heq, hstays, e, he⟩ := hp.stays hs
    have hresult : p s = (.error e, s) := Prod.ext he hstays
    rw [Metered.bind_apply, Parser.bind_apply, heq, hresult]
    exact ⟨rfl, rfl, e, rfl⟩

/-- A part that may be missing, in front of another one. -/
theorem before {idle : Except SyntaxError β → Prop} {a : α} {both : List TokenKind}
    (rest : List TokenKind) (hboth : ∀ k, k ∈ both ↔ k ∈ first ∨ k ∈ rest) (h : Ends n s)
    (hp : Settles first (· = .ok a) n u p s)
    (hf : ∀ a m left, m ≤ n → Ends m left → Settles rest idle m (f a) (g a) left) :
    Settles both idle n (u >>= f) (p >>= g) s := by
  by_cases hs : (TokenStream.current s).kind ∈ first
  · obtain ⟨m, hm, hhalts⟩ := hp.takes hs
    refine .of_mem ((hboth _).2 (.inl hs)) ⟨m, hm, hhalts.bind fun a left hleft => ?_⟩
    exact (hf a m left (Nat.le_of_lt hm) hleft).halts hleft
  · -- the first part is missing, so that the other one begins at the same token
    obtain ⟨heq, hstays, hresult⟩ := hp.stays hs
    have hps : p s = (.ok a, s) := Prod.ext hresult hstays
    refine ((hf a n s (Nat.le_refl n) h).change (by rw [hboth, or_iff_right hs])).of_eq ?_ ?_
    · rw [Metered.bind_apply, heq, hps]
    · rw [Parser.bind_apply, hps]

theorem map {idle' : Except SyntaxError β → Prop} (hp : Settles first idle n u p s) (h : α → β)
    (hidle : ∀ result, idle result → idle' (result.map h)) :
    Settles first idle' n (do return h (← u)) (do return h (← p)) s := by
  refine ⟨fun hs => ?_, fun hs => ?_⟩
  · obtain ⟨m, hm, hhalts⟩ := hp.takes hs
    exact ⟨m, hm, hhalts.map h⟩
  · obtain ⟨heq, hstays, hresult⟩ := hp.stays hs
    have hmapped := hidle _ hresult
    rw [Metered.bind_apply, Parser.bind_apply, heq]
    rcases hps : p s with ⟨e | a, left⟩ <;> rw [hps] at hstays hmapped
    all_goals exact ⟨rfl, hstays, hmapped⟩

theorem map_failed (hp : Settles first Failed n u p s) (h : α → β) :
    Settles first Failed n (do return h (← u)) (do return h (← p)) s :=
  hp.bind fun a _ _ _ hleft => .pure hleft (h a)

theorem current_bind {idle : Except SyntaxError β → Prop} {f : Token → Metered σ β}
    {g : Token → Parser σ β}
    (h : Settles first idle n (f (TokenStream.current s)) (g (TokenStream.current s)) s) :
    Settles first idle n (Metered.lift Parser.current >>= f) (Parser.current >>= g) s :=
  h.of_eq rfl rfl

/-- What some kinds begin goes on behind a token, and what others begin starts in its place. -/
theorem takeAny?_bind {rest : List TokenKind} {f : Option Token → Metered σ β}
    {g : Option Token → Parser σ β} (hfirst : ∀ k, k ∈ first ↔ k ∈ kinds ∨ k ∈ rest) (h : Ends n s)
    (hkinds : .eof ∉ kinds)
    (hsome : ∀ t m left, m < n → Ends m left → Halts m (f (some t)) (g (some t)) left)
    (hnone : Settles rest Failed n (f none) (g none) s) :
    Settles first Failed n (Metered.lift (Parser.takeAny? kinds) >>= f)
      (Parser.takeAny? kinds >>= g) s := by
  by_cases hs : (TokenStream.current s).kind ∈ kinds
  · obtain ⟨m, hm, hleft⟩ := h.advance_lt fun heof => hkinds (heof ▸ hs)
    have hrest := hsome (TokenStream.current s) m _ hm hleft
    refine .of_mem ((hfirst _).2 (.inl hs)) ⟨m, hm, hrest.of_eq ?_ ?_⟩
    · rw [Metered.lift_takeAny?_bind, if_pos hs]
    · rw [Parser.takeAny?_bind, if_pos hs]
  · refine (hnone.change (by rw [hfirst, or_iff_right hs])).of_eq ?_ ?_
    · rw [Metered.lift_takeAny?_bind, if_neg hs]
    · rw [Parser.takeAny?_bind, if_neg hs]

/-- A token that is known to be in sight. -/
theorem advance_bind {idle : Except SyntaxError β → Prop} {f : Token → Metered σ β}
    {g : Token → Parser σ β} (hs : (TokenStream.current s).kind = kind) (hkind : kind ∈ first)
    (hfirst : .eof ∉ first) (h : Ends n s)
    (hf : ∀ t m left, m < n → Ends m left → Halts m (f t) (g t) left) :
    Settles first idle n (Metered.lift Parser.advance >>= f) (Parser.advance >>= g) s := by
  rw [← hs] at hkind
  obtain ⟨m, hm, hleft⟩ := h.advance_lt fun heof => hfirst (heof ▸ hkind)
  exact .of_mem hkind ⟨m, hm, (hf (TokenStream.current s) m _ hm hleft).of_eq rfl rfl⟩

protected theorem expect (h : Ends n s) (hkind : kind ≠ .eof) :
    Settles [kind] Failed n (lift (Parser.expect kind)) (Parser.expect kind) s := by
  by_cases hs : (TokenStream.current s).kind = kind
  · obtain ⟨m, hm, hleft⟩ := h.advance_lt (hs ▸ hkind)
    refine .of_mem (List.mem_singleton.2 hs) ⟨m, hm, .lift ?_⟩
    rwa [Parser.expect_eq_ok.2 ⟨hs, TokenStream.reads_advance s⟩]
  · refine .of_not_mem (by rwa [List.mem_singleton]) ⟨rfl, ?_⟩
    rw [Parser.expect_of_ne hs]
    exact ⟨rfl, _, rfl⟩

protected theorem expectAny (h : Ends n s) (hkinds : .eof ∉ kinds) :
    Settles kinds Failed n (lift (Parser.expectAny kinds)) (Parser.expectAny kinds) s := by
  by_cases hs : (TokenStream.current s).kind ∈ kinds
  · obtain ⟨m, hm, hleft⟩ := h.advance_lt fun heof => hkinds (heof ▸ hs)
    refine .of_mem hs ⟨m, hm, .lift ?_⟩
    rwa [Parser.expectAny_eq_ok.2 ⟨hs, TokenStream.reads_advance s⟩]
  · refine .of_not_mem hs ⟨rfl, ?_⟩
    rw [Parser.expectAny_of_not_mem hs]
    exact ⟨rfl, _, rfl⟩

/-! Parts that may be missing, and parts again and again. -/

/-- Where nothing begins that may be missing, there is a value of its own. -/
theorem hasAny_bind {f : Bool → Metered σ β} {g : Bool → Parser σ β} {b : β}
    (htrue : (TokenStream.current s).kind ∈ first → ∃ m < n, Halts m (f true) (g true) s)
    (hf : f false = pure b) (hg : g false = pure b) :
    Settles first (· = .ok b) n (Metered.lift (Parser.hasAny first) >>= f)
      (Parser.hasAny first >>= g) s := by
  refine ⟨fun hs => ?_, fun hs => ?_⟩
  · obtain ⟨m, hm, hhalts⟩ := htrue hs
    exact ⟨m, hm, .hasAny_bind fun b hb => by rwa [hb.1 hs]⟩
  · have hsight : first.contains (TokenStream.current s).kind = false := by simpa using hs
    have hleft : (Metered.lift (Parser.hasAny first) >>= f) s = some (.ok b, s) := by
      change f (first.contains _) s = _
      rw [hsight, hf]
      rfl
    rw [hleft, Parser.hasAny_bind, hsight, hg]
    exact ⟨rfl, rfl, rfl⟩

protected theorem opt (hp : Settles first idle n u p s) :
    Settles first (· = .ok none) n (Metered.opt first u) (Parser.opt first p) s := by
  refine hasAny_bind (fun hs => ?_) rfl rfl
  obtain ⟨m, hm, hhalts⟩ := hp.takes hs
  exact ⟨m, hm, hhalts.map some⟩

end Settles

theorem SettlesBelow.mono (hp : SettlesBelow n first idle u p) (hm : m ≤ n) :
    SettlesBelow m first idle u p :=
  fun _ _ hk hends => hp (Nat.lt_of_lt_of_le hk hm) hends

theorem SettlesBelow.halts (hp : SettlesBelow n first idle u p) (hm : m < n) (h : Ends m s) :
    Halts m u p s :=
  (hp hm h).halts h

/-- Each item takes a token, and so a loop ends before its fuel does. -/
theorem Settles.many (hfuel : n < fuel) (hmore : n < more)
    (hp : SettlesBelow (n + 1) first idle u p) (h : Ends n s) :
    Settles first (· = .ok []) n (Metered.many first u fuel) (Parser.many first p more) s := by
  refine metered_induction (T := fun n fuel more => SettlesBelow (n + 1) first idle u p →
    ∀ s, Ends n s →
      Settles first (· = .ok []) n (Metered.many first u fuel) (Parser.many first p more) s)
    ?_ hfuel hmore hp s h
  intro n fuel more _ _ ih hp s h
  refine .hasAny_bind (fun hs => ?_) rfl rfl
  obtain ⟨m, hm, hitem⟩ := (hp (Nat.lt_succ_self n) h).takes hs
  have hrest (left : σ) (hleft : Ends m left) := ih m hm (hp.mono (by omega)) left hleft
  exact ⟨m, hm, hitem.bind fun a left hleft => ((hrest left hleft).halts hleft).map (a :: ·)⟩

theorem Halts.afterCommas (hfuel : n < fuel) (hmore : n < more)
    (hp : SettlesBelow n first idle u p) (h : Ends n s) :
    Halts n (Metered.afterCommas u fuel) (Parser.afterCommas p more) s := by
  refine metered_induction (T := fun n fuel more => SettlesBelow n first idle u p →
    ∀ s, Ends n s → Halts n (Metered.afterCommas u fuel) (Parser.afterCommas p more) s)
    ?_ hfuel hmore hp s h
  intro n fuel more _ _ ih hp s h
  refine .take?_bind h (by decide) (fun _ m left hm hleft => ?_) (.pure h [])
  refine (hp.halts hm hleft).bind fun a left hleft => .map ?_ (a :: ·)
  exact ih m hm (hp.mono (Nat.le_of_lt hm)) left hleft

theorem Settles.commaSeparated (hfuel : n < fuel) (hmore : n < more)
    (hp : SettlesBelow (n + 1) first idle u p) (h : Ends n s) :
    Settles first (· = .ok []) n (Metered.commaSeparated first u fuel)
      (Parser.commaSeparated first p more) s := by
  refine .hasAny_bind (fun hs => ?_) rfl rfl
  obtain ⟨m, hm, hitem⟩ := (hp (Nat.lt_succ_self n) h).takes hs
  exact ⟨m, hm, hitem.bind fun a left hleft =>
    .map (.afterCommas (by omega) (by omega) (hp.mono (by omega)) hleft) (a :: ·)⟩

end TeachLang
