import TeachLang.Proofs.Grammar.Repetition
import TeachLang.Proofs.Grammar.Sentence
import TeachLang.Proofs.Grammar.Viable

/-! # Predictive parsers

A parser is predictive for a form if what it went past is a sentence of the form when it yields
a value, and goes on to one when it fails.  No decision depends on a token behind the one in
sight: a run on another stream that comes past the same tokens to the same token in sight has
the same result, whatever stands behind.  Runs with different fuels agree for as many tokens as
both fuels last.  All of this is about streams whose integer literals can be converted, on which
no error comes up behind the token that it reports.
-/

namespace TeachLang

/-- A kind is expected and begins no declaration.  In front of a program's keyword, declarations are
expected whether or not they can still come there. -/
def Expected.Offers (expected : Expected) (kind : TokenKind) : Prop :=
  expected.accepts kind ∧ kind ∉ First.declaration

/-- What a result tells about the kinds that were read: those in front of an error go on to a
longer sentence, and by any kind that the error offers. -/
def Fits {α : Type} (x : Ebnf) (ks : List TokenKind) : Except SyntaxError α → Prop
  | .ok _ => Derives x ks
  | .error e =>
    (∃ k, Viable x (ks ++ [k])) ∧ ∀ k, e.expected.Offers k → Viable x (ks ++ [k])

section

variable {α β : Type} {x y z : Ebnf} {ks : List TokenKind}

/-- In front of a form whose sentences are taken behind other kinds, a result fits a longer row. -/
theorem Fits.append (js : List TokenKind) {r : Except SyntaxError α} (h : Fits y ks r)
    (hz : ∀ ks, Derives y ks → Derives z (js ++ ks)) : Fits z (js ++ ks) r := by
  cases r with
  | ok a => exact hz _ h
  | error e =>
    have happend {k : TokenKind} (hk : Viable y (ks ++ [k])) : Viable z (js ++ ks ++ [k]) := by
      rw [List.append_assoc]
      exact hk.append hz
    obtain ⟨⟨k, hk⟩, hoffers⟩ := h
    exact ⟨⟨k, happend hk⟩, fun k hk => happend (hoffers k hk)⟩

theorem Fits.imp {r : Except SyntaxError α} (h : Fits x ks r)
    (hxz : ∀ ks, Derives x ks → Derives z ks) : Fits z ks r :=
  h.append [] hxz

/-- An error fits every form that goes on behind the one that it comes from. -/
theorem Fits.error_andThen {e : SyntaxError} (h : Fits x ks (.error e : Except SyntaxError α))
    (hy : y.productive) : Fits (.andThen x y) ks (.error e : Except SyntaxError β) := by
  obtain ⟨⟨k, hk⟩, hoffers⟩ := h
  have hnil := Ebnf.viable_nil hy
  exact ⟨⟨k, hk.andThen hnil⟩, fun k hk => (hoffers k hk).andThen hnil⟩

end

/-- Loops and nestings that use up one unit of fuel for each token agree up to the smaller fuel. -/
theorem fuel_induction {T : Nat → Nat → Nat → Prop} (zero : ∀ more, T 0 0 more)
    (succ : ∀ n fuel more, n ≤ fuel + 1 → fuel ≤ more → T (n - 1) fuel more →
      T n (fuel + 1) (more + 1))
    {n fuel more : Nat} (hn : n ≤ fuel) (hfuel : fuel ≤ more) : T n fuel more := by
  induction fuel generalizing n more with
  | zero =>
    obtain rfl := Nat.le_zero.1 hn
    exact zero more
  | succ fuel ih =>
    obtain ⟨more, rfl⟩ : ∃ m, more = m + 1 := ⟨more - 1, by omega⟩
    exact succ n fuel more hn (by omega) (ih (by omega) (by omega))

namespace TokenStream

variable {σ τ : Type} [TokenStream σ] [TokenStream τ]

def Legible (s : σ) : Prop :=
  ∀ ⦃w : List Token⦄ ⦃left : σ⦄, Reads s w left → (current left).isLegible

theorem Legible.current {s : σ} (h : Legible s) : (current s).isLegible := h (w := []) rfl

theorem Legible.of_reads {s left : σ} {w : List Token} (h : Legible s) (hw : Reads s w left) :
    Legible left :=
  fun _ _ hmore => h (reads_append.2 ⟨left, hw, hmore⟩)

/-- Two streams that come past the same tokens to the same token have the same token in sight. -/
theorem Reads.current_eq {s left : σ} {s' left' : τ} {w : List Token} (h : Reads s w left)
    (h' : Reads s' w left') (hleft : current left' = current left) :
    current s' = current s := by
  cases w with
  | nil =>
    obtain rfl := reads_nil.1 h
    obtain rfl := reads_nil.1 h'
    exact hleft
  | cons t w => rw [h.1, h'.1]

end TokenStream

namespace Parser

open TokenStream (Reads)

variable {σ τ α β : Type} [TokenStream σ] [TokenStream τ]

/-- What some tokens explain about a result: that they were read, that an error reports the token
behind them, that their kinds fit, and that other runs past fewer than `n` tokens end alike. -/
structure Explains (n : Nat) (q : Parser τ α) (x : Ebnf) (s : σ)
    (result : Except SyntaxError α × σ) (w : List Token) : Prop where
  reads : Reads s w result.2
  found : ∀ e, result.1 = .error e → e.found = TokenStream.current result.2
  fits : Fits x (kinds w) result.1
  same : w.length < n → ∀ ⦃s' left' : τ⦄, Reads s' w left' →
    TokenStream.current left' = TokenStream.current result.2 → q s' = (result.1, left')

/-- A parser that never looks further than the token in sight, at the start of a form; with the run
on another stream that agrees for fewer than `n` tokens. -/
def Predictive (n : Nat) (p : Parser σ α) (q : Parser τ α) (x : Ebnf) (s : σ) : Prop :=
  TokenStream.Legible s → ∃ w, Explains n q x s (p s) w

namespace Predictive

variable {n m : Nat} {p p' : Parser σ α} {q q' : Parser τ α} {f : α → Parser σ β}
  {g : α → Parser τ β} {x y z : Ebnf} {xs : List Ebnf} {s : σ}

theorem mono (h : Predictive n p q x s) (hm : m ≤ n) : Predictive m p q x s := by
  intro hs
  obtain ⟨w, hw⟩ := h hs
  exact ⟨w, hw.reads, hw.found, hw.fits, fun hlength => hw.same (Nat.lt_of_lt_of_le hlength hm)⟩

/-- Nothing has to agree within no tokens. -/
theorem of_zero (h : Predictive 0 p q x s) : Predictive 0 p q' x s := by
  intro hs
  obtain ⟨w, hw⟩ := h hs
  exact ⟨w, hw.reads, hw.found, hw.fits, fun hlength => absurd hlength (Nat.not_lt_zero _)⟩

theorem imp (h : Predictive n p q x s) (hxz : ∀ ks, Derives x ks → Derives z ks) :
    Predictive n p q z s := by
  intro hs
  obtain ⟨w, hw⟩ := h hs
  exact ⟨w, hw.reads, hw.found, hw.fits.imp hxz, hw.same⟩

theorem part {k : Nonterminal} (h : Predictive n p q k.rule s) : Predictive n p q (.part k) s :=
  h.imp fun _ => .part

theorem left (h : Predictive n p q x s) : Predictive n p q (.either x y) s := h.imp fun _ => .left

theorem right (h : Predictive n p q y s) : Predictive n p q (.either x y) s :=
  h.imp fun _ => .right

theorem last (h : Predictive n p q x s) : Predictive n p q (.seq [x]) s := h.imp fun _ => .last

/-- Parsers that go on alike with the token in sight. -/
theorem congr (h : Predictive n p' q' x s) (hp : p s = p' s)
    (hq : ∀ s', TokenStream.current s' = TokenStream.current s → q s' = q' s') :
    Predictive n p q x s := by
  intro hlegible
  obtain ⟨w, hw⟩ := h hlegible
  rw [hp]
  refine ⟨w, hw.reads, hw.found, hw.fits, fun hlength s' left' hreads hleft => ?_⟩
  rw [hq s' (hw.reads.current_eq hreads hleft)]
  exact hw.same hlength hreads hleft

protected theorem pure {a : α} (hx : Derives x []) :
    Predictive n (pure a : Parser σ α) (pure a : Parser τ α) x s := by
  refine fun _ =>
    ⟨[], rfl, fun e (he : Except.ok a = .error e) => ?_, hx, fun _ s' left' hreads _ => ?_⟩
  · cases he
  · obtain rfl := TokenStream.reads_nil.1 hreads
    rfl

protected theorem fail {expected : Expected} (hsome : ∃ k, x.begins k)
    (hbegins : ∀ k, expected.Offers k → x.begins k) :
    Predictive n (fail expected : Parser σ α) (fail expected : Parser τ α) x s := by
  obtain ⟨k, hk⟩ := hsome
  refine fun _ => ⟨[], rfl, ?_, ⟨⟨k, Ebnf.viable_of_begins hk⟩, fun k hk =>
    Ebnf.viable_of_begins (hbegins k hk)⟩, fun _ s' left' hreads hleft => ?_⟩
  · rintro e ⟨⟩
    rfl
  · obtain rfl := TokenStream.reads_nil.1 hreads
    rw [fail, hleft]
    rfl

theorem failAny {kinds : List TokenKind} (hsome : ∃ k ∈ kinds, x.begins k)
    (hbegins : ∀ k ∈ kinds, k ∉ First.declaration → x.begins k) :
    Predictive n (fail (.anyOf kinds) : Parser σ α) (fail (.anyOf kinds) : Parser τ α) x s := by
  obtain ⟨k, -, hk⟩ := hsome
  refine .fail ⟨k, hk⟩ ?_
  rintro k ⟨hk, hdeclaration⟩
  exact hbegins k (List.contains_iff_mem.1 hk) hdeclaration

/-- One token is read, and one less is left to agree on. -/
theorem step (h : Predictive (n - 1) p' q' y (TokenStream.advance s))
    (hp : p s = p' (TokenStream.advance s))
    (hq : ∀ s', TokenStream.current s' = TokenStream.current s →
      q s' = q' (TokenStream.advance s'))
    (hyx : ∀ ks, Derives y ks → Derives x ((TokenStream.current s).kind :: ks)) :
    Predictive n p q x s := by
  intro hlegible
  obtain ⟨w, hw⟩ := h (hlegible.of_reads (TokenStream.reads_advance s))
  rw [hp]
  refine ⟨TokenStream.current s :: w, ⟨rfl, hw.reads⟩, hw.found,
    hw.fits.append [_] hyx, fun hlength s' left' hreads hleft => ?_⟩
  rw [hq s' hreads.1]
  rw [List.length_cons] at hlength
  exact hw.same (by omega) hreads.2 hleft

/-- One parser behind another; the tokens of the first one are not left to agree on. -/
theorem bind_length (hp : Predictive n p q x s) (hy : y.productive)
    (hf : ∀ w a m, Derives x (kinds w) → Predictive (n - w.length) (f a) (g a) y m) :
    Predictive n (p >>= f) (q >>= g) (.andThen x y) s := by
  intro hlegible
  obtain ⟨v, hv⟩ := hp hlegible
  rw [bind_apply]
  rcases hps : p s with ⟨e | a, m⟩
  · rw [hps] at hv
    refine ⟨v, hv.reads, ?_, hv.fits.error_andThen hy, fun hlength s' left' hreads hleft => ?_⟩
    · rintro e ⟨⟩
      exact hv.found e rfl
    · rw [bind_apply, hv.same hlength hreads hleft]
  · rw [hps] at hv
    obtain ⟨w, hw⟩ := hf v a m hv.fits (hlegible.of_reads hv.reads)
    refine ⟨v ++ w, TokenStream.reads_append.2 ⟨m, hv.reads, hw.reads⟩, hw.found, ?_,
      fun hlength s' left' hreads hleft => ?_⟩
    · rw [kinds, List.map_append]
      exact hw.fits.append _ fun ks => .andThen hv.fits
    · -- the other run comes past the first part to a token that is in sight there as here
      obtain ⟨m', hfirst, hsecond⟩ := TokenStream.reads_append.1 hreads
      rw [List.length_append] at hlength
      rw [bind_apply, hv.same (by omega) hfirst (hw.reads.current_eq hsecond hleft)]
      exact hw.same (by omega) hsecond hleft

protected theorem bind (hp : Predictive n p q x s) (hy : y.productive)
    (hf : ∀ a m, Predictive n (f a) (g a) y m) :
    Predictive n (p >>= f) (q >>= g) (.andThen x y) s :=
  hp.bind_length hy fun _ a m _ => (hf a m).mono (Nat.sub_le _ _)

/-- Behind a form that takes tokens, one less is left to agree on. -/
theorem behind (hp : Predictive n p q x s) (hx : x.nullable = false) (hy : y.productive)
    (hf : ∀ a m, Predictive (n - 1) (f a) (g a) y m) :
    Predictive n (p >>= f) (q >>= g) (.andThen x y) s := by
  refine hp.bind_length hy fun w a m hw => (hf a m).mono ?_
  have hpos : 0 < w.length := by
    rw [List.length_pos_iff]
    rintro rfl
    exact hw.ne_nil hx rfl
  omega

theorem map (hp : Predictive n p q x s) (h : α → β) :
    Predictive n (do return h (← p)) (do return h (← q)) x s := by
  refine (hp.bind (y := .empty) rfl fun a m => .pure .empty).imp fun ks hks => ?_
  exact Derives.seq_singleton hks

/-! A token of a known kind, or of one that is asked for. -/

theorem advance_bind {kind : TokenKind} {f : Token → Parser σ β} {g : Token → Parser τ β}
    (hs : (TokenStream.current s).kind = kind)
    (h : ∀ t m, Predictive (n - 1) (f t) (g t) (.seq xs) m) :
    Predictive n (advance >>= f) (advance >>= g) (.seq (.token kind :: xs)) s := by
  refine (h (TokenStream.current s) (TokenStream.advance s)).step rfl ?_ ?_
  · intro s' hs'
    rw [← hs']
    rfl
  · intro ks hks
    rw [hs]
    exact .cons hks

theorem current_bind {f : Token → Parser σ β} {g : Token → Parser τ β}
    (h : Predictive n (f (TokenStream.current s)) (g (TokenStream.current s)) x s) :
    Predictive n (current >>= f) (current >>= g) x s := by
  refine h.congr (Parser.current_bind f s) fun s' hs' => ?_
  rw [Parser.current_bind, hs']

theorem take?_bind {kind : TokenKind} {f : Option Token → Parser σ β}
    {g : Option Token → Parser τ β} (hyx : ∀ ks, Derives y ks → Derives x (kind :: ks))
    (hsome : ∀ t m, Predictive (n - 1) (f (some t)) (g (some t)) y m)
    (hnone : Predictive n (f none) (g none) x s) :
    Predictive n (take? kind >>= f) (take? kind >>= g) x s := by
  by_cases hs : (TokenStream.current s).kind = kind
  · refine (hsome (TokenStream.current s) (TokenStream.advance s)).step ?_ ?_ (by rwa [hs])
    · rw [Parser.take?_bind, if_pos hs]
    · intro s' hs'
      rw [Parser.take?_bind, hs', if_pos hs]
  · refine hnone.congr ?_ ?_
    · rw [Parser.take?_bind, if_neg hs]
    · intro s' hs'
      rw [Parser.take?_bind, hs', if_neg hs]

/-- A part that is there exactly if the kind that it begins with is in sight. -/
theorem take?_optional {kind : TokenKind} {f : Option Token → Parser σ β}
    {g : Option Token → Parser τ β}
    (hsome : ∀ t m, Predictive (n - 1) (f (some t)) (g (some t)) (.seq xs) m)
    (hnone : Predictive n (f none) (g none) .empty s) :
    Predictive n (take? kind >>= f) (take? kind >>= g)
      (.optional (.seq (.token kind :: xs))) s :=
  take?_bind (fun _ hks => .right (.cons hks)) hsome (hnone.imp fun _ => .left)

theorem takeAs?_bind {γ : Type} {meaning? : TokenKind → Option γ}
    {f : Option (γ × Token) → Parser σ β} {g : Option (γ × Token) → Parser τ β}
    (hyx : ∀ k c, meaning? k = some c → ∀ ks, Derives y ks → Derives x (k :: ks))
    (hsome : ∀ c t m, Predictive (n - 1) (f (some (c, t))) (g (some (c, t))) y m)
    (hnone : Predictive n (f none) (g none) x s) :
    Predictive n (takeAs? meaning? >>= f) (takeAs? meaning? >>= g) x s := by
  cases hs : meaning? (TokenStream.current s).kind with
  | some c =>
    refine (hsome c (TokenStream.current s) (TokenStream.advance s)).step ?_ ?_ (hyx _ c hs)
    · rw [Parser.takeAs?_bind, hs]
    · intro s' hs'
      rw [Parser.takeAs?_bind, hs', hs]
  | none =>
    refine hnone.congr ?_ ?_
    · rw [Parser.takeAs?_bind, hs]
    · intro s' hs'
      rw [Parser.takeAs?_bind, hs', hs]

theorem hasAny_bind {kinds : List TokenKind} {f : Bool → Parser σ β} {g : Bool → Parser τ β}
    (h : ∀ b, Predictive n (f b) (g b) x s) :
    Predictive n (hasAny kinds >>= f) (hasAny kinds >>= g) x s := by
  refine (h _).congr (Parser.hasAny_bind kinds f s) fun s' hs' => ?_
  rw [Parser.hasAny_bind, hs']

theorem has_bind {kind : TokenKind} {f : Bool → Parser σ β} {g : Bool → Parser τ β}
    (h : ∀ b, ((TokenStream.current s).kind = kind ↔ b = true) → Predictive n (f b) (g b) x s) :
    Predictive n (has kind >>= f) (has kind >>= g) x s := by
  refine (h _ beq_iff_eq.symm).congr (Parser.has_bind kind f s) fun s' hs' => ?_
  rw [Parser.has_bind, hs']

protected theorem expect (kind : TokenKind) :
    Predictive n (expect kind : Parser σ Token) (expect kind : Parser τ Token) (.token kind) s := by
  have hkind : (Ebnf.token kind).begins kind := by
    simp [Ebnf.begins, Ebnf.token, Ebnf.startsWith]
  refine take?_bind (y := .empty) ?_ (fun t m => .pure .empty) (.fail ⟨kind, hkind⟩ ?_)
  · rintro ks ⟨⟩
    exact .token kind
  · rintro k ⟨hk, -⟩
    obtain rfl : kind = k := by simpa [Expected.accepts] using hk
    exact hkind

theorem expect_bind {kind : TokenKind} {f : Token → Parser σ β} {g : Token → Parser τ β}
    (hxs : (Ebnf.seq xs).productive) (h : ∀ t m, Predictive (n - 1) (f t) (g t) (.seq xs) m) :
    Predictive n (expect kind >>= f) (expect kind >>= g) (.seq (.token kind :: xs)) s :=
  (Predictive.expect kind).behind rfl hxs h

/-- A token that cannot fail to be there, as one of the kinds is in sight. -/
theorem expectAny_bind {kind : TokenKind} {kinds : List TokenKind} {f : Token → Parser σ β}
    {g : Token → Parser τ β} (hs : (TokenStream.current s).kind = kind) (hkind : kind ∈ kinds)
    (h : ∀ t m, t.kind = kind → Predictive (n - 1) (f t) (g t) (.seq xs) m) :
    Predictive n (expectAny kinds >>= f) (expectAny kinds >>= g) (.seq (.token kind :: xs)) s := by
  have hmem : (TokenStream.current s).kind ∈ kinds := by rwa [hs]
  refine (h (TokenStream.current s) (TokenStream.advance s) hs).step ?_ ?_ ?_
  · rw [bind_apply, expectAny_eq_ok.2 ⟨hmem, TokenStream.reads_advance s⟩]
  · intro s' hs'
    rw [← hs'] at hmem
    rw [bind_apply, expectAny_eq_ok.2 ⟨hmem, TokenStream.reads_advance s'⟩, hs']
  · intro ks hks
    rw [hs]
    exact .cons hks

protected theorem expectAny {kinds : List TokenKind} (hkinds : kinds ≠ []) :
    Predictive n (expectAny kinds : Parser σ Token) (expectAny kinds : Parser τ Token)
      (.oneOf kinds) s := by
  by_cases hs : (TokenStream.current s).kind ∈ kinds
  · have ht : Predictive (n - 1) (pure (TokenStream.current s) : Parser σ Token)
        (pure (TokenStream.current s) : Parser τ Token) .empty (TokenStream.advance s) :=
      .pure .empty
    refine ht.step (expectAny_eq_ok.2 ⟨hs, TokenStream.reads_advance s⟩) ?_ ?_
    · intro s' hs'
      rw [← hs'] at hs ⊢
      exact expectAny_eq_ok.2 ⟨hs, TokenStream.reads_advance s'⟩
    · rintro ks ⟨⟩
      exact .oneOf hs
  · obtain ⟨k, hk⟩ := List.exists_mem_of_ne_nil kinds hkinds
    have hfail : Predictive n (fail (.anyOf kinds) : Parser σ Token)
        (fail (.anyOf kinds) : Parser τ Token) (.oneOf kinds) s :=
      .failAny ⟨k, hk, List.contains_iff_mem.2 hk⟩ fun k hk _ => List.contains_iff_mem.2 hk
    exact hfail.congr (expectAny_of_not_mem hs) fun s' hs' => expectAny_of_not_mem (by rwa [hs'])

/-! Parts that may be missing, and parts again and again. -/

protected theorem opt (first : List TokenKind) (hp : Predictive n p q x s) :
    Predictive n (opt first p) (opt first q) (.optional x) s := by
  refine hasAny_bind fun b => ?_
  cases b with
  | false => exact .pure (.left .empty)
  | true => exact .right (hp.map some)

/-- Loops over items that take tokens. -/
protected theorem many (first : List TokenKind) (hx : x.nullable = false) {fuel more : Nat}
    (hn : n ≤ fuel) (hfuel : fuel ≤ more) (hp : ∀ m, Predictive n p q x m) (s : σ) :
    Predictive n (many first p fuel) (many first q more) (.repeated x) s := by
  refine fuel_induction (T := fun n fuel more => (∀ m, Predictive n p q x m) → ∀ s,
    Predictive n (many first p fuel) (many first q more) (.repeated x) s) ?_ ?_ hn hfuel hp s
  · intro more _ s
    exact of_zero (q := pure []) (.pure .stop)
  · intro n fuel more _ _ ih hp s
    have htail (m : σ) := ih (fun m => (hp m).mono (Nat.sub_le _ _)) m
    refine hasAny_bind fun b => ?_
    cases b with
    | false => exact .pure .stop
    | true =>
      -- an item takes a token, and so the rest of the loop may do with one unit of fuel less
      refine ((hp s).behind hx rfl fun a m => (htail m).map (a :: ·)).imp ?_
      intro ks hks
      cases hks with | andThen hhead hrest =>
      exact .again hhead hrest

protected theorem afterCommas (hx : x.productive) {fuel more : Nat} (hn : n ≤ fuel)
    (hfuel : fuel ≤ more) (hp : ∀ m, Predictive (n - 1) p q x m) (s : σ) :
    Predictive n (afterCommas p fuel) (afterCommas q more)
      (.repeated (.andThen (.token .comma) x)) s := by
  rw [afterCommas_eq_many, afterCommas_eq_many]
  have hitem (m : σ) : Predictive n (after .comma p) (after .comma q)
      (.andThen (.token .comma) x) m :=
    (Predictive.expect .comma).behind rfl hx fun _ m => hp m
  exact .many [.comma] rfl hn hfuel hitem s

protected theorem commaSeparated (first : List TokenKind) (hx : x.productive) {fuel more : Nat}
    (hn : n ≤ fuel) (hfuel : fuel ≤ more) (hp : ∀ m, Predictive n p q x m) (s : σ) :
    Predictive n (commaSeparated first p fuel) (commaSeparated first q more)
      (.optional (.commas x)) s := by
  refine hasAny_bind fun b => ?_
  cases b with
  | false => exact .pure (.left .empty)
  | true =>
    have hrest (a : α) (m : σ) := (Predictive.afterCommas hx hn hfuel
      (fun m => (hp m).mono (Nat.sub_le _ _)) m).map (a :: ·)
    exact .right ((hp s).bind rfl hrest)

end Predictive

end Parser

end TeachLang
