import Mathlib.Data.List.Basic
import TeachLang.Proofs.Text.Lines
import TeachLang.Text.Lines

/-! # Texts that are read back

A way to write values is delimited if a written value can be told from what follows it, as long as
what follows does not begin in the wrong way.  Values that are written one after the other can then
be read back one after the other.  What is written can be characters or whole lines, and a text is
read back from its lines.
-/

namespace TeachLang

section

variable {γ : Type} {stops stops' : γ → Prop}

/-- A text that is empty or begins with a letter of some sort. -/
def Stopped (stops : γ → Prop) (text : List γ) : Prop := ∀ c ∈ text.head?, stops c

theorem stopped_nil : Stopped stops [] := by simp [Stopped]

@[simp] theorem stopped_cons {c : γ} {cs : List γ} : Stopped stops (c :: cs) ↔ stops c := by
  simp [Stopped]

theorem Stopped.imp {text : List γ} (h : Stopped stops text) (himp : ∀ c, stops c → stops' c) :
    Stopped stops' text := fun c hc => himp c (h c hc)

end

/-- Two texts begin with written values only if these are the same and the texts go on in the same
way. -/
def Delimited {α γ : Type} (dom : α → Prop) (stops : γ → Prop) (write : α → List γ) : Prop :=
  ∀ ⦃a b : α⦄ ⦃x y : List γ⦄, dom a → dom b → Stopped stops x → Stopped stops y →
    write a ++ x = write b ++ y → a = b ∧ x = y

namespace Delimited

variable {α β γ : Type} {dom : α → Prop} {dom' : β → Prop} {stops stops' : γ → Prop}
  {write : α → List γ}

/-- No two values are written in the same way. -/
theorem injOn (h : Delimited dom stops write) {a b : α} (ha : dom a) (hb : dom b)
    (heq : write a = write b) : a = b :=
  (h ha hb stopped_nil stopped_nil (congrArg (· ++ []) heq)).1

theorem weaken (h : Delimited dom stops write) (himp : ∀ c, stops' c → stops c) :
    Delimited dom stops' write :=
  fun _ _ _ _ ha hb hx hy => h ha hb (hx.imp himp) (hy.imp himp)

/-- Values that are written as their images are. -/
theorem comp (h : Delimited dom stops write) {f : β → α} (hdom : ∀ b, dom' b → dom (f b))
    (hf : ∀ a b, dom' a → dom' b → f a = f b → a = b) : Delimited dom' stops (write ∘ f) := by
  intro a b x y ha hb hx hy heq
  obtain ⟨hab, hxy⟩ := h (hdom a ha) (hdom b hb) hx hy heq
  exact ⟨hf a b ha hb hab, hxy⟩

/-- Values one after the other, each of which begins in a way in which what comes behind the last
one does not. -/
theorem flatMap (h : Delimited dom stops write)
    (hfirst : ∀ a, dom a → ∃ c cs, write a = c :: cs ∧ stops c ∧ ¬ stops' c)
    (hstops : ∀ c, stops' c → stops c) :
    Delimited (fun as : List α => ∀ a ∈ as, dom a) stops' (·.flatMap write) := by
  have hstopped {as : List α} (has : ∀ a ∈ as, dom a) {x : List γ} (hx : Stopped stops' x) :
      Stopped stops (as.flatMap write ++ x) := by
    cases as with
    | nil => exact hx.imp hstops
    | cons a as =>
      obtain ⟨c, cs, hwrite, hc, -⟩ := hfirst a (has a List.mem_cons_self)
      simpa [hwrite] using hc
  have hne {a : α} (ha : dom a) {x : List γ} (hx : Stopped stops' x) (rest : List γ) :
      x ≠ write a ++ rest := by
    obtain ⟨c, cs, hwrite, -, hc⟩ := hfirst a ha
    rintro rfl
    rw [hwrite, List.cons_append, stopped_cons] at hx
    exact hc hx
  intro as bs x y has hbs hx hy heq
  dsimp only at heq
  induction as generalizing bs with
  | nil =>
    cases bs with
    | nil => exact ⟨rfl, heq⟩
    | cons b bs =>
      rw [List.flatMap_cons, List.append_assoc] at heq
      exact absurd heq (hne (hbs b List.mem_cons_self) hx _)
  | cons a as ih =>
    obtain ⟨ha, has'⟩ := List.forall_mem_cons.1 has
    rw [List.flatMap_cons, List.append_assoc] at heq
    cases bs with
    | nil => exact absurd heq.symm (hne ha hy _)
    | cons b bs =>
      obtain ⟨hb, hbs'⟩ := List.forall_mem_cons.1 hbs
      rw [List.flatMap_cons, List.append_assoc] at heq
      obtain ⟨rfl, hrest⟩ := h ha hb (hstopped has' hx) (hstopped hbs' hy) heq
      obtain ⟨rfl, hxy⟩ := ih has' hbs' hrest
      exact ⟨rfl, hxy⟩

end Delimited

/-- A run of letters of one sort in front of others. -/
theorem delimited_run {γ : Type} (p : γ → Prop) :
    Delimited (fun cs : List γ => ∀ c ∈ cs, p c) (fun c => ¬ p c) id := by
  intro a b x y ha hb hx hy heq
  induction a generalizing b with
  | nil =>
    cases b with
    | nil => exact ⟨rfl, heq⟩
    | cons c b =>
      subst heq
      exact absurd (hb c List.mem_cons_self) (hx c rfl)
  | cons c a ih =>
    cases b with
    | nil =>
      subst heq
      exact absurd (ha c List.mem_cons_self) (hy c rfl)
    | cons d b =>
      obtain ⟨rfl, htail⟩ := List.cons.inj heq
      obtain ⟨hab, hxy⟩ := ih (List.forall_mem_cons.1 ha).2 (List.forall_mem_cons.1 hb).2 htail
      exact ⟨congrArg (c :: ·) hab, hxy⟩

/-- What tells the items of two rows from each other tells the rows from each other. -/
theorem map_eq_map_of_imp {α β γ : Type} {f : α → γ} {g : α → β} {as bs : List α}
    (himp : ∀ a ∈ as, ∀ b ∈ bs, f a = f b → g a = g b) (h : as.map f = bs.map f) :
    as.map g = bs.map g := by
  induction as generalizing bs with
  | nil =>
    obtain rfl := List.map_eq_nil_iff.1 h.symm
    rfl
  | cons a as ih =>
    cases bs with
    | nil => cases h
    | cons b bs =>
      obtain ⟨hfirst, hrest⟩ := List.cons.inj h
      have hhead := himp a List.mem_cons_self b List.mem_cons_self hfirst
      have htail := ih (fun a ha b hb =>
        himp a (List.mem_cons_of_mem _ ha) b (List.mem_cons_of_mem _ hb)) hrest
      rw [List.map_cons, List.map_cons, hhead, htail]

/-- A text that stands on one line. -/
def IsLine (text : List Char) : Prop := ∀ c ∈ text, c ≠ '\n' ∧ c ≠ '\r'

-- only the characters of the text are looked at, not all characters
instance : DecidablePred IsLine := List.decidableBAll _

theorem isLine_nil : IsLine [] := nofun

theorem isLine_append {a b : List Char} : IsLine (a ++ b) ↔ IsLine a ∧ IsLine b :=
  List.forall_mem_append

theorem splitLines_append_newline {line : List Char} (h : IsLine line) (rest : List Char) :
    splitLines (line ++ '\n' :: rest) = (line, .newline) :: splitLines rest := by
  induction line with
  | nil => rw [List.nil_append, splitLines]
  | cons c line ih =>
    obtain ⟨⟨hnewline, hreturn⟩, hline⟩ := List.forall_mem_cons.1 h
    rw [List.cons_append, splitLines.eq_def]
    split
    next heq => simp at heq
    next heq => exact absurd (List.cons.inj heq).1 hreturn
    next heq => exact absurd (List.cons.inj heq).1 hnewline
    next heq =>
      obtain ⟨rfl, rfl⟩ := List.cons.inj heq
      rw [ih hline]

/-- A text is split into the lines that it is made of. -/
theorem splitLines_ended {lines : List (List Char)} (h : ∀ line ∈ lines, IsLine line) :
    splitLines (ended lines) = lines.map (·, .newline) := by
  induction lines with
  | nil => rfl
  | cons line lines ih =>
    obtain ⟨hline, hlines⟩ := List.forall_mem_cons.1 h
    rw [ended_cons, splitLines_append_newline hline, ih hlines, List.map_cons]

theorem ended_injOn {as bs : List (List Char)} (has : ∀ line ∈ as, IsLine line)
    (hbs : ∀ line ∈ bs, IsLine line) (h : ended as = ended bs) : as = bs := by
  have hsplit := congrArg splitLines h
  rw [splitLines_ended has, splitLines_ended hbs] at hsplit
  exact List.map_injective_iff.2 (fun _ _ heq => (Prod.mk.inj heq).1) hsplit

end TeachLang
