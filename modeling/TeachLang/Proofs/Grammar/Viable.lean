import TeachLang.Grammar.First
import TeachLang.Proofs.Grammar.Ebnf

/-! # Viable prefixes

Kinds in a row that can go on to a sentence of a form.  Every part of the documented grammar
has sentences, so whatever begins a form can go on; which kinds begin a form can be computed.
-/

namespace TeachLang

/-- Some kinds in a row that go on to a sentence of a form. -/
def Viable (x : Ebnf) (ks : List TokenKind) : Prop := ∃ more, Derives x (ks ++ more)

namespace Ebnf

/-- Whether the empty row is a sentence of a form.  No part of the grammar derives it. -/
def nullable : Ebnf → Bool
  | empty => true
  | oneOf _ => false
  | part _ => false
  | andThen x y => x.nullable && y.nullable
  | either x y => x.nullable || y.nullable
  | repeated _ => true

/-- Whether a form has sentences, where `known` tells which parts of the grammar do. -/
def hasSentence (known : Nonterminal → Bool) : Ebnf → Bool
  | empty => true
  | oneOf kinds => !kinds.isEmpty
  | part n => known n
  | andThen x y => x.hasSentence known && y.hasSentence known
  | either x y => x.hasSentence known || y.hasSentence known
  | repeated _ => true

def productive (x : Ebnf) : Bool := x.hasSentence fun _ => true

/-- Whether a kind begins a form, where `begun` tells which parts of the grammar it begins. -/
def startsWith (kind : TokenKind) (begun : Nonterminal → Bool) : Ebnf → Bool
  | empty => false
  | oneOf kinds => kinds.contains kind
  | part n => begun n
  | andThen x y =>
    (x.startsWith kind begun && y.productive) || (x.nullable && y.startsWith kind begun)
  | either x y => x.startsWith kind begun || y.startsWith kind begun
  | repeated x => x.startsWith kind begun

end Ebnf

namespace Nonterminal

/-- Whether a part of the grammar has sentences, where rules are followed to a depth. -/
def hasSentence : Nat → Nonterminal → Bool
  | 0, _ => false
  | depth + 1, n => n.rule.hasSentence (hasSentence depth)

/-- Whether a kind begins a part of the grammar, where rules are followed to a depth. -/
def startsWith (kind : TokenKind) : Nat → Nonterminal → Bool
  | 0, _ => false
  | depth + 1, n => n.rule.startsWith kind (startsWith kind depth)

end Nonterminal

/-- Whether a kind begins a form.  From expressions down to literals there are eight rules. -/
def Ebnf.begins (x : Ebnf) (kind : TokenKind) : Bool :=
  x.startsWith kind (Nonterminal.startsWith kind 8)

theorem Derives.ne_nil {x : Ebnf} {ks : List TokenKind} (h : Derives x ks)
    (hx : x.nullable = false) : ks ≠ [] := by
  have hrule : ∀ n : Nonterminal, n.rule.nullable = false := by
    intro n
    cases n <;> rfl
  induction h with
  | empty => cases hx
  | oneOf _ => exact List.cons_ne_nil _ _
  | part _ ih => exact ih (hrule _)
  | andThen _ _ ihl ihr =>
    rcases Bool.and_eq_false_iff.1 hx with hl | hr
    · simp [ihl hl]
    · simp [ihr hr]
  | left _ ih => exact ih (Bool.or_eq_false_iff.1 hx).1
  | right _ ih => exact ih (Bool.or_eq_false_iff.1 hx).2
  | stop => cases hx
  | again _ _ _ _ => cases hx

theorem Ebnf.derives_nil {x : Ebnf} (hx : x.nullable) : Derives x [] := by
  induction x with
  | empty => exact .empty
  | oneOf _ => cases hx
  | part _ => cases hx
  | andThen x y ihx ihy =>
    obtain ⟨hl, hr⟩ := Bool.and_eq_true_iff.1 hx
    exact .andThen (ihx hl) (ihy hr)
  | either x y ihx ihy =>
    rcases Bool.or_eq_true_iff.1 hx with hl | hr
    · exact .left (ihx hl)
    · exact .right (ihy hr)
  | repeated _ _ => exact .stop

namespace Viable

variable {x y z : Ebnf} {js ks : List TokenKind}

theorem of_derives (h : Derives x ks) : Viable x ks := ⟨[], by rwa [List.append_nil]⟩

theorem of_append (h : Viable x (js ++ ks)) : Viable x js := by
  obtain ⟨more, hmore⟩ := h
  exact ⟨ks ++ more, by rwa [← List.append_assoc]⟩

theorem imp (h : Viable x ks) (hxz : ∀ ks, Derives x ks → Derives z ks) : Viable z ks := by
  obtain ⟨more, hmore⟩ := h
  exact ⟨more, hxz _ hmore⟩

/-- What goes on to a sentence goes on behind other kinds as well, in a form that takes both. -/
theorem append (h : Viable y ks) (hz : ∀ ks, Derives y ks → Derives z (js ++ ks)) :
    Viable z (js ++ ks) := by
  obtain ⟨more, hmore⟩ := h
  exact ⟨more, by rw [List.append_assoc]; exact hz _ hmore⟩

theorem part {n : Nonterminal} (h : Viable n.rule ks) : Viable (.part n) ks :=
  h.imp fun _ => .part

theorem andThen (h : Viable x ks) (hy : Viable y []) : Viable (.andThen x y) ks := by
  obtain ⟨more, hmore⟩ := h
  obtain ⟨rest, hrest⟩ := hy
  exact ⟨more ++ rest, by rw [← List.append_assoc]; exact .andThen hmore hrest⟩

end Viable

/-- What a form derives can be derived in front of it, too. -/
theorem Ebnf.viable_nil_of_known {known : Nonterminal → Bool}
    (hknown : ∀ n, known n → Viable (.part n) []) {x : Ebnf} (hx : x.hasSentence known) :
    Viable x [] := by
  induction x with
  | empty => exact .of_derives .empty
  | oneOf kinds =>
    obtain ⟨k, hk⟩ := List.exists_mem_of_ne_nil kinds (by simpa [hasSentence] using hx)
    exact ⟨[k], .oneOf hk⟩
  | part n => exact hknown n hx
  | andThen x y ihx ihy =>
    obtain ⟨hl, hr⟩ := Bool.and_eq_true_iff.1 hx
    exact (ihx hl).andThen (ihy hr)
  | either x y ihx ihy =>
    rcases Bool.or_eq_true_iff.1 hx with hl | hr
    · exact (ihx hl).imp fun _ => .left
    · exact (ihy hr).imp fun _ => .right
  | repeated _ _ => exact .of_derives .stop

/-- Every part of the grammar has a sentence. -/
theorem Nonterminal.viable_nil (n : Nonterminal) : Viable (.part n) [] := by
  have hdepth : ∀ depth (n : Nonterminal), n.hasSentence depth → Viable (.part n) [] := by
    intro depth
    induction depth with
    | zero => exact fun n hn => by cases hn
    | succ depth ih => exact fun n hn => .part (Ebnf.viable_nil_of_known ih hn)
  exact hdepth 8 n (by cases n <;> decide)

theorem Ebnf.viable_nil {x : Ebnf} (hx : x.productive) : Viable x [] :=
  viable_nil_of_known (fun n _ => n.viable_nil) hx

theorem Ebnf.viable_of_startsWith {kind : TokenKind} {begun : Nonterminal → Bool}
    (hbegun : ∀ n, begun n → Viable (.part n) [kind]) {x : Ebnf}
    (hx : x.startsWith kind begun) : Viable x [kind] := by
  induction x with
  | empty => cases hx
  | oneOf kinds => exact .of_derives (.oneOf (List.contains_iff_mem.1 hx))
  | part n => exact hbegun n hx
  | andThen x y ihx ihy =>
    rcases Bool.or_eq_true_iff.1 hx with hl | hr
    · obtain ⟨hstarts, hproductive⟩ := Bool.and_eq_true_iff.1 hl
      exact (ihx hstarts).andThen (viable_nil hproductive)
    · obtain ⟨hnullable, hstarts⟩ := Bool.and_eq_true_iff.1 hr
      exact (ihy hstarts).imp fun _ => .andThen (derives_nil hnullable)
  | either x y ihx ihy =>
    rcases Bool.or_eq_true_iff.1 hx with hl | hr
    · exact (ihx hl).imp fun _ => .left
    · exact (ihy hr).imp fun _ => .right
  | repeated x ih =>
    refine (ih hx).imp fun ks hks => ?_
    rw [← List.append_nil ks]
    exact .again hks .stop

/-- A kind that begins a form goes on to a sentence of it. -/
theorem Ebnf.viable_of_begins {x : Ebnf} {kind : TokenKind} (h : x.begins kind) :
    Viable x [kind] := by
  have hdepth : ∀ depth (n : Nonterminal), n.startsWith kind depth → Viable (.part n) [kind] := by
    intro depth
    induction depth with
    | zero => exact fun n hn => by cases hn
    | succ depth ih => exact fun n hn => .part (viable_of_startsWith ih hn)
  exact viable_of_startsWith (hdepth 8) h

example : First.expr.all (Ebnf.part .expr).begins := by decide

end TeachLang
