import TeachLang.Proofs.Text.Bytes

/-! # Spans of one source

The spans that come from ranges of a source, from its end, and from joins, where a join takes any two
spans that are there already.  All of them have both ends in the source, between two characters.
A join takes the start of its left span and the end of its right span without a look at their
order, so it can run backward, and then its text cannot be cut out of the source.  It runs forward if
the left span starts no later than the right one ends, and covers both of them if neither end of the
left one lies behind that of the right one.
-/

namespace TeachLang

/-! ## Boundaries -/

/-- Boundaries are the offsets at which a text can be split. -/
theorem isBoundary_iff {cs : List Char} {offset : Nat} :
    isBoundary cs offset ↔ ∃ before after, cs = before ++ after ∧ byteCount before = offset := by
  constructor
  · intro h
    induction cs generalizing offset with
    | nil =>
      cases offset with
      | zero => exact ⟨[], [], rfl, rfl⟩
      | succ offset => cases h
    | cons c cs ih =>
      cases offset with
      | zero => exact ⟨[], c :: cs, rfl, rfl⟩
      | succ offset =>
        simp only [isBoundary, Bool.and_eq_true, decide_eq_true_eq] at h
        obtain ⟨before, after, rfl, hbytes⟩ := ih h.2
        refine ⟨c :: before, after, rfl, ?_⟩
        rw [byteCount_cons, hbytes]
        omega
  · rintro ⟨before, after, rfl, rfl⟩
    exact isBoundary_append before after

theorem le_byteCount_of_isBoundary {cs : List Char} {offset : Nat} (h : isBoundary cs offset) :
    offset ≤ byteCount cs := by
  obtain ⟨before, after, rfl, rfl⟩ := isBoundary_iff.1 h
  rw [byteCount_append]
  exact Nat.le_add_right _ _

/-- Two boundaries split a text into three parts. -/
theorem exists_split_of_isBoundary {cs : List Char} {start stop : Nat} (hstart : isBoundary cs start)
    (hstop : isBoundary cs stop) (hle : start ≤ stop) : ∃ before text after,
      cs = before ++ (text ++ after) ∧ byteCount before = start ∧
        byteCount before + byteCount text = stop := by
  obtain ⟨before, rest, hsplit, rfl⟩ := isBoundary_iff.1 hstart
  obtain ⟨upTo, after, hsplit', rfl⟩ := isBoundary_iff.1 hstop
  rcases List.append_eq_append_iff.1 (hsplit.symm.trans hsplit') with
    ⟨text, rfl, rfl⟩ | ⟨text, rfl, rfl⟩
  · exact ⟨before, text, after, hsplit, rfl, (byteCount_append before text).symm⟩
  · -- the second boundary would come first, so nothing stands between the two
    rw [byteCount_append] at hle
    have htext : text = [] := by
      by_contra hne
      have hpos := byteCount_pos hne
      omega
    subst htext
    exact ⟨upTo, [], rest, by simpa using hsplit, by simp, by simp⟩

namespace Span

/-- The text that a span covers, if its range is a range of its source. -/
def text? (s : Span) : Option String := (new? s.source s.start s.stop).map text

/-- Both ends lie in the source and stand between two characters. -/
structure Placed (s : Span) : Prop where
  start_le : s.start ≤ s.source.utf8ByteSize
  stop_le : s.stop ≤ s.source.utf8ByteSize
  start_isBoundary : isBoundary s.source.toList s.start
  stop_isBoundary : isBoundary s.source.toList s.stop

/-- A placed span that runs forward. -/
structure Good (s : Span) : Prop extends Placed s where
  forward : s.start ≤ s.stop

/-- A span of the same source lies inside of another. -/
structure Covers (s inner : Span) : Prop where
  source_eq : inner.source = s.source
  start_le : s.start ≤ inner.start
  le_stop : inner.stop ≤ s.stop

theorem Covers.refl (s : Span) : s.Covers s := ⟨rfl, Nat.le_refl _, Nat.le_refl _⟩

variable {source : String} {s l r : Span}

theorem Placed.of_isBoundary (hstart : isBoundary s.source.toList s.start)
    (hstop : isBoundary s.source.toList s.stop) : s.Placed where
  start_le := byteCount_toList s.source ▸ le_byteCount_of_isBoundary hstart
  stop_le := byteCount_toList s.source ▸ le_byteCount_of_isBoundary hstop
  start_isBoundary := hstart
  stop_isBoundary := hstop

theorem Placed.good_iff (h : s.Placed) : s.Good ↔ s.start ≤ s.stop :=
  ⟨Good.forward, fun hforward => ⟨h, hforward⟩⟩

/-! ## Ranges, ends and joins -/

/-- A range is taken exactly if it is that of a good span. -/
theorem new?_eq_some_iff {start stop : Nat} :
    new? source start stop = some s ↔ s = ⟨source, start, stop⟩ ∧ s.Good := by
  unfold new?
  constructor
  · intro h
    split at h
    next hrange =>
      cases h
      simp only [Bool.and_eq_true, decide_eq_true_eq] at hrange
      obtain ⟨⟨hforward, hstart⟩, hstop⟩ := hrange
      exact ⟨rfl, .of_isBoundary hstart hstop, hforward⟩
    next => cases h
  · rintro ⟨rfl, hgood⟩
    rw [if_pos]
    simp only [Bool.and_eq_true, decide_eq_true_eq]
    exact ⟨⟨hgood.forward, hgood.start_isBoundary⟩, hgood.stop_isBoundary⟩

/-- The text of a span can be cut out exactly if the span is good. -/
theorem text?_eq_some_iff : s.text? = some s.text ↔ s.Good := by
  rw [text?, Option.map_eq_some_iff]
  constructor
  · rintro ⟨made, h, -⟩
    obtain ⟨rfl, hgood⟩ := new?_eq_some_iff.1 h
    exact hgood
  · exact fun hgood => ⟨s, new?_eq_some_iff.2 ⟨rfl, hgood⟩, rfl⟩

/-- The text of a good span stands in the source between what its ends leave out. -/
theorem Good.exists_split (h : s.Good) : ∃ before after : List Char,
    s.source.toList = before ++ (s.text.toList ++ after) ∧ byteCount before = s.start ∧
      byteCount before + byteCount s.text.toList = s.stop := by
  obtain ⟨source, start, stop⟩ := s
  obtain ⟨before, text, after, hsource, rfl, rfl⟩ :=
    exists_split_of_isBoundary h.start_isBoundary h.stop_isBoundary h.forward
  rw [Span.text, chars_eq hsource, String.toList_ofList]
  exact ⟨before, after, hsource, rfl, rfl⟩

theorem good_endOf (source : String) : (endOf source).Good := by
  have hend : isBoundary source.toList source.utf8ByteSize :=
    isBoundary_iff.2 ⟨source.toList, [], (List.append_nil _).symm, byteCount_toList source⟩
  exact ⟨.of_isBoundary hend hend, Nat.le_refl _⟩

theorem join?_eq (h : l.source = r.source) : l.join? r = some ⟨l.source, l.start, r.stop⟩ :=
  if_pos h

theorem join?_eq_some_iff :
    l.join? r = some s ↔ l.source = r.source ∧ s = ⟨l.source, l.start, r.stop⟩ := by
  unfold join?
  split
  next heq => simp [heq, eq_comm]
  next hne => simp [hne]

theorem Placed.join (hl : l.Placed) (hr : r.Placed) (h : l.source = r.source) :
    Placed ⟨l.source, l.start, r.stop⟩ :=
  .of_isBoundary hl.start_isBoundary (h ▸ hr.stop_isBoundary)

/-! ## Spans that are made one from the other -/

/-- The spans over a source that come from its ranges, from its end, and from joins of pairs that
`joins` lets through, as often as one likes. -/
inductive Made (source : String) (joins : Span → Span → Prop) : Span → Prop
  | range {start stop : Nat} {s : Span} (h : new? source start stop = some s) :
      Made source joins s
  | atEnd : Made source joins (endOf source)
  | joined {l r s : Span} (hl : Made source joins l) (hr : Made source joins r) (h : joins l r)
      (hs : l.join? r = some s) : Made source joins s

variable {joins : Span → Span → Prop}

/-- Ranges, ends and joins of any pairs keep both ends between characters of the one source. -/
theorem Made.placed (h : Made source joins s) : s.source = source ∧ s.Placed := by
  induction h with
  | range h =>
    obtain ⟨rfl, hgood⟩ := new?_eq_some_iff.1 h
    exact ⟨rfl, hgood.toPlaced⟩
  | atEnd => exact ⟨rfl, (good_endOf source).toPlaced⟩
  | joined _ _ _ hs ihl ihr =>
    obtain ⟨hsource, rfl⟩ := join?_eq_some_iff.1 hs
    exact ⟨ihl.1, ihl.2.join ihr.2 hsource⟩

/-- Where all joins start no later than they end, all spans are good. -/
theorem Made.good (hjoins : ∀ l r, joins l r → l.start ≤ r.stop) (h : Made source joins s) :
    s.Good := by
  refine h.placed.2.good_iff.2 ?_
  -- the last step alone decides on the direction, so there is no induction here
  cases h with
  | range h => exact (new?_eq_some_iff.1 h).2.forward
  | atEnd => exact (good_endOf source).forward
  | @joined l r _ _ _ h hs =>
    obtain ⟨-, rfl⟩ := join?_eq_some_iff.1 hs
    exact hjoins l r h

/-- Any two spans over one source have a join. -/
theorem Made.exists_join (hl : Made source joins l) (hr : Made source joins r) :
    ∃ j, l.join? r = some j ∧ j.source = source ∧ j.Placed ∧ (j.Good ↔ l.start ≤ r.stop) ∧
      (j.Covers l ∧ j.Covers r ↔ l.start ≤ r.start ∧ l.stop ≤ r.stop) := by
  obtain ⟨hsource, hplaced⟩ := hl.placed
  obtain ⟨hsource', hplaced'⟩ := hr.placed
  have heq : l.source = r.source := hsource.trans hsource'.symm
  have hjoin := hplaced.join hplaced' heq
  refine ⟨_, join?_eq heq, hsource, hjoin, hjoin.good_iff, ?_⟩
  constructor
  · rintro ⟨hcovers, hcovers'⟩
    exact ⟨hcovers'.start_le, hcovers.le_stop⟩
  · rintro ⟨hstart, hstop⟩
    exact ⟨⟨rfl, Nat.le_refl _, hstop⟩, ⟨heq.symm, hstart, Nat.le_refl _⟩⟩

/-- What holds of all spans over one source, whatever pairs are joined on the way.  A span has both
ends in the source, between two characters; it is good exactly if it does not run backward, and
exactly then its text can be cut out of the source.  Any two spans have a join, which is good exactly
if the left one starts no later than the right one ends, and covers both exactly if neither end of
the left one lies behind that of the right one.  If all joins on the way start no later than they
end, all spans are good. -/
theorem made_good_iff (source : String) (joins : Span → Span → Prop) :
    (∀ s, Made source joins s → s.source = source ∧ s.Placed ∧ (s.Good ↔ s.start ≤ s.stop) ∧
      (s.text? = some s.text ↔ s.Good) ∧
      (s.Good → ∃ before after, source.toList = before ++ (s.text.toList ++ after) ∧
        byteCount before = s.start ∧ byteCount before + byteCount s.text.toList = s.stop)) ∧
    (∀ l r, Made source joins l → Made source joins r →
      ∃ j, l.join? r = some j ∧ j.source = source ∧ j.Placed ∧ (j.Good ↔ l.start ≤ r.stop) ∧
        (j.Covers l ∧ j.Covers r ↔ l.start ≤ r.start ∧ l.stop ≤ r.stop)) ∧
    ((∀ l r, joins l r → l.start ≤ r.stop) → ∀ s, Made source joins s → s.Good) := by
  refine ⟨fun s hs => ?_, fun l r hl hr => hl.exists_join hr, fun hjoins s hs => hs.good hjoins⟩
  obtain ⟨hsource, hplaced⟩ := hs.placed
  exact ⟨hsource, hplaced, hplaced.good_iff, text?_eq_some_iff, fun h => hsource ▸ h.exists_split⟩

def spannedText : String := "é := 日;"

/-- A join that is joined on: from the `é` to the `日`, and from there to the end of the text. -/
theorem made_good_iff_nested :
    Made spannedText (fun l r => l.start ≤ r.stop) ⟨spannedText, 0, 10⟩ ∧
    Good ⟨spannedText, 0, 10⟩ ∧ text? ⟨spannedText, 0, 10⟩ = some spannedText ∧
    Covers ⟨spannedText, 0, 10⟩ ⟨spannedText, 0, 9⟩ ∧
    Covers ⟨spannedText, 0, 10⟩ (endOf spannedText) := by
  set joins : Span → Span → Prop := fun l r => l.start ≤ r.stop with hjoins
  have hletter : Made spannedText joins ⟨spannedText, 0, 2⟩ :=
    .range (by decide +kernel : new? spannedText 0 2 = some _)
  have hvalue : Made spannedText joins ⟨spannedText, 6, 9⟩ :=
    .range (by decide +kernel : new? spannedText 6 9 = some _)
  have hboth : Made spannedText joins ⟨spannedText, 0, 9⟩ :=
    .joined hletter hvalue (by simp [hjoins]) rfl
  have hall : Made spannedText joins ⟨spannedText, 0, 10⟩ :=
    .joined hboth .atEnd (by simp [hjoins]) (by decide +kernel)
  obtain ⟨hspan, hjoin, hgood⟩ := made_good_iff spannedText joins
  obtain ⟨j, hj, -, -, -, hcovers⟩ := hjoin _ _ hboth .atEnd
  have hjoined : j = ⟨spannedText, 0, 10⟩ := (join?_eq_some_iff.1 hj).2
  subst hjoined
  have hgoodAll := hgood (fun _ _ h => h) _ hall
  have htext := (hspan _ hall).2.2.2.1.2 hgoodAll
  obtain ⟨hfirst, hlast⟩ := hcovers.2 (by decide +kernel)
  exact ⟨hall, hgoodAll, htext.trans (by decide +kernel), hfirst, hlast⟩

/-- Where any pairs are joined, the join from the `日` back to the `é` runs backward and has no text,
and the join of a span with one at its start does not cover the first of the two. -/
theorem joined_backward_and_inward :
    Made spannedText (fun _ _ => True) ⟨spannedText, 6, 2⟩ ∧
    join? ⟨spannedText, 6, 9⟩ ⟨spannedText, 0, 2⟩ = some ⟨spannedText, 6, 2⟩ ∧
    ¬ Good ⟨spannedText, 6, 2⟩ ∧ text? ⟨spannedText, 6, 2⟩ = none ∧
    Made spannedText (fun _ _ => True) ⟨spannedText, 0, 9⟩ ∧
    join? ⟨spannedText, 0, 9⟩ ⟨spannedText, 0, 2⟩ = some ⟨spannedText, 0, 2⟩ ∧
    ¬ Covers ⟨spannedText, 0, 2⟩ ⟨spannedText, 0, 9⟩ := by
  have hletter : Made spannedText (fun _ _ => True) ⟨spannedText, 0, 2⟩ :=
    .range (by decide +kernel : new? spannedText 0 2 = some _)
  have hvalue : Made spannedText (fun _ _ => True) ⟨spannedText, 6, 9⟩ :=
    .range (by decide +kernel : new? spannedText 6 9 = some _)
  refine ⟨.joined hvalue hletter trivial rfl, rfl, fun h => ?_, by decide +kernel,
    .joined hletter hvalue trivial rfl, rfl, fun h => ?_⟩
  · exact absurd h.forward (by decide)
  · exact absurd h.le_stop (by decide)

end Span
end TeachLang
