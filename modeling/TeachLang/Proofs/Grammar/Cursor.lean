import TeachLang.Proofs.Grammar.Predictive
import TeachLang.Proofs.Grammar.Source

/-! # Cursors and lists

A cursor that scans a source on demand follows an index into the list of all its tokens: the token
in sight is the one at the index, and the scanner has produced the tokens up to that one and no
other.  Whatever one of the two comes past, the other one comes past as well.
-/

namespace TeachLang

open TokenStream (Reads reads_nil reads_cons)

/-- A scanner produces some tokens, one after the other, and becomes another scanner. -/
inductive Scanner.Scans : Scanner → List Token → Scanner → Prop
  | done {s : Scanner} : Scans s [] s
  | more {s m left : Scanner} {t : Token} {ts : List Token} (step : s.next? = some (t, m))
      (rest : Scans m ts left) : Scans s (t :: ts) left

theorem Scanner.Scans.concat {s m left : Scanner} {t : Token} {ts : List Token} (h : Scans s ts m)
    (step : m.next? = some (t, left)) : Scans s (ts ++ [t]) left := by
  induction h with
  | done => exact .more step .done
  | more hstep _ ih => exact .more hstep (ih step)

/-- An index into a list of tokens, as a stream: the token there is in sight, and the last one
stays in sight. -/
structure ListCursor (tokens : List Token) where
  index : Fin tokens.length

namespace ListCursor

variable {tokens : List Token}

def current (c : ListCursor tokens) : Token := tokens[c.index]

def advance (c : ListCursor tokens) : ListCursor tokens :=
  if h : c.index.val + 1 < tokens.length then ⟨c.index + 1, h⟩ else c

instance : TokenStream (ListCursor tokens) where
  current := current
  advance := advance
  bound c := tokens.length - c.index

theorem index_advance (c : ListCursor tokens) : c.index ≤ c.advance.index := by
  rw [advance]
  split
  · exact Nat.le_succ _
  · exact Nat.le_refl _

/-- The index never decreases. -/
theorem le_of_reads {c left : ListCursor tokens} {w : List Token} (h : Reads c w left) :
    c.index ≤ left.index := by
  induction w generalizing c with
  | nil =>
    obtain rfl := reads_nil.1 h
    exact Nat.le_refl _
  | cons t w ih => exact Nat.le_trans c.index_advance (ih h.2)

end ListCursor

section

variable {source : String}

theorem lex_length_pos (source : String) : 0 < (lex source).length := by
  rw [lex_eq_cons]
  exact Nat.succ_pos _

/-- The end of input is the last token of a source. -/
theorem getElem_lex_kind_eq_eof_iff (i : Fin (lex source).length) :
    (lex source)[i].kind = .eof ↔ i.val + 1 = (lex source).length := by
  obtain ⟨w, eof, hlex, heof, hall⟩ := exists_lex_eq source
  have hlength : (lex source).length = w.length + 1 := by simp [hlex]
  have hi := i.isLt
  rcases Nat.lt_or_ge i w.length with hlt | hge
  · have hmem : (lex source)[i] ∈ w := by
      simp [hlex, List.getElem_append_left hlt]
    have hne := (hall _ hmem).1
    exact ⟨fun h => absurd h hne, fun h => by omega⟩
  · have hindex : i.val = w.length := by omega
    have hlast : (lex source)[i] = eof := by
      simp [hlex, hindex]
    rw [hlast]
    exact ⟨fun _ => by omega, fun _ => heof⟩

namespace ListCursor

def start (source : String) : ListCursor (lex source) := ⟨0, lex_length_pos source⟩

variable {r left : ListCursor (lex source)} {w : List Token}

theorem index_advance_of_ne_eof (h : r.current.kind ≠ .eof) :
    r.advance.index.val = r.index + 1 := by
  have hlt : r.index.val + 1 < (lex source).length := by
    have hi := r.index.isLt
    have hne := mt (getElem_lex_kind_eq_eof_iff r.index).2 h
    omega
  rw [advance, dif_pos hlt]

theorem index_advance_of_reads {t : Token} (h : Reads r (t :: w) left)
    (heof : .eof ∉ kinds (t :: w)) :
    (TokenStream.advance r).index.val = r.index + 1 ∧ .eof ∉ kinds w := by
  rw [kinds, List.map_cons, List.mem_cons, not_or] at heof
  refine ⟨index_advance_of_ne_eof fun hkind => heof.1 ?_, heof.2⟩
  rw [← (reads_cons.1 h).1]
  exact hkind.symm

/-- As long as the end of input is not read, the index counts the tokens that are. -/
theorem index_of_reads (h : Reads r w left) (heof : .eof ∉ kinds w) :
    left.index.val = r.index + w.length := by
  induction w generalizing r with
  | nil =>
    obtain rfl := reads_nil.1 h
    rfl
  | cons t w ih =>
    obtain ⟨hadvance, hrest⟩ := index_advance_of_reads h heof
    have hindex := ih h.2 hrest
    rw [List.length_cons]
    omega

/-- Tokens that are read in front of the end of input are next to each other in the source. -/
theorem prefix_of_reads (h : Reads r w left) (heof : .eof ∉ kinds w) :
    w <+: (lex source).drop r.index := by
  induction w generalizing r with
  | nil => exact List.nil_prefix
  | cons t w ih =>
    obtain ⟨hadvance, hrest⟩ := index_advance_of_reads h heof
    have hnext := ih h.2 hrest
    rw [hadvance] at hnext
    rw [List.drop_eq_getElem_cons r.index.isLt]
    exact List.cons_prefix_cons.2 ⟨h.1.symm, hnext⟩

theorem legible (r : ListCursor (lex source)) : TokenStream.Legible r := fun _ left _ =>
  isLegible_of_mem_lex (List.getElem_mem left.index.isLt)

end ListCursor

namespace Cursor

/-- A cursor is at the token of a source that an index points to: its scanner has produced the
tokens up to that one, and what it goes on to produce is behind. -/
structure Follows (c : Cursor) (r : ListCursor (lex source)) : Prop where
  sight : c.current = (lex source)[r.index]
  scanned : (Scanner.ofSource source).Scans ((lex source).take (r.index + 1)) c.scanner
  ahead : c.scanner.tokens = (lex source).drop (r.index + 1)

theorem follows_ofSource (source : String) : (ofSource source).Follows (.start source) := by
  have hnext : (Scanner.ofSource source).next? = some (Scanner.ofSource source).step := rfl
  have hlex := lex_eq_cons source
  have htake : (lex source).take (0 + 1) = [(Scanner.ofSource source).step.1] := by
    rw [hlex, List.take_succ_cons, List.take_zero]
  refine ⟨?_, ?_, ?_⟩
  · simp [ofSource, ListCursor.start, hlex]
  · change Scanner.Scans _ ((lex source).take (0 + 1)) _
    rw [htake]
    exact .more hnext .done
  · simp [ofSource, ListCursor.start, hlex]

namespace Follows

variable {c : Cursor} {r : ListCursor (lex source)}

theorem current_eq (h : c.Follows r) : TokenStream.current c = TokenStream.current r := h.sight

/-- One token further, unless there is none. -/
theorem advance (h : c.Follows r) : c.advance.Follows r.advance := by
  cases hnext : c.scanner.next? with
  | none =>
    have hahead := h.ahead
    rw [Scanner.tokens_of_next?_none hnext, eq_comm, List.drop_eq_nil_iff] at hahead
    have hc : c.advance = c := by rw [Cursor.advance, hnext]
    have hr : r.advance = r := dif_neg (Nat.not_lt.2 hahead)
    rwa [hc, hr]
  | some next =>
    obtain ⟨t, m⟩ := next
    have hahead := h.ahead
    rw [Scanner.tokens_of_next? hnext] at hahead
    have hlt : r.index.val + 1 < (lex source).length := by
      by_contra hge
      rw [List.drop_eq_nil_of_le (Nat.le_of_not_lt hge)] at hahead
      cases hahead
    rw [List.drop_eq_getElem_cons hlt] at hahead
    obtain ⟨ht, htokens⟩ := List.cons.inj hahead
    have hc : c.advance = ⟨m, t⟩ := by rw [Cursor.advance, hnext]
    have hr : r.advance = ⟨⟨r.index + 1, hlt⟩⟩ := dif_pos hlt
    rw [hc, hr]
    refine ⟨ht, ?_, htokens⟩
    have hscans := h.scanned.concat hnext
    rwa [ht, ← List.take_succ_eq_append_getElem hlt] at hscans

/-- Whatever comes into sight behind the index comes into sight behind the cursor. -/
theorem reads (h : c.Follows r) {w : List Token} {left : ListCursor (lex source)}
    (hw : Reads r w left) : ∃ left' : Cursor, Reads c w left' ∧ left'.Follows left := by
  induction w generalizing c r with
  | nil =>
    obtain rfl := reads_nil.1 hw
    exact ⟨c, rfl, h⟩
  | cons t w ih =>
    obtain ⟨left', hreads, hleft⟩ := ih h.advance hw.2
    exact ⟨left', ⟨h.sight.trans hw.1, hreads⟩, hleft⟩

/-- What comes into sight behind a cursor comes into sight behind the index that it follows. -/
theorem exists_reads (h : c.Follows r) {w : List Token} {left : Cursor} (hw : Reads c w left) :
    ∃ left' : ListCursor (lex source), Reads r w left' := by
  induction w generalizing c r with
  | nil => exact ⟨r, rfl⟩
  | cons t w ih =>
    obtain ⟨left', hreads⟩ := ih h.advance hw.2
    exact ⟨left', h.sight.symm.trans hw.1, hreads⟩

theorem exists_follows_of_reads (h : c.Follows r) {w : List Token} {left : Cursor}
    (hw : Reads c w left) : ∃ left' : ListCursor (lex source), left.Follows left' := by
  induction w generalizing c r with
  | nil =>
    obtain rfl := reads_nil.1 hw
    exact ⟨r, h⟩
  | cons t w ih => exact ih h.advance hw.2

/-- A cursor can go on for as long as there are tokens behind the index. -/
theorem bound_le (h : c.Follows r) : TokenStream.bound r ≤ TokenStream.bound c := by
  have hlength := c.scanner.length_tokens_le_bound
  rw [h.ahead, List.length_drop] at hlength
  change (lex source).length - r.index ≤ c.scanner.bound + 1
  omega

end Follows

theorem Follows.legible {c : Cursor} {r : ListCursor (lex source)} (h : c.Follows r) :
    TokenStream.Legible c := by
  intro w left hw
  obtain ⟨r, hr⟩ := h.exists_follows_of_reads hw
  change left.current.isLegible
  rw [hr.sight]
  exact isLegible_of_mem_lex (List.getElem_mem r.index.isLt)

theorem legible_ofSource (source : String) : TokenStream.Legible (ofSource source) :=
  (follows_ofSource source).legible

end Cursor

end

end TeachLang
