import TeachLang.Proofs.Grammar.Part

/-! # Operations of a parser

Everything that can be asked of a parser, from one token to whole parts of the grammar, over and
over and whatever fails in between.  A cursor that scans a source only as it goes is an index into
the list of all tokens.
-/

namespace TeachLang

/-- What a parser can be asked for, by what it yields. -/
inductive Operation : Type → Type 1
  | advance : Operation Token
  | has (kind : TokenKind) : Operation Bool
  | hasAny (kinds : List TokenKind) : Operation Bool
  | take (kind : TokenKind) : Operation (Option Token)
  | takeAny (kinds : List TokenKind) : Operation (Option Token)
  | expect (kind : TokenKind) : Operation Token
  | expectAny (kinds : List TokenKind) : Operation Token
  | parse {α : Type} (part : Part α) : Operation α
  | parseOpt {α : Type} (part : Part α) : Operation (Option α)
  | parseWhile {α : Type} (part : Part α) : Operation (List α)

namespace Operation

variable {σ : Type} [TokenStream σ] {α : Type}

def run : Operation α → Parser σ α
  | advance => Parser.advance
  | has kind => Parser.has kind
  | hasAny kinds => Parser.hasAny kinds
  | take kind => Parser.take? kind
  | takeAny kinds => Parser.takeAny? kinds
  | expect kind => Parser.expect kind
  | expectAny kinds => Parser.expectAny kinds
  | parse part => part.production.parse
  | parseOpt part => part.production.parseOpt
  | parseWhile part => part.production.parseWhile

/-- The stream that some operations leave, one after the other; none of them keeps the next one
from being run, whatever its result. -/
def runAll (ops : List (Σ α : Type, Operation α)) (s : σ) : σ :=
  ops.foldl (fun s op => (op.2.run s).2) s

/-- The results that tell that a single token which was asked for is not in sight. -/
inductive Misses : {α : Type} → Operation α → Except SyntaxError α → Prop
  | take (kind : TokenKind) : Misses (.take kind) (.ok none)
  | takeAny (kinds : List TokenKind) : Misses (.takeAny kinds) (.ok none)
  | expect (kind : TokenKind) (e : SyntaxError) : Misses (.expect kind) (.error e)
  | expectAny (kinds : List TokenKind) (e : SyntaxError) : Misses (.expectAny kinds) (.error e)

/-- Where a token is missed, the stream stays. -/
theorem Misses.run_eq {op : Operation α} {s : σ} (h : op.Misses (op.run s).1) :
    (op.run s).2 = s := by
  generalize hresult : (op.run s).1 = result at h
  cases h with
  | take kind =>
    rw [run, Parser.take?_apply] at hresult ⊢
    split at hresult
    · cases hresult
    · rw [if_neg ‹_›]
  | takeAny kinds =>
    rw [run, Parser.takeAny?_apply] at hresult ⊢
    split at hresult
    · cases hresult
    · rw [if_neg ‹_›]
  | expect kind e =>
    by_cases hs : (TokenStream.current s).kind = kind
    · rw [run, Parser.expect_eq_ok.2 ⟨hs, TokenStream.reads_advance s⟩] at hresult
      cases hresult
    · rw [run, Parser.expect_of_ne hs]
      rfl
  | expectAny kinds e =>
    by_cases hs : (TokenStream.current s).kind ∈ kinds
    · rw [run, Parser.expectAny_eq_ok.2 ⟨hs, TokenStream.reads_advance s⟩] at hresult
      cases hresult
    · rw [run, Parser.expectAny_of_not_mem hs]
      rfl

theorem runAll_concat (ops : List (Σ α : Type, Operation α)) (op : Operation α) (s : σ) :
    runAll (ops ++ [⟨α, op⟩]) s = (op.run (runAll ops s)).2 := by
  rw [runAll, List.foldl_append]
  rfl

section

variable {source : String}

theorem along (op : Operation α) {c : Cursor} {r : ListCursor (lex source)} (h : c.Follows r) :
    Parser.Along r (op.run r) (op.run c) := by
  cases op with
  | advance => exact .advance h
  | has kind => exact .has h
  | hasAny kinds => exact .hasAny h
  | take kind => exact .take? h
  | takeAny kinds => exact .takeAny? h
  | expect kind => exact .expect h
  | expectAny kinds => exact .expectAny h
  | parse part => exact part.along h
  | parseOpt part => exact part.along_opt h
  | parseWhile part => exact part.along_while h

theorem follows_runAll (ops : List (Σ α : Type, Operation α)) {c : Cursor}
    {r : ListCursor (lex source)} (h : c.Follows r) : (runAll ops c).Follows (runAll ops r) := by
  induction ops generalizing c r with
  | nil => exact h
  | cons op ops ih => exact ih (op.2.along h).follows

/-- An operation of a cursor at a token of a source, by the indices of the token and of the one that
it leaves in sight: the operation does the same on the list of all tokens, never goes back or past
the end of input, stays where it misses a token, and reports the token that is left in sight and
none that was read. -/
structure Moves (op : Operation α) (c : Cursor) (i j : Fin (lex source).length) : Prop where
  agrees : op.run (⟨i⟩ : ListCursor (lex source)) = ((op.run c).1, ⟨j⟩)
  forward : i ≤ j
  ends : (lex source)[i].kind = .eof → j = i
  misses : op.Misses (op.run c).1 → j = i
  found : ∀ e, (op.run c).1 = .error e →
    e.found = (lex source)[j] ∧ e.found = (op.run c).2.current ∧ e.found ∉ (lex source).take j

theorem moves (op : Operation α) {c : Cursor} {r : ListCursor (lex source)} (h : c.Follows r) :
    op.Moves c r.index (op.run r).2.index := by
  obtain ⟨hresult, hfollows, hforward, hfound⟩ := op.along h
  refine ⟨by rw [hresult], hforward, fun hkind => ?_, fun hmisses => ?_, fun e he => ?_⟩
  · have hlast := (getElem_lex_kind_eq_eof_iff r.index).1 hkind
    have hlt := (op.run r).2.index.isLt
    have hle : r.index.val ≤ (op.run r).2.index := hforward
    exact Fin.ext (by omega)
  · rw [hresult] at hmisses
    rw [hmisses.run_eq]
  · rw [hresult] at he
    have hsight : e.found = (lex source)[(op.run r).2.index] := hfound e he
    refine ⟨hsight, hsight.trans hfollows.sight.symm, fun hmem => ?_⟩
    -- the tokens of a source are all different, so that none in front of the index is the same
    obtain ⟨k, hk, hkfound⟩ := List.mem_take_iff_getElem.1 hmem
    have hunique := lex_index_unique (List.getElem?_eq_some_iff.2 ⟨_, hkfound⟩)
      (List.getElem?_eq_some_iff.2 ⟨_, hsight.symm⟩)
    omega

/-- The tokens that are read one at a time while a source is scanned are those of the whole list.
Whatever is asked for, in whatever order and however often it fails, there is always an index into
the list of all tokens, at first of the first one, such that the token in sight is the one at the
index, the scanner has produced the tokens up to that one and no other, and the next operation does
what it does on the list. -/
theorem cursor_along_lex (source : String) :
    ∃ index : List (Σ α : Type, Operation α) → Fin (lex source).length, (index []).val = 0 ∧
      ∀ ops : List (Σ α : Type, Operation α),
        let c := runAll ops (Cursor.ofSource source)
        c.current = (lex source)[index ops] ∧
          (Scanner.ofSource source).Scans ((lex source).take (index ops + 1)) c.scanner ∧
          ∀ {α : Type} (op : Operation α), op.Moves c (index ops) (index (ops ++ [⟨α, op⟩])) := by
  refine ⟨fun ops => (runAll ops (ListCursor.start source)).index, rfl, fun ops => ?_⟩
  have hfollows := follows_runAll ops (Cursor.follows_ofSource source)
  refine ⟨hfollows.sight, hfollows.scanned, fun op => ?_⟩
  dsimp only
  rw [runAll_concat]
  exact op.moves hfollows

end
end Operation

end TeachLang
