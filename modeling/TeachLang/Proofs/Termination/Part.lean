import TeachLang.Proofs.Grammar.FirstSets
import TeachLang.Proofs.Grammar.Operation
import TeachLang.Proofs.Termination.Declaration

/-! # Every part of the grammar comes to an end

Wherever a cursor stands in a source, every part of the grammar is read with one unit of fuel more
than there are tokens ahead.  A part is begun exactly where one of its sentences can begin.
-/

namespace TeachLang

open TokenStream (Ends Reads)

/-- How many tokens stand behind the one in sight. -/
def Cursor.ahead (c : Cursor) : Nat := c.scanner.tokens.length

namespace Part

variable {σ α : Type} [TokenStream σ] {n fuel more : Nat} {s : σ}

/-- How a part is read with metered fuel. -/
def metered : Part α → Nat → Metered σ α
  | block => Metered.block
  | statement => Metered.statement
  | expr => Metered.expr
  | literal => fun _ => Metered.lift Grammar.literal
  | listLiteral => Metered.listLiteral
  | constantList => Metered.constantList
  | constantDecl => Metered.constantDecl
  | variableList => Metered.variableList
  | bindingDecl => Metered.bindingDecl
  | typeExpr => fun _ => Metered.lift Grammar.typeExpr
  | procedureDecl => Metered.procedureDecl
  | procedureList => Metered.procedureList
  | program => Metered.program

/-- What a part comes to that cannot begin: there may be no statements and no procedures, and all
else has to be there. -/
def Idle : Part α → Except SyntaxError α → Prop
  | block => Metered.IdleBlock
  | procedureList => Metered.IdleProcedures
  | _ => Failed

theorem settles (part : Part α) (hfuel : n < fuel) (hmore : n < more) (h : Ends n s) :
    Settles part.production.first part.Idle n (part.metered fuel) (part.production.rule more)
      s := by
  cases part with
  | block => exact Metered.block_settles hfuel hmore h
  | statement => exact Metered.statement_settles hfuel hmore h
  | expr => exact Metered.expr_settles hfuel hmore h
  | literal => exact Metered.literal_settles h
  | listLiteral => exact Metered.listLiteral_settles hfuel hmore h
  | constantList => exact Metered.constantList_settles hfuel hmore h
  | constantDecl => exact Metered.constantDecl_settles hfuel hmore h
  | variableList => exact Metered.variableList_settles hfuel hmore h
  | bindingDecl => exact Metered.bindingDecl_settles hfuel hmore h
  | typeExpr => exact Metered.typeExpr_settles h
  | procedureDecl => exact Metered.procedureDecl_settles hfuel hmore h
  | procedureList => exact Metered.procedureList_settles hfuel hmore h
  | program => exact Metered.program_settles hfuel hmore h

end Part

namespace Cursor

/-- A cursor leaves one token behind, unless there is none ahead. -/
theorem ahead_advance (c : Cursor) :
    c.advance = c ∧ c.ahead = 0 ∨ c.ahead = c.advance.ahead + 1 := by
  cases hnext : c.scanner.next? with
  | none =>
    have hc : c.advance = c := by rw [advance, hnext]
    exact .inl ⟨hc, by rw [ahead, Scanner.tokens_of_next?_none hnext]; rfl⟩
  | some next =>
    have hc : c.advance = ⟨next.2, next.1⟩ := by rw [advance, hnext]
    right
    rw [hc, ahead, Scanner.tokens_of_next? hnext]
    rfl

/-- No number of tokens is less than the one of those ahead. -/
theorem ahead_le_of_ends {n : Nat} {c : Cursor} (h : Ends n c) : c.ahead ≤ n := by
  induction h with
  | @eof n c _ hstays =>
    change c.advance = c at hstays
    rcases c.ahead_advance with ⟨-, hzero⟩ | hsucc
    · omega
    · rw [hstays] at hsucc
      omega
  | @token n c _ _ ih =>
    change c.advance.ahead ≤ n at ih
    rcases c.ahead_advance with ⟨-, hzero⟩ | hsucc <;> omega

theorem ends_ahead_of_ends {n : Nat} {c : Cursor} (h : Ends n c) : Ends c.ahead c := by
  induction h with
  | eof hkind hstays => exact .eof hkind hstays
  | @token n c hkind _ ih =>
    change Ends c.advance.ahead c.advance at ih
    rcases c.ahead_advance with ⟨hc, -⟩ | hsucc
    · rwa [hc] at ih
    · rw [hsucc]
      exact .token hkind ih

theorem ahead_lt_bound (c : Cursor) : c.ahead < TokenStream.bound c :=
  Nat.lt_succ_of_le c.scanner.length_tokens_le_bound

section

variable {source : String} {r : ListCursor (lex source)} {c : Cursor}

theorem Follows.ahead_eq (h : c.Follows r) : c.ahead = (lex source).length - (r.index + 1) := by
  rw [Cursor.ahead, h.ahead, List.length_drop]

theorem Follows.kind_eq_eof_iff (h : c.Follows r) : c.current.kind = .eof ↔ c.ahead = 0 := by
  have hlt := r.index.isLt
  have hsight : c.current = (lex source)[r.index] := h.sight
  rw [hsight, getElem_lex_kind_eq_eof_iff, h.ahead_eq]
  omega

/-- A cursor in a source comes to the end of input, and stays there. -/
theorem Follows.ends (h : c.Follows r) : Ends c.ahead c := by
  generalize hn : c.ahead = n
  induction n generalizing c r with
  | zero =>
    rcases c.ahead_advance with ⟨hstays, -⟩ | hsucc
    · exact .eof (h.kind_eq_eof_iff.2 hn) hstays
    · omega
  | succ n ih =>
    have hkind : c.current.kind ≠ .eof := mt h.kind_eq_eof_iff.1 (by omega)
    rcases c.ahead_advance with ⟨-, hzero⟩ | hsucc
    · omega
    · have hadvance : c.advance.ahead = n := by omega
      exact .token hkind (ih h.advance hadvance)

end
end Cursor

namespace Part

variable {α : Type} (part : Part α) {source : String} {r : ListCursor (lex source)} {c : Cursor}
  {n fuel : Nat}

/-- The fuel that a part is given on a cursor lasts. -/
theorem settles_parse (hfuel : n < fuel) (h : Ends n c) :
    Settles part.production.first part.Idle n (part.metered fuel) part.production.parse c := by
  -- the fuel comes from the cursor, and so it is the tokens ahead that it has to last for
  have hle := Cursor.ahead_le_of_ends h
  have hsettles := part.settles (Nat.lt_of_le_of_lt hle hfuel) c.ahead_lt_bound
    (Cursor.ends_ahead_of_ends h)
  exact (hsettles.mono hle).of_eq rfl rfl

theorem metered_eq_some (hfuel : c.ahead < fuel) (h : c.Follows r) :
    part.metered fuel c = some (part.production.parse c) :=
  ((part.settles_parse hfuel h.ends).halts h.ends).eq

theorem metered_many_eq_some (hfuel : c.ahead < fuel) (h : c.Follows r) :
    Metered.many part.production.first (part.metered fuel) fuel c =
      some (part.production.parseWhile c) := by
  have hitem : SettlesBelow (c.ahead + 1) part.production.first part.Idle
      (part.metered fuel : Metered Cursor α) part.production.parse :=
    fun m s hm hends => part.settles_parse (by omega) hends
  exact ((Settles.many hfuel c.ahead_lt_bound hitem h.ends).halts h.ends).eq

theorem ahead_lt_of_mem (h : c.Follows r) (hs : c.current.kind ∈ part.production.first) :
    (part.production.parse c).2.ahead < c.ahead := by
  obtain ⟨m, hm, hhalts⟩ := (part.settles_parse (Nat.lt_succ_self _) h.ends).takes hs
  exact Nat.lt_of_le_of_lt (Cursor.ahead_le_of_ends hhalts.ends) hm

theorem stays_of_not_mem (h : c.Follows r) (hs : c.current.kind ∉ part.production.first) :
    (part.production.parse c).2 = c ∧ part.Idle (part.production.parse c).1 :=
  ((part.settles_parse (Nat.lt_succ_self _) h.ends).stays hs).2

theorem parseOpt_eq_none_iff :
    (part.production.parseOpt c).1 = .ok none ↔ c.current.kind ∉ part.production.first := by
  rw [Production.parseOpt, Parser.opt, Parser.hasAny_bind]
  by_cases hs : c.current.kind ∈ part.production.first
  · have hsight : part.production.first.contains (TokenStream.current c).kind = true :=
      List.contains_iff_mem.2 hs
    rw [if_pos hsight, Parser.bind_apply]
    refine ⟨fun hnone => ?_, fun hnot => absurd hs hnot⟩
    rcases hresult : part.production.parse c with ⟨e | a, left⟩ <;> rw [hresult] at hnone
    all_goals cases hnone
  · have hsight : ¬part.production.first.contains (TokenStream.current c).kind = true :=
      mt List.contains_iff_mem.1 hs
    rw [if_neg hsight]
    exact ⟨fun _ => hs, fun _ => rfl⟩

/-- What is read are the tokens that come into sight one after the other. -/
theorem exists_reads (h : c.Follows r) : ∃ w, Reads c w (part.production.parse c).2 := by
  obtain ⟨w, hw⟩ := part.predictive (τ := Cursor) (Nat.zero_le _) (Nat.le_refl _) c h.legible
  exact ⟨w, hw.reads⟩

theorem exists_reads_of_mem (h : c.Follows r) (hs : c.current.kind ∈ part.production.first) :
    ∃ w, Reads c (c.current :: w) (part.production.parse c).2 := by
  obtain ⟨w, hw⟩ := part.exists_reads h
  cases w with
  | nil =>
    have hlt := part.ahead_lt_of_mem h hs
    rw [← TokenStream.reads_nil.1 hw] at hlt
    exact absurd hlt (Nat.lt_irrefl _)
  | cons t w =>
    obtain ⟨rfl, hrest⟩ := TokenStream.reads_cons.1 hw
    exact ⟨w, rfl, hrest⟩

end Part

/-- First sets are exact, and reading ends.  Wherever in a source some operations leave a cursor, no
part of the grammar runs out of fuel, read once or again and again, if there is more of it than
tokens ahead.  Nothing is read if the token in sight is of no kind in the first set; if it is, that
token is read, and there are fewer ahead, even if the part fails further on.  A part that may be
missing is missing exactly where none of its sentences can begin. -/
theorem parse_halts_by_first {α : Type} (part : Part α) (source : String)
    (ops : List (Σ α : Type, Operation α)) :
    let c := Operation.runAll ops (Cursor.ofSource source)
    let outcome := part.production.parse c
    (∀ fuel > c.ahead, part.metered fuel c = some outcome ∧
      Metered.many part.production.first (part.metered fuel) fuel c =
        some (part.production.parseWhile c)) ∧
    (c.current.kind ∉ part.production.first → outcome.2 = c ∧ part.Idle outcome.1) ∧
    (c.current.kind ∈ part.production.first →
      outcome.2.ahead < c.ahead ∧ ∃ w, Reads c (c.current :: w) outcome.2) ∧
    ((part.production.parseOpt c).1 = .ok none ↔ ¬ Viable part.form [c.current.kind]) ∧
    ∀ kind, kind ∈ part.production.first ↔ Viable part.form [kind] := by
  intro c outcome
  have h := Operation.follows_runAll ops (Cursor.follows_ofSource source)
  refine ⟨fun fuel hfuel => ⟨part.metered_eq_some hfuel h, part.metered_many_eq_some hfuel h⟩,
    part.stays_of_not_mem h, fun hs => ⟨part.ahead_lt_of_mem h hs, part.exists_reads_of_mem h hs⟩,
    ?_, part.mem_first_iff⟩
  rw [part.parseOpt_eq_none_iff, part.mem_first_iff]

end TeachLang
