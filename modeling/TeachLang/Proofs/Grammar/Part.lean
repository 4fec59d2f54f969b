import TeachLang.Proofs.Grammar.Cursor
import TeachLang.Proofs.Grammar.EarliestError

/-! # Parts of the grammar on cursors

Every part of the grammar that can be asked for is read predictively, so that a cursor which scans a
source only as it goes reads what is read off the list of all tokens.  Each primitive parser goes
along with itself on the list, whole parts do by their forms, and parts one after the other do
because each of them takes a token.
-/

namespace TeachLang

open TokenStream (Reads)

/-- The parts of the grammar that can be asked for, by what they are read as. -/
inductive Part : Type → Type
  | block : Part Block
  | statement : Part Statement
  | expr : Part Expr
  | literal : Part Literal
  | listLiteral : Part ListLiteral
  | constantList : Part ConstantList
  | constantDecl : Part ConstantDecl
  | variableList : Part VariableList
  | bindingDecl : Part BindingDecl
  | typeExpr : Part TypeExpr
  | procedureDecl : Part ProcedureDecl
  | procedureList : Part ProcedureList
  | program : Part Program

namespace Part

variable {α : Type}

def production : Part α → Production α
  | block => .block
  | statement => .statement
  | expr => .expr
  | literal => .literal
  | listLiteral => .listLiteral
  | constantList => .constantList
  | constantDecl => .constantDecl
  | variableList => .variableList
  | bindingDecl => .bindingDecl
  | typeExpr => .typeExpr
  | procedureDecl => .procedureDecl
  | procedureList => .procedureList
  | program => .program

def form : Part α → Ebnf
  | block => .repeated (.part .statement)
  | statement => .part .statement
  | expr => .part .expr
  | literal => .part .simpleLiteral
  | listLiteral => .either (Grammar.listForm .curlyOpen) (Grammar.listForm .bracketOpen)
  | constantList => .part .constBlock
  | constantDecl => constantForm
  | variableList => .part .varBlock
  | bindingDecl => .seq [.commas (.token .identifier), .token .colon, .part .type]
  | typeExpr => .part .type
  | procedureDecl => .part .procedure
  | procedureList => .repeated (.part .procedure)
  | program => .part .program

end Part

section

variable {σ τ : Type} [TokenStream σ] [TokenStream τ] {α : Type} {n fuel more : Nat}

/-- Every part is read predictively. -/
theorem Part.predictive (part : Part α) (hn : n ≤ fuel) (hfuel : fuel ≤ more) (s : σ) :
    Parser.Predictive n (part.production.rule fuel : Parser σ α)
      (part.production.rule more : Parser τ α) part.form s := by
  cases part with
  | block => exact Grammar.block_predictive hn hfuel s
  | statement => exact Grammar.statement_predictive hn hfuel s
  | expr => exact Grammar.expr_predictive hn hfuel s
  | literal => exact Grammar.literal_predictive s
  | listLiteral => exact Grammar.anyList_predictive hn hfuel s
  | constantList => exact Grammar.constantList_predictive hn hfuel s
  | constantDecl => exact Grammar.constantDecl_predictive hn hfuel s
  | variableList => exact Grammar.variableList_predictive hn hfuel s
  | bindingDecl => exact Grammar.bindingDecl_predictive hn hfuel s
  | typeExpr => exact Grammar.typeExpr_predictive s
  | procedureDecl => exact Grammar.procedureDecl_predictive hn hfuel s
  | procedureList => exact Grammar.procedureList_predictive hn hfuel s
  | program => exact Grammar.program_predictive hn hfuel s

end

section

variable {source : String} {α β : Type}

/-- No part but a program reads the end of input, whether it yields a value or fails. -/
theorem Fits.eof_not_mem {x : Ebnf} {ks : List TokenKind} {result : Except SyntaxError α}
    (h : Fits x ks result) (hx : x.Mentions .eof [.program] = false) : .eof ∉ ks := by
  cases result with
  | ok a => exact Derives.eof_not_mem h hx
  | error e =>
    obtain ⟨⟨k, more, hmore⟩, -⟩ := h
    exact fun hmem => hmore.eof_not_mem hx (by simp [hmem])

namespace Parser

/-- The outcome of a parser on a list, from an index on, and that of one on a cursor: they have the
same result, the cursor follows the list, and an error reports the token that is left in sight. -/
structure Along (r : ListCursor (lex source)) (x : Except SyntaxError α × ListCursor (lex source))
    (y : Except SyntaxError α × Cursor) : Prop where
  result : y.1 = x.1
  follows : y.2.Follows x.2
  forward : r.index ≤ x.2.index
  found : ∀ e, x.1 = .error e → e.found = x.2.current

namespace Along

variable {p : Parser (ListCursor (lex source)) α} {q : Parser Cursor α}
  {f : α → Parser (ListCursor (lex source)) β} {g : α → Parser Cursor β}
  {r left : ListCursor (lex source)} {c left' : Cursor} {kind : TokenKind} {ks : List TokenKind}

theorem ok (hfollows : left'.Follows left) (hforward : r.index ≤ left.index) (a : α) :
    Along r (.ok a, left) (.ok a, left') := by
  refine ⟨rfl, hfollows, hforward, ?_⟩
  rintro e ⟨⟩

protected theorem pure (h : c.Follows r) (a : α) :
    Along r ((pure a : Parser _ α) r) ((pure a : Parser _ α) c) :=
  ok h (Nat.le_refl _) a

protected theorem current (h : c.Follows r) : Along r (current r) (current c) := by
  rw [current, current, h.current_eq]
  exact ok h (Nat.le_refl _) _

protected theorem advance (h : c.Follows r) : Along r (advance r) (advance c) := by
  rw [advance, advance, h.current_eq]
  exact ok h.advance r.index_advance _

protected theorem fail (h : c.Follows r) (expected : Expected) :
    Along r ((fail expected : Parser _ α) r) ((fail expected : Parser _ α) c) := by
  rw [fail, fail, h.current_eq]
  refine ⟨rfl, h, Nat.le_refl _, ?_⟩
  rintro e ⟨⟩
  rfl

/-- What comes behind a parser goes along from where it yields a value. -/
protected theorem bind (hp : Along r (p r) (q c)) (hf : ∀ a m m', p r = (.ok a, m) → m'.Follows m →
    Along m (f a m) (g a m')) : Along r ((p >>= f) r) ((q >>= g) c) := by
  rw [bind_apply, bind_apply]
  rcases hpr : p r with ⟨result, m⟩
  rcases hqc : q c with ⟨result', m'⟩
  rw [hpr] at hf
  rw [hpr, hqc] at hp
  obtain rfl : result' = result := hp.result
  cases result' with
  | error e => exact ⟨rfl, hp.follows, hp.forward, fun e he => hp.found e (by cases he; rfl)⟩
  | ok a =>
    obtain ⟨hresult, hfollows, hforward, hfound⟩ := hf a m m' rfl hp.follows
    exact ⟨hresult, hfollows, Nat.le_trans hp.forward hforward, hfound⟩

theorem map (hp : Along r (p r) (q c)) (h : α → β) :
    Along r ((do return h (← p)) r) ((do return h (← q)) c) :=
  hp.bind fun _ _ _ _ hm => .pure hm _

protected theorem has (h : c.Follows r) : Along r (has kind r) (has kind c) :=
  (Along.current h).map _

protected theorem hasAny (h : c.Follows r) : Along r (hasAny ks r) (hasAny ks c) :=
  (Along.current h).map _

protected theorem take? (h : c.Follows r) : Along r (take? kind r) (take? kind c) := by
  refine (Along.has h).bind fun b m m' _ hm => ?_
  cases b with
  | true => exact (Along.advance hm).map some
  | false => exact .pure hm none

protected theorem takeAny? (h : c.Follows r) : Along r (takeAny? ks r) (takeAny? ks c) := by
  refine (Along.hasAny h).bind fun b m m' _ hm => ?_
  cases b with
  | true => exact (Along.advance hm).map some
  | false => exact .pure hm none

protected theorem expect (h : c.Follows r) : Along r (expect kind r) (expect kind c) := by
  refine (Along.take? h).bind fun found m m' _ hm => ?_
  cases found with
  | some t => exact .pure hm t
  | none => exact .fail hm _

protected theorem expectAny (h : c.Follows r) :
    Along r (expectAny ks r) (expectAny ks c) := by
  refine (Along.takeAny? h).bind fun found m m' _ hm => ?_
  cases found with
  | some t => exact .pure hm t
  | none => exact .fail hm _

/-- What is explained by tokens in front of the end of input goes along. -/
theorem of_explains {x : Ebnf} {w : List Token} (h : c.Follows r)
    (hw : Explains (TokenStream.bound r) q x r (p r) w) (heof : .eof ∉ kinds w) :
    Along r (p r) (q c) := by
  obtain ⟨left', hreads, hleft⟩ := h.reads hw.reads
  have hindex := ListCursor.index_of_reads hw.reads heof
  have hlength : w.length < TokenStream.bound r := by
    have hlt := (p r).2.index.isLt
    change w.length < (lex source).length - r.index
    omega
  rw [hw.same hlength hreads hleft.current_eq]
  exact ⟨rfl, hleft, ListCursor.le_of_reads hw.reads, hw.found⟩

end Along
end Parser

/-- A program that is read goes up to the end of input. -/
theorem Grammar.program_along {c : Cursor} {r left : ListCursor (lex source)} {p : Program}
    (h : c.Follows r) (hp : Grammar.program (TokenStream.bound r) r = (.ok p, left)) :
    Parser.Along r (Grammar.program (TokenStream.bound r) r)
      (Grammar.program (TokenStream.bound c) c) := by
  obtain ⟨w, hreads, hw⟩ := program_sound _ hp
  obtain ⟨left', hreads', hleft⟩ := h.reads hreads
  have hlength : w.length ≤ TokenStream.bound c := by
    obtain ⟨js, hjs, heof⟩ := hw.derives.program_eq
    obtain ⟨u, v, rfl, rfl, hv⟩ := List.map_eq_append_iff.1 hjs
    obtain ⟨d, rfl, -⟩ := List.map_eq_singleton_iff.1 hv
    obtain ⟨m, hm, -⟩ := TokenStream.reads_append.1 hreads
    have hindex := ListCursor.index_of_reads hm heof
    have hlt := m.index.isLt
    have hbound : (lex source).length - r.index ≤ TokenStream.bound c := h.bound_le
    rw [List.length_append, List.length_singleton]
    omega
  rw [hp, program_complete _ hw hlength hreads' List.not_mem_nil]
  exact .ok hleft (ListCursor.le_of_reads hreads) p

namespace Part

variable (part : Part α) {c : Cursor} {r : ListCursor (lex source)}

theorem along (h : c.Follows r) :
    Parser.Along r (part.production.parse r) (part.production.parse c) := by
  obtain ⟨w, hw⟩ := part.predictive (τ := Cursor) (Nat.le_refl _) h.bound_le r r.legible
  have hexplained (heof : .eof ∉ kinds w) :
      Parser.Along r (part.production.parse r) (part.production.parse c) :=
    .of_explains (p := part.production.rule _) (q := part.production.rule _) h hw heof
  by_cases hform : part.form.Mentions .eof [.program] = false
  · exact hexplained (hw.fits.eof_not_mem hform)
  · cases part
    case program =>
      rcases hresult : Grammar.program (TokenStream.bound r) r with ⟨e | p, left⟩
      · have hfits := hw.fits
        change Fits _ _ (Grammar.program _ _).1 at hfits
        rw [hresult] at hfits
        obtain ⟨⟨k, hk⟩, -⟩ := hfits
        exact hexplained hk.eof_not_mem
      · exact Grammar.program_along h hresult
    all_goals exact absurd (by decide) hform

end Part

/-! Something is read of every part that can begin where it is asked for, so that to read one again
and again comes to an end. -/

theorem ListCursor.index_lt_of_reads {r left : ListCursor (lex source)} {w : List Token}
    (h : Reads r w left) (hw : w ≠ []) (heof : r.current.kind ≠ .eof) : r.index < left.index := by
  cases w with
  | nil => exact absurd rfl hw
  | cons t w =>
    have hle : r.advance.index.val ≤ left.index := le_of_reads h.2
    rw [index_advance_of_ne_eof heof] at hle
    exact Nat.lt_of_succ_le hle

namespace Parser

variable {p : Parser (ListCursor (lex source)) α} {x : Ebnf} {r left : ListCursor (lex source)}

theorem Predictive.index_lt (h : Predictive 0 p p x r) (hx : x.nullable = false)
    (heof : r.current.kind ≠ .eof) {a : α} (hp : p r = (.ok a, left)) : r.index < left.index := by
  obtain ⟨w, hw⟩ := h r.legible
  rw [hp] at hw
  refine ListCursor.index_lt_of_reads hw.reads ?_ heof
  rintro rfl
  exact Derives.ne_nil hw.fits hx rfl

theorem index_lt_of_many {first : List TokenKind} {fuel : Nat}
    (hp : ∀ m : ListCursor (lex source), Predictive 0 p p x m) (hx : x.nullable = false)
    (hfuel : 0 < fuel) (hfirst : r.current.kind ∈ first) (heof : r.current.kind ≠ .eof)
    {as : List α} (h : many first p fuel r = (.ok as, left)) : r.index < left.index := by
  obtain ⟨fuel, rfl⟩ := Nat.exists_eq_add_one_of_ne_zero (Nat.pos_iff_ne_zero.1 hfuel)
  have hsight : first.contains (TokenStream.current r).kind = true := List.contains_iff_mem.2 hfirst
  rw [many, hasAny_bind, if_pos hsight] at h
  obtain ⟨a, m, hhead, h⟩ := bind_eq_ok.1 h
  obtain ⟨rest, m', htail, hpure⟩ := bind_eq_ok.1 h
  obtain ⟨-, rfl⟩ := pure_eq_ok.1 hpure
  obtain ⟨w, hw⟩ := Predictive.many first hx (Nat.zero_le fuel) (Nat.le_refl fuel) hp m m.legible
  rw [htail] at hw
  exact Nat.lt_of_lt_of_le ((hp r).index_lt hx heof hhead) (ListCursor.le_of_reads hw.reads)

end Parser

namespace Part

variable (part : Part α) {c : Cursor} {r left : ListCursor (lex source)}

theorem index_lt (hfirst : r.current.kind ∈ part.production.first) {a : α}
    (h : part.production.parse r = (.ok a, left)) : r.index < left.index := by
  have heof : r.current.kind ≠ .eof := by
    intro hkind
    rw [hkind] at hfirst
    revert hfirst
    cases part <;> decide
  have hpos : 0 < TokenStream.bound r := Nat.sub_pos_of_lt r.index.isLt
  by_cases hform : part.form.nullable = false
  · exact (part.predictive (Nat.zero_le _) (Nat.le_refl _) r).index_lt hform heof h
  · cases part
    case block =>
      obtain ⟨statements, m, hmany, hpure⟩ := Parser.bind_eq_ok.1 h
      obtain ⟨-, rfl⟩ := Parser.pure_eq_ok.1 hpure
      exact Parser.index_lt_of_many
        (Grammar.statement_predictive (Nat.zero_le _) (Nat.le_refl _)) rfl hpos hfirst heof hmany
    case procedureList =>
      obtain ⟨procedures, m, hmany, hpure⟩ := Parser.bind_eq_ok.1 h
      obtain ⟨-, rfl⟩ := Parser.pure_eq_ok.1 hpure
      exact Parser.index_lt_of_many
        (Grammar.procedureDecl_predictive (Nat.zero_le _) (Nat.le_refl _)) rfl hpos hfirst heof
        hmany
    all_goals exact absurd rfl hform

theorem along_opt (h : c.Follows r) :
    Parser.Along r (part.production.parseOpt r) (part.production.parseOpt c) := by
  refine (Parser.Along.hasAny h).bind fun b m m' _ hm => ?_
  cases b with
  | true => exact (part.along hm).map some
  | false => exact .pure hm none

/-- Every item uses up one unit of fuel and one token at least. -/
theorem along_many {fuel more : Nat} (h : c.Follows r) (hfuel : TokenStream.bound r ≤ fuel)
    (hmore : TokenStream.bound r ≤ more) :
    Parser.Along r (Parser.many part.production.first part.production.parse fuel r)
      (Parser.many part.production.first part.production.parse more c) := by
  have hpos : 0 < TokenStream.bound r := Nat.sub_pos_of_lt r.index.isLt
  induction fuel generalizing more r c with
  | zero => omega
  | succ fuel ih =>
    obtain ⟨more, rfl⟩ : ∃ m, more = m + 1 := ⟨more - 1, by omega⟩
    rw [Parser.many, Parser.many, Parser.hasAny_bind, Parser.hasAny_bind, h.current_eq]
    cases hfirst : part.production.first.contains (TokenStream.current r).kind with
    | false => exact .pure h []
    | true =>
      refine (part.along h).bind fun a m m' hm hm' => ?_
      have hlt := part.index_lt (List.contains_iff_mem.1 hfirst) hm
      have hless : TokenStream.bound m < TokenStream.bound r :=
        Nat.sub_lt_sub_left r.index.isLt hlt
      exact (ih hm' (by omega) (by omega) (Nat.sub_pos_of_lt m.index.isLt)).map (a :: ·)

theorem along_while (h : c.Follows r) :
    Parser.Along r (part.production.parseWhile r) (part.production.parseWhile c) :=
  part.along_many h (Nat.le_refl _) h.bound_le

end Part
end

end TeachLang
