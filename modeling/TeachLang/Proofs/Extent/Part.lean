import TeachLang.Proofs.Extent.Expr
import TeachLang.Proofs.Extent.Occurrence
import TeachLang.Proofs.Grammar.Operation
import TeachLang.Proofs.Grammar.Soundness.Declaration

/-! # Extents of what a parser yields

Whatever a parser is asked for at whatever place of a source, the expressions in its results have
spans, at any depth: not empty, between characters, and inside of the tokens that write them.
-/

namespace TeachLang

open TokenStream (Reads reads_nil reads_cons reads_append)

variable {α : Type}

def Part.expressions : Part α → α → List Expr
  | .expr, e => e.subexpressions
  | .statement, s => s.uses.map (·.expr)
  | .block, b => b.uses.map (·.expr)
  | .procedureDecl, d => d.body.uses.map (·.expr)
  | .procedureList, l => l.procedures.flatMap fun d => d.body.uses.map (·.expr)
  | .program, p =>
    p.procedures.procedures.flatMap (fun d => d.body.uses.map (·.expr)) ++
      p.statements.uses.map (·.expr)
  | .literal, _ | .listLiteral, _ | .constantList, _ | .constantDecl, _ | .variableList, _
  | .bindingDecl, _ | .typeExpr, _ => []

def Operation.expressions : Operation α → α → List Expr
  | .parse part, a => part.expressions a
  | .parseOpt part, o => o.elim [] part.expressions
  | .parseWhile part, as => as.flatMap part.expressions
  | .advance, _ | .has _, _ | .hasAny _, _ | .take _, _ | .takeAny _, _ | .expect _, _
  | .expectAny _, _ => []

def Part.Occur (part : Part α) : Writing α := fun w a => ∀ e ∈ part.expressions a, e.OccursIn w

section

variable {σ : Type} [TokenStream σ]

theorem Parser.Sound.imp {p : Parser σ α} {R S : Writing α} (h : Sound p R)
    (hRS : ∀ w a, R w a → S w a) : Sound p S := by
  intro s a left hp
  obtain ⟨w, hreads, hw⟩ := h hp
  exact ⟨w, hreads, hRS w a hw⟩

/-- The expressions of a part occur in the tokens that are read for it. -/
theorem Part.sound (part : Part α) (fuel : Nat) :
    Parser.Sound (part.production.rule fuel : Parser σ α) part.Occur := by
  cases part with
  | expr =>
    refine (Grammar.expr_sound fuel).imp fun w e he => ?_
    rw [Occur, expressions, ← e.map_expr_usesAt .returned, List.forall_mem_map]
    exact he.uses_occur
  | statement =>
    exact (Grammar.statement_sound fuel).imp fun w s hs => List.forall_mem_map.2 hs.uses_occur
  | block =>
    exact (Grammar.block_sound fuel).imp fun w b hb => List.forall_mem_map.2 hb.uses_occur
  | procedureDecl =>
    exact (Grammar.procedureDecl_sound fuel).imp fun w d hd =>
      List.forall_mem_map.2 (ProcedureDecl.Body.uses_occur hd)
  | procedureList =>
    intro s l left h
    obtain ⟨procedures, m, hprocedures, hpure⟩ := Parser.bind_eq_ok.1 h
    obtain ⟨rfl, rfl⟩ := Parser.pure_eq_ok.1 hpure
    obtain ⟨w, hreads, hw⟩ := Parser.many_sound (Grammar.procedureDecl_sound fuel) fuel hprocedures
    refine ⟨w, hreads, fun e he => ?_⟩
    obtain ⟨d, hd, he⟩ := List.mem_flatMap.1 he
    exact List.forall_mem_map.2 (ProcedureDecl.allUses_occur hw d hd) e he
  | program =>
    refine (Grammar.program_sound fuel).imp fun w p hp => ?_
    obtain ⟨hprocedures, hstatements⟩ := hp.uses_occur
    refine List.forall_mem_append.2 ⟨fun e he => ?_, List.forall_mem_map.2 hstatements⟩
    obtain ⟨d, hd, he⟩ := List.mem_flatMap.1 he
    exact List.forall_mem_map.2 (hprocedures d hd) e he
  | literal => exact Grammar.literal_sound.imp fun _ _ _ => nofun
  | listLiteral => exact (Grammar.listLiteral_sound fuel).imp fun _ _ _ => nofun
  | constantList => exact (Grammar.constantList_sound fuel).imp fun _ _ _ => nofun
  | constantDecl => exact (Grammar.constantDecl_sound fuel).imp fun _ _ _ => nofun
  | variableList => exact (Grammar.variableList_sound fuel).imp fun _ _ _ => nofun
  | bindingDecl => exact (Grammar.bindingDecl_sound fuel).imp fun _ _ _ => nofun
  | typeExpr => exact Grammar.typeExpr_sound.imp fun _ _ _ => nofun

theorem Part.sound_parse (part : Part α) :
    Parser.Sound (part.production.parse : Parser σ α) part.Occur :=
  fun _ _ _ h => part.sound _ h

/-- The expressions that an operation yields occur in the tokens that it reads. -/
theorem Operation.occursIn_of_run {op : Operation α} {s left : σ} {a : α}
    (h : op.run s = (.ok a, left)) {e : Expr} (he : e ∈ op.expressions a) :
    ∃ w, Reads s w left ∧ e.OccursIn w := by
  cases op with
  | parse part =>
    obtain ⟨w, hreads, hw⟩ := part.sound_parse h
    exact ⟨w, hreads, hw e he⟩
  | parseOpt part =>
    obtain ⟨w, hreads, hw⟩ := Parser.opt_sound part.sound_parse h
    refine ⟨w, hreads, ?_⟩
    cases hw with
    | none => cases he
    | some hitem => exact hitem e he
  | parseWhile part =>
    obtain ⟨w, hreads, hw⟩ := Parser.many_sound part.sound_parse _ h
    obtain ⟨b, hb, he⟩ := List.mem_flatMap.1 he
    obtain ⟨v, hvw, hv⟩ := hw.exists_infix b hb
    exact ⟨w, hreads, (hv e he).mono hvw⟩
  | advance | has | hasAny | take | takeAny | expect | expectAny => cases he

end

section

variable {source : String}

theorem Expr.Layer.eof_not_mem {r : Rank} {w : List Token} {e : Expr}
    (h : Expr.Layer Expr.Written r w e) : .eof ∉ kinds w :=
  (h.derives fun _ _ he => he.derives).eof_not_mem (by
    cases r with
    | level level => cases level <;> decide
    | unary | primary | atom => decide)

/-- Some tokens of a source, next to each other among those that are read, write an expression, and
it has a span over them that is not empty and a good one. -/
def Expr.Spans (source : String) (w : List Token) (e : Expr) : Prop :=
  ∃ v s, v <:+: w ∧ v <:+: lex source ∧ (∃ rank, Expr.Layer Expr.Written rank v e) ∧
    e.Lies source v s ∧ s.start < s.stop ∧ Span.new? source s.start s.stop = some s

/-- Whatever has been asked of a parser of a source before, and whatever it is asked for now, every
expression in the result, at any depth, has a good span over tokens that are read for it. -/
theorem Operation.spans_of_run (ops : List (Σ α : Type, Operation α)) (op : Operation α) {a : α}
    {left : Cursor} (h : op.run (runAll ops (Cursor.ofSource source)) = (.ok a, left)) :
    ∀ e ∈ op.expressions a,
      ∃ w, Reads (runAll ops (Cursor.ofSource source)) w left ∧ e.Spans source w := by
  intro e he
  obtain ⟨w, hreads, v, hvw, rank, hlayer⟩ := occursIn_of_run h he
  -- The tokens that write the expression are read along the list of all tokens as well.
  have hfollows := follows_runAll ops (Cursor.follows_ofSource source)
  obtain ⟨left', hlist⟩ := hfollows.exists_reads hreads
  have hinfix : v <:+: lex source := by
    obtain ⟨x, y, rfl⟩ := hvw
    obtain ⟨m, hbefore, -⟩ := reads_append.1 hlist
    obtain ⟨m', -, hv⟩ := reads_append.1 hbefore
    exact (ListCursor.prefix_of_reads hv hlayer.eof_not_mem).isInfix.trans
      (List.drop_suffix ..).isInfix
  have heof : ∀ t ∈ v, t.kind ≠ .eof := fun t ht hkind =>
    hlayer.eof_not_mem (List.mem_map.2 ⟨t, ht, hkind⟩)
  have hlaid := laid_of_sublist_lex hinfix.sublist heof
  obtain ⟨s, hs⟩ := hlayer.exists_lies (fun _ _ hw => hw.exists_lies) hlaid
  exact ⟨w, hreads, v, s, hvw, hinfix, ⟨rank, hlayer⟩, hs, hs.start_lt_stop hlaid,
    hs.new?_eq hlaid hinfix.subset⟩

end

def bracketedSource : String := "x := -a[(b + 1)] * (f(c));"

/-- The operations in front of the expression of an assignment. -/
def skipTarget : List (Σ α : Type, Operation α) := [⟨_, .advance⟩, ⟨_, .advance⟩]

theorem Operation.spans_of_run_bracketed : ∃ e left,
    run (.parse .expr) (runAll skipTarget (Cursor.ofSource bracketedSource)) = (.ok e, left) ∧
      e.subexpressions.map (fun e => e.span?.map fun s => (s.start, s.stop)) =
        [(5, 21), (5, 14), (6, 14), (6, 7), (9, 14), (9, 10), (13, 14), (20, 21), (22, 23)].map
          some ∧
      ∀ e' ∈ expressions (.parse .expr) e, ∃ w,
        Reads (runAll skipTarget (Cursor.ofSource bracketedSource)) w left ∧
          e'.Spans bracketedSource w := by
  have hspans : (run (.parse .expr)
      (runAll skipTarget (Cursor.ofSource bracketedSource))).1.toOption.map (fun e =>
        e.subexpressions.map fun e => e.span?.map fun s => (s.start, s.stop)) =
      some ([(5, 21), (5, 14), (6, 14), (6, 7), (9, 14), (9, 10), (13, 14), (20, 21),
        (22, 23)].map some) := by
    decide +kernel
  rcases hrun : run (.parse .expr) (runAll skipTarget (Cursor.ofSource bracketedSource))
    with ⟨e | e, left⟩
  · simp [hrun, Except.toOption] at hspans
  · rw [hrun] at hspans
    exact ⟨e, left, rfl, Option.some.inj hspans, spans_of_run skipTarget _ hrun⟩

end TeachLang
