import TeachLang.Proofs.Grammar.Written
import TeachLang.Proofs.Text.Spans
import TeachLang.Proofs.Token.Tiling

/-! # Extents of expressions

The span of an expression is put together from those of its parts, without a look at their order.
It runs forward all the same, because an expression is written from left to right: from the start of
one of its tokens to the end of another, around its anchor and around its operands.
-/

namespace TeachLang

/-! ## Tokens in a row -/

/-- Tokens that are not empty and stand one behind the other in a source. -/
structure Laid (source : String) (w : List Token) : Prop where
  tokens : ∀ t ∈ w, t.span.source = source ∧ t.span.start < t.span.stop
  ordered : w.Pairwise fun t u => t.span.stop ≤ u.span.start

theorem Laid.sublist {source : String} {v w : List Token} (h : Laid source w) (hvw : v.Sublist w) :
    Laid source v :=
  ⟨fun t ht => h.tokens t (hvw.subset ht), h.ordered.sublist hvw⟩

theorem laid_of_sublist_lex {source : String} {w : List Token} (h : w.Sublist (lex source))
    (heof : ∀ t ∈ w, t.kind ≠ .eof) : Laid source w where
  tokens t ht := by
    obtain ⟨before, text, after, hstands, hscanned⟩ := exists_stands_of_mem_lex (h.subset ht)
    have hpos := byteCount_pos (hscanned.ne_nil (heof t ht))
    rw [hstands.span_eq]
    exact ⟨rfl, Nat.lt_add_of_pos_right hpos⟩
  ordered := ((tiles_lex source).pairwise.sublist h).imp And.right

/-- Tokens of a source begin and end between two characters. -/
theorem isBoundary_of_mem_lex {source : String} {t : Token} (h : t ∈ lex source) :
    isBoundary source.toList t.span.start ∧ isBoundary source.toList t.span.stop := by
  obtain ⟨before, text, after, hstands, -⟩ := exists_stands_of_mem_lex h
  rw [hstands.span_eq, hstands.source_eq]
  refine ⟨isBoundary_append .., ?_⟩
  rw [← List.append_assoc, ← byteCount_append]
  exact isBoundary_append ..

/-! ## Expressions over tokens -/

namespace Expr

def operands : Expr → List Expr
  | binary _ _ lhs rhs _ => [lhs, rhs]
  | unary _ _ operand _ => [operand]
  | index target _ position _ => [target, position]
  | name _ | call _ _ _ | literal _ | list _ => []

/-- The span at which an expression starts: that of its leftmost operand, or of its anchor. -/
def leading? : Expr → Option Span
  | binary _ _ lhs _ _ => lhs.span?
  | index target _ _ _ => target.span?
  | e => some e.anchor.span

end Expr

/-- An expression has a span in a source, over some tokens: it begins where one of them begins and
ends where one of them ends, with the anchor and all operands in between. -/
structure Expr.Lies (source : String) (w : List Token) (e : Expr) (s : Span) : Prop where
  span_eq : e.span? = some s
  source_eq : s.source = source
  first : ∃ t ∈ w, s.start = t.span.start
  last : ∃ t ∈ w, s.stop = t.span.stop
  anchor_mem : e.anchor ∈ w
  anchor : s.Covers e.anchor.span
  operands : ∀ o ∈ e.operands, ∃ inner, o.span? = some inner ∧ s.Covers inner
  leading : ∃ inner, e.leading? = some inner ∧ s.start = inner.start

namespace Expr.Lies

variable {source : String} {v w : List Token} {e : Expr} {s : Span}

theorem mono (h : e.Lies source v s) (hvw : v ⊆ w) : e.Lies source w s where
  span_eq := h.span_eq
  source_eq := h.source_eq
  first := h.first.imp fun _ ht => ⟨hvw ht.1, ht.2⟩
  last := h.last.imp fun _ ht => ⟨hvw ht.1, ht.2⟩
  anchor_mem := hvw h.anchor_mem
  anchor := h.anchor
  operands := h.operands
  leading := h.leading

theorem le_start {n : Nat} (h : e.Lies source w s) (hn : ∀ t ∈ w, n ≤ t.span.start) :
    n ≤ s.start := by
  obtain ⟨t, ht, hstart⟩ := h.first
  exact hstart ▸ hn t ht

theorem stop_le {n : Nat} (h : e.Lies source w s) (hn : ∀ t ∈ w, t.span.stop ≤ n) :
    s.stop ≤ n := by
  obtain ⟨t, ht, hstop⟩ := h.last
  exact hstop ▸ hn t ht

/-- The anchor is not empty. -/
theorem start_lt_stop (h : e.Lies source w s) (hw : Laid source w) : s.start < s.stop := by
  have hanchor := (hw.tokens _ h.anchor_mem).2
  have hstart := h.anchor.start_le
  have hstop := h.anchor.le_stop
  omega

/-- The ends of the span stand between two characters. -/
theorem new?_eq (h : e.Lies source w s) (hw : Laid source w) (hlex : w ⊆ lex source) :
    Span.new? source s.start s.stop = some s := by
  obtain ⟨t, ht, hstart⟩ := h.first
  obtain ⟨u, hu, hstop⟩ := h.last
  have hle := Nat.le_of_lt (h.start_lt_stop hw)
  have hfirst := (isBoundary_of_mem_lex (hlex ht)).1
  have hlast := (isBoundary_of_mem_lex (hlex hu)).2
  rw [← hstart] at hfirst
  rw [← hstop] at hlast
  rw [Span.new?, if_pos (by simp [hle, hfirst, hlast]), ← h.source_eq]

/-- An expression without operands lies where its anchor does. -/
theorem of_anchor (hw : Laid source w) (hmem : e.anchor ∈ w)
    (hspan : e.span? = some e.anchor.span) (hoperands : e.operands = [])
    (hleading : e.leading? = some e.anchor.span) : e.Lies source w e.anchor.span where
  span_eq := hspan
  source_eq := (hw.tokens _ hmem).1
  first := ⟨_, hmem, rfl⟩
  last := ⟨_, hmem, rfl⟩
  anchor_mem := hmem
  anchor := .refl _
  operands := by simp [hoperands]
  leading := ⟨_, hleading, rfl⟩

/-- Two operands with the anchor between them. -/
theorem of_operands {lhs rhs : Expr} {symbol : Token} {s' : Span}
    (hw : Laid source (v ++ symbol :: w)) (hlhs : lhs.Lies source v s)
    (hrhs : rhs.Lies source w s') (hanchor : e.anchor = symbol)
    (hspan : e.span? = do (← lhs.span?).join? (← rhs.span?)) (hoperands : e.operands = [lhs, rhs])
    (hleading : e.leading? = lhs.span?) :
    e.Lies source (v ++ symbol :: w) ⟨source, s.start, s'.stop⟩ := by
  have hv : v.Sublist (v ++ symbol :: w) := List.sublist_append_left ..
  have hw' : w.Sublist (v ++ symbol :: w) :=
    (List.sublist_cons_self ..).trans (List.sublist_append_right ..)
  have hmem : symbol ∈ v ++ symbol :: w := by simp
  obtain ⟨hsource, hsymbol⟩ := hw.tokens symbol hmem
  have hforward := hlhs.start_lt_stop (hw.sublist hv)
  have hforward' := hrhs.start_lt_stop (hw.sublist hw')
  -- The anchor stands behind the whole left operand and in front of the whole right one.
  obtain ⟨-, hright, hleft⟩ := List.pairwise_append.1 hw.ordered
  have hbefore : s.stop ≤ symbol.span.start :=
    hlhs.stop_le fun t ht => hleft t ht symbol List.mem_cons_self
  have hbehind : symbol.span.stop ≤ s'.start :=
    hrhs.le_start fun t ht => List.rel_of_pairwise_cons hright ht
  have hlast : s.stop ≤ s'.stop := by omega
  have hfirst : s.start ≤ s'.start := by omega
  exact {
    span_eq := by
      rw [hspan, hlhs.span_eq, hrhs.span_eq]
      simp only [Option.bind_eq_bind, Option.bind_some]
      rw [Span.join?_eq (hlhs.source_eq.trans hrhs.source_eq.symm), hlhs.source_eq]
    source_eq := rfl
    first := (hlhs.mono hv.subset).first
    last := (hrhs.mono hw'.subset).last
    anchor_mem := hanchor ▸ hmem
    anchor := by
      rw [hanchor]
      exact ⟨hsource, by dsimp only; omega, by dsimp only; omega⟩
    operands := by
      simp only [hoperands, List.mem_cons, List.not_mem_nil, or_false, forall_eq_or_imp, forall_eq]
      exact ⟨⟨s, hlhs.span_eq, hlhs.source_eq, Nat.le_refl _, hlast⟩,
        ⟨s', hrhs.span_eq, hrhs.source_eq, hfirst, Nat.le_refl _⟩⟩
    leading := ⟨s, hleading.trans hlhs.span_eq, rfl⟩ }

/-- An operator in front of its operand. -/
theorem of_operand {op : UnaryOp} {symbol : Token} {operand : Expr} {slot : Slot}
    (hw : Laid source (symbol :: w)) (h : operand.Lies source w s) :
    (unary op symbol operand slot).Lies source (symbol :: w)
      ⟨source, symbol.span.start, s.stop⟩ := by
  have hbehind : symbol.span.stop ≤ s.start :=
    h.le_start fun t ht => List.rel_of_pairwise_cons hw.ordered ht
  have hforward := h.start_lt_stop (hw.sublist (List.sublist_cons_self ..))
  obtain ⟨hsource, hsymbol⟩ := hw.tokens symbol List.mem_cons_self
  exact {
    span_eq := by
      rw [span?, h.span_eq]
      simp only [Option.bind_eq_bind, Option.bind_some]
      rw [Span.join?_eq (hsource.trans h.source_eq.symm), hsource]
    source_eq := rfl
    first := ⟨symbol, List.mem_cons_self, rfl⟩
    last := (h.mono (List.subset_cons_self ..)).last
    anchor_mem := List.mem_cons_self
    anchor := ⟨hsource, Nat.le_refl _, by dsimp only [Expr.anchor]; omega⟩
    operands := by
      rw [Expr.operands, List.forall_mem_singleton]
      exact ⟨s, h.span_eq, h.source_eq, by dsimp only; omega, Nat.le_refl _⟩
    leading := ⟨symbol.span, rfl, rfl⟩ }

end Expr.Lies

/-- An expression of any rank has a span over the tokens in a row that write it. -/
theorem Expr.Layer.exists_lies {source : String} {E : Writing Expr}
    (hE : ∀ v e, E v e → Laid source v → ∃ s, e.Lies source v s) {r : Rank} {w : List Token}
    {e : Expr} (h : Expr.Layer E r w e) (hw : Laid source w) : ∃ s, e.Lies source w s := by
  induction h with
  | name => exact ⟨_, .of_anchor hw List.mem_cons_self rfl rfl rfl⟩
  | call => exact ⟨_, .of_anchor hw List.mem_cons_self rfl rfl rfl⟩
  | @parentheses opening closing w e _ hinner =>
    have hsub : w.Sublist (opening :: (w ++ [closing])) :=
      (List.sublist_append_left ..).trans (List.sublist_cons_self ..)
    -- The parentheses are among the tokens, but no part of the span.
    obtain ⟨s, hs⟩ := hE _ _ hinner (hw.sublist hsub)
    exact ⟨s, hs.mono hsub.subset⟩
  | literal hliteral =>
    cases hliteral
    exact ⟨_, .of_anchor hw List.mem_cons_self rfl rfl rfl⟩
  | list hlist =>
    cases hlist
    exact ⟨_, .of_anchor hw List.mem_cons_self rfl rfl rfl⟩
  | atom _ ih => exact ih hw
  | @index v w opening closing target position _ _ hposition _ ih =>
    obtain ⟨s, hs⟩ := ih (hw.sublist (List.sublist_append_left ..))
    have hsub : w.Sublist (v ++ opening :: (w ++ [closing])) :=
      (List.sublist_append_left ..).trans
        ((List.sublist_cons_self ..).trans (List.sublist_append_right ..))
    obtain ⟨s', hs'⟩ := hE _ _ hposition (hw.sublist hsub)
    exact ⟨_, .of_operands hw hs (hs'.mono (List.subset_append_left ..)) rfl rfl rfl rfl⟩
  | primary _ ih => exact ih hw
  | unary _ _ ih =>
    obtain ⟨s, hs⟩ := ih (hw.sublist (List.sublist_cons_self ..))
    exact ⟨_, .of_operand hw hs⟩
  | operand _ ih => exact ih hw
  | binary _ _ _ ihl ihr =>
    obtain ⟨s, hs⟩ := ihl (hw.sublist (List.sublist_append_left ..))
    obtain ⟨s', hs'⟩ :=
      ihr (hw.sublist ((List.sublist_cons_self ..).trans (List.sublist_append_right ..)))
    exact ⟨_, .of_operands hw hs hs' rfl rfl rfl rfl⟩

theorem Expr.Written.exists_lies {source : String} {w : List Token} {e : Expr} (h : e.Written w)
    (hw : Laid source w) : ∃ s, e.Lies source w s :=
  h.lift (P := fun v e => Laid source v → ∃ s, e.Lies source v s)
    (fun _ _ hlayer hv => hlayer.exists_lies (fun _ _ h => h) hv) hw

end TeachLang
