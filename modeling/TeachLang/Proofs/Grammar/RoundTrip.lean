import TeachLang.Proofs.Grammar.Printed
import TeachLang.Proofs.Grammar.Relabelled
import TeachLang.Proofs.Grammar.Spelled
import TeachLang.Proofs.Token.Spaced
import TeachLang.Proofs.Tree.Admitted

/-! # Parsing undoes printing

A printed program is scanned back into the tokens that it was printed as, and these write
one tree only, which is the program up to the places of its tokens.
-/

namespace TeachLang

theorem map_unplaced_congr {v w : List Token} (h : v.map Token.label = w.map Token.label) :
    v.map Token.unplaced = w.map Token.unplaced := by
  have hlabel : Token.unplaced =
      (fun l : TokenKind × String => Token.unplaced ⟨l.1, l.2, ⟨"", 0, 0⟩, 0, 0⟩) ∘ Token.label :=
    rfl
  rw [hlabel, ← List.map_map, ← List.map_map, h]

theorem kinds_congr {v w : List Token} (h : v.map Token.label = w.map Token.label) :
    kinds v = kinds w := by
  have hlabel : Token.kind = Prod.fst ∘ Token.label := rfl
  rw [kinds, kinds, hlabel, ← List.map_map, ← List.map_map, h]

theorem Program.Grammatical.lex_print {p : Program} (h : p.Grammatical) :
    (lex p.print).map Token.label = (p.write ++ [Token.fixed .eof]).map Token.label := by
  rw [Program.print, lex_intercalate _ h.admitted, List.map_append]
  rfl

theorem Program.Grammatical.exists_parse_print {p : Program} (h : p.Grammatical) :
    ∃ q, (parseProgram p.print).1 = .ok q ∧ q.unplaced = p.untyped.unplaced := by
  have hderives := h.written.derives
  rw [← kinds_congr h.lex_print] at hderives
  obtain ⟨q, hq⟩ := exists_program_written hderives
  refine ⟨q, (parseProgram_eq_ok_iff _ _).2 hq, ?_⟩
  have hprinted := h.written.map relabels_unplaced
  rw [← map_unplaced_congr h.lex_print] at hprinted
  exact (hq.map relabels_unplaced).unique hprinted

/-- Operands with operators between, grouped to the left. -/
def Expr.chain (first : Expr) (rest : List (BinaryOp × Token × Expr)) : Expr :=
  rest.foldl (fun lhs x => .binary x.1 x.2.1 lhs x.2.2 none) first

/-- A chain of operators of one level is written without parentheses. -/
theorem Expr.write_chain {level : Level} (first : Expr) {rest : List (BinaryOp × Token × Expr)}
    (hfirst : level.tightness ≤ first.tightness)
    (hrest : ∀ x ∈ rest, x.1.level = level ∧ level.tightness < x.2.2.tightness) :
    (chain first rest).write = first.write ++ rest.flatMap fun x => x.2.1 :: x.2.2.write := by
  induction rest generalizing first with
  | nil => simp [chain]
  | cons x rest ih =>
    obtain ⟨⟨rfl, hx⟩, htail⟩ := List.forall_mem_cons.1 hrest
    have hstep : (Expr.binary x.1 x.2.1 first x.2.2 none).write =
        first.write ++ x.2.1 :: x.2.2.write := by
      simp [write, writeParentheses, Nat.not_lt.2 hfirst, Nat.not_le.2 hx]
    have hchain := ih (.binary x.1 x.2.1 first x.2.2 none) (Nat.le_refl _) htail
    rw [hstep] at hchain
    rw [List.flatMap_cons, ← List.append_assoc]
    exact hchain

/-- The levels of binary operators from the loosest to the tightest; unary operators and then
everything else bind more tightly still. -/
theorem Level.pairwise_tightness :
    [logic, relational, sum, mul].Pairwise (·.tightness < ·.tightness) := by decide

theorem Expr.level_lt_unary_lt_index (level : Level) (op : UnaryOp) (symbol opening : Token)
    (operand target position : Expr) (slot : Slot) :
    level.tightness < (unary op symbol operand slot).tightness ∧
      (unary op symbol operand slot).tightness < (index target opening position slot).tightness := by
  cases level <;> exact ⟨by simp [tightness, Level.tightness], Nat.lt_succ_self 4⟩

/-- A grammatical program is parsed back from its text up to the places of its tokens, and no other
program has the same text; the tokens of a source write one program at most, and operators of one
level need no parentheses where they group to the left; logic binds most loosely and indexing most
tightly. -/
theorem parse_print {p : Program} (h : p.Grammatical) :
    (∃ q, (parseProgram p.print).1 = .ok q ∧ q.unplaced = p.untyped.unplaced) ∧
    (∀ q : Program, q.Grammatical → q.print = p.print → q.untyped.unplaced = p.untyped.unplaced) ∧
    (∀ (source : String) (q r : Program), q.Written (lex source) → r.Written (lex source) → q = r) ∧
    (∀ (level : Level) (first : Expr) (rest : List (BinaryOp × Token × Expr)),
      level.tightness ≤ first.tightness →
      (∀ x ∈ rest, x.1.level = level ∧ level.tightness < x.2.2.tightness) →
      (first.chain rest).write = first.write ++ rest.flatMap fun x => x.2.1 :: x.2.2.write) ∧
    [Level.logic, .relational, .sum, .mul].Pairwise (·.tightness < ·.tightness) ∧
    (∀ (level : Level) (op : UnaryOp) (symbol opening : Token) (operand target position : Expr)
      (slot : Slot), level.tightness < (Expr.unary op symbol operand slot).tightness ∧
        (Expr.unary op symbol operand slot).tightness <
          (Expr.index target opening position slot).tightness) := by
  refine ⟨h.exists_parse_print, ?_, ?_, ?_, Level.pairwise_tightness, Expr.level_lt_unary_lt_index⟩
  · intro q hq hprint
    obtain ⟨r, hr, hp⟩ := h.exists_parse_print
    obtain ⟨r', hr', hq⟩ := hq.exists_parse_print
    rw [hprint, hr] at hr'
    cases hr'
    rw [← hp, ← hq]
  · intro source q r hq hr
    exact hq.unique hr
  · intro level first rest hfirst hrest
    exact Expr.write_chain first hfirst hrest

/-- Parentheses come back where they are needed only. -/
theorem parse_print_difference :
    ∃ p q, (parseProgram "program x := (a * b) - (c - (-d)[0]); end;").1 = .ok p ∧
      p.print = "program x := a * b - ( c - ( - d ) [ 0 ] ) ; end ;" ∧
      (parseProgram p.print).1 = .ok q ∧ q.unplaced = p.untyped.unplaced := by
  have hprint : (match (parseProgram "program x := (a * b) - (c - (-d)[0]); end;").1 with
      | .ok p => p.print
      | .error _ => "") = "program x := a * b - ( c - ( - d ) [ 0 ] ) ; end ;" := by decide +kernel
  cases hp : (parseProgram "program x := (a * b) - (c - (-d)[0]); end;").1 with
  | error e => simp [hp] at hprint
  | ok p =>
    rw [hp] at hprint
    obtain ⟨q, hq, hsame⟩ := (parse_print (grammatical_of_parseProgram hp)).1
    exact ⟨p, q, rfl, hprint, hq, hsame⟩

end TeachLang
