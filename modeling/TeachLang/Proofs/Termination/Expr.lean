import TeachLang.Proofs.Termination.Settles

/-! # Expressions come to an end

Every expression inside another one begins behind a token of it.
-/

namespace TeachLang.Metered

open TokenStream (Ends)

variable {σ : Type} [TokenStream σ] {n fuel more : Nat} {s : σ}

theorem literal_settles (h : Ends n s) :
    Settles First.simpleLiteral Failed n (lift Grammar.literal) Grammar.literal s := by
  rw [Grammar.literal, lift_bind]
  refine (Settles.expectAny h (by decide)).bind fun token m left _ hleft => .lift ?_
  split <;> exact hleft

theorem listLiteral_settles (hfuel : n < fuel) (hmore : n < more) (h : Ends n s) :
    Settles First.listLiteral Failed n (listLiteral fuel) (Grammar.listLiteral more) s := by
  refine (Settles.expectAny h (by decide)).bind fun opening m left hm hleft => ?_
  have helements := Settles.commaSeparated (by omega : m < fuel) (by omega : m < more)
    (fun _ _ _ hends => literal_settles hends) hleft
  refine (helements.halts hleft).bind fun elements left hleft => ?_
  exact (Halts.expect hleft _).bind fun _ left hleft => .pure hleft _

section

variable {e : Metered σ Expr} {e' : Parser σ Expr} (he : SettlesBelow n First.expr Failed e e')

include he

theorem arguments_settles (hfuel : n < fuel) (hmore : n < more) (h : Ends n s) :
    Settles [.parenthesisOpen] Failed n (arguments e fuel) (Grammar.arguments e' more) s := by
  refine (Settles.expect h (by decide)).bind fun _ m left hm hleft => ?_
  have hargs := Settles.commaSeparated (by omega : m < fuel) (by omega : m < more) (he.mono hm)
    hleft
  refine (hargs.halts hleft).bind fun args left hleft => ?_
  exact (Halts.expect hleft _).bind fun _ left hleft => .pure hleft _

theorem atom_settles (hfuel : n < fuel) (hmore : n < more) (h : Ends n s) :
    Settles First.primary Failed n (atom e fuel) (Grammar.atom e' more) s := by
  refine .current_bind ?_
  have hlist := listLiteral_settles hfuel hmore h
  have hliteral := literal_settles h
  cases hs : (TokenStream.current s).kind
  case parenthesisOpen =>
    refine .advance_bind hs (by decide) (by decide) h fun _ m left hm hleft => ?_
    refine (he.halts hm hleft).bind fun inner left hleft => ?_
    exact (Halts.expect hleft _).bind fun _ left hleft => .pure hleft _
  case identifier =>
    refine .advance_bind hs (by decide) (by decide) h fun name m left hm hleft => ?_
    refine .has_bind fun b _ => ?_
    cases b with
    | false => exact .pure hleft _
    | true =>
      have hargs := arguments_settles (he.mono (Nat.le_of_lt hm)) (by omega : m < fuel)
        (by omega : m < more) hleft
      exact (hargs.halts hleft).map _
  case curlyOpen | bracketOpen =>
    exact (hlist.map_failed _).change (by rw [hs]; decide)
  case intLiteral | stringLiteral | kwTrue | kwFalse =>
    exact (hliteral.map_failed _).change (by rw [hs]; decide)
  all_goals exact .fail _ (by rw [hs]; decide)

theorem primary_settles (hfuel : n < fuel) (hmore : n < more) (h : Ends n s) :
    Settles First.primary Failed n (primary e fuel) (Grammar.primary e' more) s := by
  refine (atom_settles he hfuel hmore h).bind fun target m left hm hleft => ?_
  refine .take?_bind hleft (by decide) (fun opening k left hk hleft => ?_) (.pure hleft _)
  refine (he.halts (Nat.lt_trans hk hm) hleft).bind fun position left hleft => ?_
  exact (Halts.expect hleft _).bind fun _ left hleft => .pure hleft _

end

/-- A sign takes a token, and so does an operand that begins in its place. -/
theorem unary_settles {e : Metered σ Expr} {e' : Parser σ Expr} (hfuel : n < fuel)
    (hmore : n < more) (he : SettlesBelow (n + 1) First.primary Failed e e') (h : Ends n s) :
    Settles First.expr Failed n (unary e fuel) (Grammar.unary e' more) s := by
  refine metered_induction (T := fun n fuel more =>
    SettlesBelow (n + 1) First.primary Failed e e' → ∀ s, Ends n s →
      Settles First.expr Failed n (unary e fuel) (Grammar.unary e' more) s) ?_ hfuel hmore he s h
  intro n fuel more _ _ ih he s h
  have hfirst (k : TokenKind) : k ∈ First.expr ↔ k ∈ First.unaryOperator ∨ k ∈ First.primary := by
    cases k <;> decide
  refine .takeAny?_bind hfirst h (by decide) ?_ (he (Nat.lt_succ_self n) h)
  refine fun symbol m left hm hleft => (Halts.standsFor hleft _ _ _).bind fun op left hleft => ?_
  exact ((ih m hm (he.mono (by omega)) left hleft).halts hleft).map _

section

variable (level : Level) {e : Metered σ Expr} {e' : Parser σ Expr}

theorem moreOperands_halts (hfuel : n < fuel) (hmore : n < more)
    (he : SettlesBelow n First.expr Failed e e') (lhs : Expr) (h : Ends n s) :
    Halts n (moreOperands level e fuel lhs) (Grammar.moreOperands level e' more lhs) s := by
  refine metered_induction (T := fun n fuel more => SettlesBelow n First.expr Failed e e' →
    ∀ lhs s, Ends n s →
      Halts n (moreOperands level e fuel lhs) (Grammar.moreOperands level e' more lhs) s)
    ?_ hfuel hmore he lhs s h
  intro n fuel more _ _ ih he lhs s h
  have hoperators : .eof ∉ level.operators := by cases level <;> decide
  refine .takeAny?_bind h hoperators (fun symbol m left hm hleft => ?_) (.pure h lhs)
  refine (Halts.standsFor hleft _ _ _).bind fun op left hleft => ?_
  refine (he.halts hm hleft).bind fun rhs left hleft => ?_
  exact ih m hm (he.mono (Nat.le_of_lt hm)) _ left hleft

theorem operation_settles (hfuel : n < fuel) (hmore : n < more)
    (he : SettlesBelow (n + 1) First.expr Failed e e') :
    SettlesBelow (n + 1) First.expr Failed (operation level e fuel)
      (Grammar.operation level e' more) :=
  fun _ _ hm h => (he hm h).bind fun lhs _ _ hk hleft =>
    moreOperands_halts level (by omega) (by omega) (he.mono (by omega)) lhs hleft

end

theorem expr_settles (hfuel : n < fuel) (hmore : n < more) (h : Ends n s) :
    Settles First.expr Failed n (expr fuel) (Grammar.expr more) s := by
  refine metered_induction (T := fun n fuel more => ∀ s : σ, Ends n s →
    Settles First.expr Failed n (expr fuel) (Grammar.expr more) s) ?_ hfuel hmore s h
  intro n fuel more hfuel hmore ih s h
  -- an expression inside begins behind a token, where there is one unit of fuel less on either side
  have hinside : SettlesBelow n First.expr Failed (expr fuel : Metered σ Expr)
      (Grammar.expr more) := fun m s hm hends => ih m hm s hends
  have hfactor : SettlesBelow (n + 1) First.expr Failed
      (unary (primary (expr fuel : Metered σ Expr) (fuel + 1)) (fuel + 1))
      (Grammar.unary (Grammar.primary (Grammar.expr more) (more + 1)) (more + 1)) := by
    refine fun m s hm hends => unary_settles (by omega) (by omega) ?_ hends
    exact fun k s hk hends =>
      primary_settles (hinside.mono (by omega)) (by omega) (by omega) hends
  have hlevel (level : Level) {e : Metered σ Expr} {e' : Parser σ Expr}
      (he : SettlesBelow (n + 1) First.expr Failed e e') :=
    operation_settles level (Nat.lt_succ_of_le hfuel) (Nat.lt_succ_of_le hmore) he
  have hlogic := hlevel .logic (hlevel .relational (hlevel .sum (hlevel .mul hfactor)))
  exact hlogic (Nat.lt_succ_self n) h

end TeachLang.Metered
