import TeachLang.Proofs.Termination.Expr

/-! # Statements come to an end

Every block inside a statement begins behind a token of it, and a block that no statement can begin
is empty.
-/

namespace TeachLang.Metered

open TokenStream (Ends)

/-- The block of no statements is what a block comes to that cannot begin. -/
def IdleBlock (result : Except SyntaxError Block) : Prop := result = .ok (.mk [] none)

variable {σ : Type} [TokenStream σ] {n fuel more : Nat} {s : σ}

theorem nameStatement_settles (hfuel : n < fuel) (hmore : n < more) (h : Ends n s) :
    Settles First.name Failed n (nameStatement fuel) (Grammar.nameStatement more) s := by
  refine (Settles.expect h (by decide)).bind fun name m left hm hleft => ?_
  have he {left : σ} (hleft : Ends m left) : Halts m (expr fuel) (Grammar.expr more) left :=
    (expr_settles (by omega) (by omega) hleft).halts hleft
  refine .current_bind ?_
  cases (TokenStream.current left).kind
  case colonEqual =>
    exact (Halts.advance hleft).bind fun symbol left hleft => (he hleft).map _
  case bracketOpen =>
    refine (Halts.advance hleft).bind fun opening left hleft => ?_
    refine (he hleft).bind fun position left hleft => ?_
    refine (Halts.expect hleft _).bind fun _ left hleft => ?_
    exact (Halts.expect hleft _).bind fun symbol left hleft => (he hleft).map _
  case parenthesisOpen =>
    have hinside : SettlesBelow m First.expr Failed (expr fuel : Metered σ Expr)
        (Grammar.expr more) := fun _ _ hk hends => expr_settles (by omega) (by omega) hends
    have hargs := arguments_settles hinside (by omega : m < fuel) (by omega : m < more) hleft
    exact (hargs.halts hleft).map _
  all_goals exact .fail hleft _

section

variable {b : Metered σ Block} {b' : Parser σ Block}
  (hb : SettlesBelow n First.statement IdleBlock b b')

include hb

theorem elseIfs_halts {e : Metered σ Expr} {e' : Parser σ Expr} (hfuel : n < fuel)
    (hmore : n < more) (he : SettlesBelow n First.expr Failed e e') (h : Ends n s) :
    Halts n (elseIfs e b fuel) (Grammar.elseIfs e' b' more) s := by
  refine metered_induction (T := fun n fuel more => SettlesBelow n First.statement IdleBlock b b' →
    SettlesBelow n First.expr Failed e e' → ∀ s, Ends n s →
      Halts n (elseIfs e b fuel) (Grammar.elseIfs e' b' more) s) ?_ hfuel hmore hb he s h
  intro n fuel more _ _ ih hb he s h
  refine .take?_bind h (by decide) (fun keyword m left hm hleft => ?_) (.pure h _)
  refine (he.halts hm hleft).bind fun condition left hleft => ?_
  refine (Halts.expect hleft _).bind fun _ left hleft => ?_
  refine (hb.halts hm hleft).bind fun body left hleft => .map ?_ _
  exact ih m hm (hb.mono (Nat.le_of_lt hm)) (he.mono (Nat.le_of_lt hm)) left hleft

theorem otherwise_halts (h : Ends n s) : Halts n (otherwise b) (Grammar.otherwise b') s :=
  .take?_bind h (by decide) (fun _ _ _ hm hleft => (hb.halts hm hleft).map _) (.pure h _)

theorem conditional_settles (hfuel : n < fuel) (hmore : n < more) (h : Ends n s) :
    Settles [.kwIf] Failed n (conditional b fuel) (Grammar.conditional b' more) s := by
  refine (Settles.expect h (by decide)).bind fun keyword m left hm hleft => ?_
  have he : SettlesBelow (m + 1) First.expr Failed (expr fuel : Metered σ Expr)
      (Grammar.expr more) := fun _ _ hk hends => expr_settles (by omega) (by omega) hends
  refine (he.halts (Nat.lt_succ_self m) hleft).bind fun condition left hleft => ?_
  refine (Halts.expect hleft _).bind fun _ left hleft => ?_
  refine (hb.halts hm hleft).bind fun body left hleft => ?_
  refine (elseIfs_halts (hb.mono (Nat.le_of_lt hm)) (by omega) (by omega) (he.mono (by omega))
    hleft).bind fun branches left hleft => ?_
  refine (otherwise_halts (hb.mono (Nat.le_of_lt hm)) hleft).bind fun last left hleft => ?_
  exact (Halts.expect hleft _).bind fun _ left hleft => .pure hleft _

theorem loop_settles (hs : (TokenStream.current s).kind = .kwLoop) (h : Ends n s) :
    Settles First.statement Failed n (loop b) (Grammar.loop b') s := by
  refine .advance_bind hs (by decide) (by decide) h fun keyword m left hm hleft => ?_
  refine (hb.halts hm hleft).bind fun body left hleft => ?_
  exact (Halts.expect hleft _).bind fun _ left hleft => .pure hleft _

theorem forEach_settles (hs : (TokenStream.current s).kind = .kwFor) (hfuel : n < fuel)
    (hmore : n < more) (h : Ends n s) :
    Settles First.statement Failed n (forEach b fuel) (Grammar.forEach b' more) s := by
  refine .advance_bind hs (by decide) (by decide) h fun keyword m left hm hleft => ?_
  refine (Halts.expect hleft _).bind fun item left hleft => ?_
  refine (Halts.expect hleft _).bind fun _ left hleft => ?_
  have he : Halts m (expr fuel) (Grammar.expr more) left :=
    (expr_settles (by omega) (by omega) hleft).halts hleft
  refine he.bind fun iterable left hleft => ?_
  refine (Halts.expect hleft _).bind fun _ left hleft => ?_
  refine (hb.halts hm hleft).bind fun body left hleft => ?_
  exact (Halts.expect hleft _).bind fun _ left hleft => .pure hleft _

theorem statementBody_settles (hfuel : n < fuel) (hmore : n < more) (h : Ends n s) :
    Settles First.statement Failed n (statementBody b fuel) (Grammar.statementBody b' more) s := by
  refine .current_bind ?_
  cases hs : (TokenStream.current s).kind
  case identifier => exact (nameStatement_settles hfuel hmore h).change (by rw [hs]; decide)
  case kwIf => exact (conditional_settles hb hfuel hmore h).change (by rw [hs]; decide)
  case kwLoop => exact loop_settles hb hs h
  case kwFor => exact forEach_settles hb hs hfuel hmore h
  case kwReturn =>
    refine .advance_bind hs (by decide) (by decide) h fun keyword m left hm hleft => ?_
    have he : Settles First.expr Failed m (expr fuel) (Grammar.expr more) left :=
      expr_settles (by omega) (by omega) hleft
    exact (he.opt.halts hleft).map _
  case kwExit =>
    exact .advance_bind hs (by decide) (by decide) h fun _ m left _ hleft => .pure hleft _
  all_goals exact .fail _ (by rw [hs]; decide)

end

theorem blockOf_settles {u : Metered σ Statement} {p : Parser σ Statement} (hfuel : n < fuel)
    (hmore : n < more) (hp : SettlesBelow (n + 1) First.statement Failed u p) (h : Ends n s) :
    Settles First.statement IdleBlock n (blockOf u fuel) (Grammar.blockOf p more) s := by
  refine (Settles.many hfuel hmore hp h).map _ ?_
  rintro _ rfl
  rfl

theorem statement_settles (hfuel : n < fuel) (hmore : n < more) (h : Ends n s) :
    Settles First.statement Failed n (statement fuel) (Grammar.statement more) s := by
  refine metered_induction (T := fun n fuel more => ∀ s : σ, Ends n s →
    Settles First.statement Failed n (statement fuel) (Grammar.statement more) s) ?_ hfuel hmore s h
  intro n fuel more hfuel hmore ih s h
  have hblock : SettlesBelow n First.statement IdleBlock
      (blockOf (statement fuel : Metered σ Statement) fuel)
      (Grammar.blockOf (Grammar.statement more) more) := by
    refine fun m s hm hends => blockOf_settles (by omega) (by omega) ?_ hends
    exact fun k s hk hends => ih k (by omega) s hends
  have hbody := statementBody_settles hblock (Nat.lt_succ_of_le hfuel) (Nat.lt_succ_of_le hmore) h
  refine hbody.bind fun statement m left _ hleft => ?_
  exact (Halts.expect hleft _).bind fun _ left hleft => .pure hleft _

theorem block_settles (hfuel : n < fuel) (hmore : n < more) (h : Ends n s) :
    Settles First.statement IdleBlock n (block fuel) (Grammar.block more) s :=
  blockOf_settles hfuel hmore (fun _ _ _ hends => statement_settles (by omega) (by omega) hends) h

end TeachLang.Metered
