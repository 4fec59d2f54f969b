import TeachLang.Proofs.Grammar.Written
import TeachLang.Proofs.Tree.Uses

/-! # Occurrences of expressions

Every expression of a written tree, at any depth, is written by some of the tokens of the tree that
stand next to each other.
-/

namespace TeachLang

/-- Some tokens next to each other write an expression, at one of the ranks. -/
def Expr.OccursIn (w : List Token) (e : Expr) : Prop :=
  ∃ v, v <:+: w ∧ ∃ r, Expr.Layer Expr.Written r v e

namespace Expr.OccursIn

variable {v w : List Token} {e : Expr}

theorem mono (h : e.OccursIn v) (hvw : v <:+: w) : e.OccursIn w := by
  obtain ⟨u, huv, hu⟩ := h
  exact ⟨u, huv.trans hvw, hu⟩

theorem cons (h : e.OccursIn w) {t : Token} : e.OccursIn (t :: w) :=
  h.mono (List.infix_cons List.infix_rfl)

theorem left (h : e.OccursIn v) : e.OccursIn (v ++ w) := h.mono (List.prefix_append v w).isInfix

theorem right (h : e.OccursIn w) : e.OccursIn (v ++ w) := h.mono (List.suffix_append v w).isInfix

end Expr.OccursIn

/-- Every item of a row is written by tokens next to each other. -/
theorem Repeated.exists_infix {α : Type} {R : Writing α} {w : List Token} {as : List α}
    (h : Repeated R w as) : ∀ a ∈ as, ∃ v, v <:+: w ∧ R v a := by
  induction h with
  | nil => simp
  | @cons v w a as hhead _ ih =>
    refine List.forall_mem_cons.2 ⟨⟨v, (List.prefix_append v w).isInfix, hhead⟩, fun b hb => ?_⟩
    obtain ⟨u, huw, hu⟩ := ih b hb
    exact ⟨u, huw.trans (List.suffix_append v w).isInfix, hu⟩

/-! ## Parts of expressions -/

/-- Tokens that write an expression and in which all of its parts occur. -/
def Expr.PartsOccur (w : List Token) (e : Expr) : Prop :=
  e.Written w ∧ ∀ u ∈ e.parts, u.expr.OccursIn w

section

variable {v w : List Token} {e : Expr} {place : Place}

/-- An expression occurs where its parts do. -/
theorem Expr.PartsOccur.usesAt (h : e.PartsOccur w) :
    ∀ u ∈ e.usesAt place, u.expr.OccursIn w := by
  obtain ⟨⟨hlayer⟩, hparts⟩ := h
  exact List.forall_mem_cons.2 ⟨⟨w, List.infix_rfl, _, hlayer⟩, hparts⟩

theorem Expr.argumentUses_occur {callee : Token} {args : List Expr}
    (h : Repeated (After .comma Expr.PartsOccur) w args) (ordinal : Nat) :
    ∀ u ∈ Expr.argumentUses callee args ordinal, u.expr.OccursIn w := by
  induction h generalizing ordinal with
  | nil => simp [Expr.argumentUses]
  | @cons v w e args hhead _ ih =>
    cases hhead with | mk _ hitem =>
    exact List.forall_mem_append.2 ⟨fun u hu => (hitem.usesAt u hu).cons.left,
      fun u hu => (ih (ordinal + 1) u hu).right⟩

theorem Expr.Arguments.uses_occur {callee : Token} {args : List Expr}
    (h : Expr.Arguments Expr.PartsOccur w args) :
    ∀ u ∈ Expr.argumentUses callee args 0, u.expr.OccursIn w := by
  cases h with | @mk _ _ w _ _ hargs =>
  have hinside : ∀ u ∈ Expr.argumentUses callee args 0, u.expr.OccursIn w := by
    cases hargs with
    | nil => simp [Expr.argumentUses]
    | cons hhead htail =>
      exact List.forall_mem_append.2 ⟨fun u hu => (hhead.usesAt u hu).left,
        fun u hu => (Expr.argumentUses_occur htail 1 u hu).right⟩
  exact fun u hu => (hinside u hu).left.cons

theorem Expr.Layer.written {r : Rank} (h : Expr.Layer Expr.PartsOccur r w e) :
    Expr.Layer Expr.Written r w e :=
  h.imp fun _ _ _ he => he.1

theorem Expr.Layer.usesAt {r : Rank} (h : Expr.Layer Expr.PartsOccur r w e)
    (hparts : ∀ u ∈ e.parts, u.expr.OccursIn w) : ∀ u ∈ e.usesAt place, u.expr.OccursIn w :=
  List.forall_mem_cons.2 ⟨⟨w, List.infix_rfl, r, h.written⟩, hparts⟩

/-- The parts of an expression occur in the tokens that write it. -/
theorem Expr.Layer.parts_occur {r : Rank} (h : Expr.Layer Expr.PartsOccur r w e) :
    ∀ u ∈ e.parts, u.expr.OccursIn w := by
  induction h with
  | name | literal | list => simp [Expr.parts]
  | call _ hargs => exact fun u hu => (hargs.uses_occur u hu).cons
  | parentheses _ hinner => exact fun u hu => (hinner.2 u hu).left.cons
  | atom _ ih | primary _ ih | operand _ ih => exact ih
  | index htarget _ hposition _ ih =>
    exact List.forall_mem_append.2 ⟨fun u hu => (htarget.usesAt ih u hu).left,
      fun u hu => (hposition.usesAt u hu).left.cons.right⟩
  | unary _ hoperand ih => exact fun u hu => (hoperand.usesAt ih u hu).cons
  | binary hlhs _ hrhs ihl ihr =>
    exact List.forall_mem_append.2 ⟨fun u hu => (hlhs.usesAt ihl u hu).left,
      fun u hu => (hrhs.usesAt ihr u hu).cons.right⟩

theorem Expr.Written.partsOccur (h : e.Written w) : e.PartsOccur w :=
  h.lift fun _ _ hlayer => ⟨.mk hlayer.written, hlayer.parts_occur⟩

/-- The uses of whole expressions, and of the arguments of calls, occur where they are written. -/
theorem Expr.Written.uses_occur (h : e.Written w) : ∀ u ∈ e.usesAt place, u.expr.OccursIn w :=
  h.partsOccur.usesAt

theorem Expr.Arguments.Written.uses_occur {callee : Token} {args : List Expr}
    (h : Expr.Arguments Expr.Written w args) :
    ∀ u ∈ Expr.argumentUses callee args 0, u.expr.OccursIn w :=
  (h.imp fun _ _ _ he => he.partsOccur).uses_occur

end

/-! ## Statements -/

theorem Target.Written.uses_occur {w : List Token} {target : Target} (h : target.Written w) :
    ∀ u ∈ target.toExpr.usesAt .target, u.expr.OccursIn w := by
  have hlayer : ∃ r, Expr.Layer Expr.PartsOccur r w target.toExpr := by
    cases h with
    | name hkind => exact ⟨_, .name hkind⟩
    | element hbase hopening hposition hclosing =>
      exact ⟨_, .index (.name hbase) hopening hposition.partsOccur hclosing⟩
  obtain ⟨r, hlayer⟩ := hlayer
  exact hlayer.usesAt hlayer.parts_occur

/-- Tokens in which all expressions of a block occur. -/
def Block.UsesOccur (w : List Token) (b : Block) : Prop := ∀ u ∈ b.uses, u.expr.OccursIn w

section

variable {w : List Token}

theorem ElseIfs.Layer.uses_occur {b : ElseIfs} (h : ElseIfs.Layer Block.UsesOccur w b) :
    ∀ u ∈ b.uses, u.expr.OccursIn w := by
  induction h with
  | nil => simp [ElseIfs.uses]
  | cons _ hcondition _ hbody _ ih =>
    rw [ElseIfs.uses, List.forall_mem_append, List.forall_mem_append]
    exact ⟨fun u hu => (hcondition.uses_occur u hu).left.cons,
      fun u hu => (hbody u hu).left.cons.right.cons, fun u hu => (ih u hu).right.cons.right.cons⟩

theorem Else.Layer.uses_occur {b : Else} (h : Else.Layer Block.UsesOccur w b) :
    ∀ u ∈ b.uses, u.expr.OccursIn w := by
  cases h with
  | absent => simp [Else.uses]
  | present _ hbody => exact fun u hu => (hbody u hu).cons

theorem Statement.Layer.uses_occur {s : Statement} (h : Statement.Layer Block.UsesOccur w s) :
    ∀ u ∈ s.uses, u.expr.OccursIn w := by
  cases h with
  | assignment htarget _ hvalue =>
    rw [Statement.uses, List.forall_mem_append]
    exact ⟨fun u hu => (htarget.uses_occur u hu).left,
      fun u hu => (hvalue.uses_occur u hu).cons.right⟩
  | call _ hargs => exact fun u hu => (Expr.Arguments.Written.uses_occur hargs u hu).cons
  | conditional _ hcondition _ hbody helseIfs hotherwise =>
    rw [Statement.uses, List.forall_mem_append, List.forall_mem_append, List.forall_mem_append]
    exact ⟨fun u hu => (hcondition.uses_occur u hu).left.cons,
      fun u hu => (hbody u hu).left.cons.right.cons,
      fun u hu => (helseIfs.uses_occur u hu).left.right.cons.right.cons,
      fun u hu => (hotherwise.uses_occur u hu).left.right.right.cons.right.cons⟩
  | loop _ hbody => exact fun u hu => (hbody u hu).left.cons
  | @forEach _ item _ _ _ _ _ _ _ _ hitem _ hiterable _ hbody =>
    have hname : Expr.Written [item] (.name ⟨item, none⟩) :=
      .mk (.operand (.operand (.operand (.operand (.primary (.atom (.name hitem)))))))
    rw [Statement.uses, List.forall_mem_append, List.forall_mem_append]
    exact ⟨fun u hu => (hname.uses_occur u hu).left.cons,
      fun u hu => (hiterable.uses_occur u hu).left.cons.cons.cons,
      fun u hu => (hbody u hu).left.cons.right.cons.cons.cons⟩
  | returning _ hvalue =>
    cases hvalue with
    | none => simp [Statement.uses]
    | some hvalue => exact fun u hu => (hvalue.uses_occur u hu).cons
  | exit => simp [Statement.uses]

theorem Statement.allUses_occur {statements : List Statement}
    (h : Repeated (Closed (Statement.Layer Block.UsesOccur)) w statements) :
    ∀ u ∈ Statement.allUses statements, u.expr.OccursIn w := by
  induction h with
  | nil => simp [Statement.allUses]
  | cons hhead _ ih =>
    cases hhead with | mk hitem =>
    rw [Statement.allUses, List.forall_mem_append]
    exact ⟨fun u hu => (hitem.uses_occur u hu).left.left, fun u hu => (ih u hu).right⟩

/-- All expressions of a block occur in the tokens that write it. -/
theorem Block.Written.uses_occur {b : Block} (h : b.Written w) : b.UsesOccur w :=
  h.lift fun _ _ hlayer => Statement.allUses_occur hlayer

theorem Statement.Written.uses_occur {s : Statement} (h : s.Written w) :
    ∀ u ∈ s.uses, u.expr.OccursIn w := by
  cases h with | mk hlayer =>
  have hlayer := hlayer.imp fun _ _ _ hb => Block.Written.uses_occur hb
  exact fun u hu => (hlayer.uses_occur u hu).left

theorem ProcedureDecl.Body.uses_occur {d : ProcedureDecl} (h : Closed ProcedureDecl.Body w d) :
    ∀ u ∈ d.body.uses, u.expr.OccursIn w := by
  cases h with | mk hdecl =>
  cases hdecl with | mk _ _ _ _ _ _ _ _ _ _ hbody =>
  intro u hu
  exact (hbody.uses_occur u hu).left.cons.right.right.cons.right.cons.right.cons.cons.cons.left

theorem ProcedureDecl.allUses_occur {ds : List ProcedureDecl}
    (h : Repeated (Closed ProcedureDecl.Body) w ds) :
    ∀ d ∈ ds, ∀ u ∈ d.body.uses, u.expr.OccursIn w := by
  intro d hd u hu
  obtain ⟨v, hvw, hv⟩ := h.exists_infix d hd
  exact (ProcedureDecl.Body.uses_occur hv u hu).mono hvw

theorem Program.Written.uses_occur {p : Program} (h : p.Written w) :
    (∀ d ∈ p.procedures.procedures, ∀ u ∈ d.body.uses, u.expr.OccursIn w) ∧
      ∀ u ∈ p.statements.uses, u.expr.OccursIn w := by
  cases h with | mk _ _ hprocedures _ hbody =>
  exact ⟨fun d hd u hu => (ProcedureDecl.allUses_occur hprocedures d hd u hu).left.right.right,
    fun u hu => (hbody.uses_occur u hu).left.cons.right.right.right⟩

end

end TeachLang
