import TeachLang.Proofs.Grammar.Completeness.Declaration
import TeachLang.Proofs.Tree.Map

/-! # Writings of relabelled tokens

What tokens write depends on their kinds and texts only, and they write one tree at most.
-/

namespace TeachLang

/-- A change of tokens that keeps kinds and texts. -/
structure Relabels (g : Token → Token) : Prop where
  kind : ∀ t, (g t).kind = t.kind
  text : ∀ t, (g t).text = t.text

theorem Relabels.kind_eq {g : Token → Token} (hg : Relabels g) {t : Token} {kind : TokenKind}
    (h : t.kind = kind) : (g t).kind = kind := by
  rw [hg.kind, h]

theorem relabels_unplaced : Relabels Token.unplaced := ⟨fun _ => rfl, fun _ => rfl⟩

section

variable {α β : Type} {R : Writing α} {S : Writing β} {g : Token → Token} {f : α → β}

theorem Repeated.map {w : List Token} {as : List α} (h : Repeated R w as)
    (hRS : ∀ v a, R v a → S (v.map g) (f a)) : Repeated S (w.map g) (as.map f) := by
  induction h with
  | nil => exact .nil
  | cons hhead _ ih =>
    rw [List.map_append]
    exact .cons (hRS _ _ hhead) ih

theorem After.map (hg : Relabels g) {kind : TokenKind} {w : List Token} {a : α}
    (h : After kind R w a) (hRS : ∀ v a, R v a → S (v.map g) (f a)) :
    After kind S (w.map g) (f a) := by
  cases h with | mk hkind hitem =>
  exact .mk (hg.kind_eq hkind) (hRS _ _ hitem)

theorem Separated.map (hg : Relabels g) {w : List Token} {as : List α} (h : Separated R w as)
    (hRS : ∀ v a, R v a → S (v.map g) (f a)) : Separated S (w.map g) (as.map f) := by
  cases h with
  | nil => exact .nil
  | cons hhead htail =>
    rw [List.map_append]
    exact .cons (hRS _ _ hhead) (htail.map fun v a hafter => hafter.map hg hRS)

theorem Optional.map {w : List Token} {o : Option α} (h : Optional R w o)
    (hRS : ∀ v a, R v a → S (v.map g) (f a)) : Optional S (w.map g) (o.map f) := by
  cases h with
  | none => exact .none
  | some hitem => exact .some (hRS _ _ hitem)

theorem Closed.map (hg : Relabels g) {w : List Token} {a : α} (h : Closed R w a)
    (hRS : ∀ v a, R v a → S (v.map g) (f a)) : Closed S (w.map g) (f a) := by
  cases h with | mk hitem hkind =>
  rw [List.map_append]
  exact .mk (hRS _ _ hitem) (hg.kind_eq hkind)

end

section

variable {g : Token → Token} (hg : Relabels g)

include hg

theorem LiteralValue.ofToken_relabelled (t : Token) :
    LiteralValue.ofToken (g t) = .ofToken t := by
  rw [ofToken, ofToken, hg.kind, hg.text]

theorem Token.isLegible_relabelled (t : Token) : (g t).isLegible = t.isLegible := by
  rw [isLegible, isLegible, hg.kind, hg.text]

theorem Literal.Written.map {w : List Token} {l : Literal} (h : l.Written w) :
    (l.map g id).Written (w.map g) := by
  cases h with | @mk t hkind hlegible =>
  rw [Literal.map, ← LiteralValue.ofToken_relabelled hg]
  exact .mk (by rwa [hg.kind]) (by rwa [Token.isLegible_relabelled hg])

theorem ListLiteral.Written.map {w : List Token} {l : ListLiteral} (h : l.Written w) :
    (l.map g id).Written (w.map g) := by
  cases h with | mk hopening helements hclosing =>
  rw [List.map_cons, List.map_append]
  exact .mk (by rwa [hg.kind]) (helements.map hg fun _ _ => Literal.Written.map hg)
    (by rwa [hg.kind, hg.kind])

theorem Expr.Arguments.map {E F : Writing Expr} {w : List Token} {args : List Expr}
    (h : Expr.Arguments E w args) (hEF : ∀ v e, E v e → F (v.map g) (e.map g id)) :
    Expr.Arguments F (w.map g) (Expr.mapAll g id args) := by
  cases h with | mk hopening hargs hclosing =>
  rw [List.map_cons, List.map_append, mapAll_eq_map]
  exact .mk (hg.kind_eq hopening) (hargs.map hg hEF) (hg.kind_eq hclosing)

theorem Expr.Layer.map {E F : Writing Expr} {r : Rank} {w : List Token} {e : Expr}
    (h : Expr.Layer E r w e) (hEF : ∀ v e, E v e → F (v.map g) (e.map g id)) :
    Expr.Layer F r (w.map g) (e.map g id) := by
  induction h with
  | name hkind => exact .name (hg.kind_eq hkind)
  | call hcallee hargs => exact .call (hg.kind_eq hcallee) (hargs.map hg hEF)
  | parentheses hopening hinner hclosing =>
    rw [List.map_cons, List.map_append]
    exact .parentheses (hg.kind_eq hopening) (hEF _ _ hinner) (hg.kind_eq hclosing)
  | literal hliteral => exact .literal (hliteral.map hg)
  | list hlist => exact .list (hlist.map hg)
  | atom _ ih => exact .atom ih
  | index _ hopening hposition hclosing ih =>
    rw [List.map_append, List.map_cons, List.map_append]
    exact .index ih (hg.kind_eq hopening) (hEF _ _ hposition) (hg.kind_eq hclosing)
  | primary _ ih => exact .primary ih
  | unary hsymbol _ ih => exact .unary (hg.kind_eq hsymbol) ih
  | operand _ ih => exact .operand ih
  | binary _ hsymbol _ ihl ihr =>
    rw [List.map_append, List.map_cons]
    exact .binary ihl (hg.kind_eq hsymbol) ihr

theorem Expr.Written.map {w : List Token} {e : Expr} (h : e.Written w) :
    (e.map g id).Written (w.map g) := by
  refine h.lift (P := fun w e => (e.map g id).Written (w.map g)) ?_
  intro w e hlayer
  exact .mk (hlayer.map hg fun _ _ he => he)

theorem Target.Written.map {w : List Token} {target : Target} (h : target.Written w) :
    (target.map g id).Written (w.map g) := by
  cases h with
  | name hkind => exact .name (hg.kind_eq hkind)
  | element hbase hopening hposition hclosing =>
    rw [List.map_cons, List.map_cons, List.map_append]
    exact .element (hg.kind_eq hbase) (hg.kind_eq hopening) (hposition.map hg)
      (hg.kind_eq hclosing)

section

variable {B C : Writing Block} (hBC : ∀ v b, B v b → C (v.map g) (b.map g id))

include hBC

theorem ElseIfs.Layer.map {w : List Token} {b : ElseIfs} (h : ElseIfs.Layer B w b) :
    ElseIfs.Layer C (w.map g) (b.map g id) := by
  induction h with
  | nil => exact .nil
  | cons hkeyword hcondition hthen hbody _ ih =>
    rw [List.map_cons, List.map_append, List.map_cons, List.map_append]
    exact .cons (hg.kind_eq hkeyword) (hcondition.map hg) (hg.kind_eq hthen)
      (hBC _ _ hbody) ih

theorem Else.Layer.map {w : List Token} {b : Else} (h : Else.Layer B w b) :
    Else.Layer C (w.map g) (b.map g id) := by
  cases h with
  | absent => exact .absent
  | present hkeyword hbody => exact .present (hg.kind_eq hkeyword) (hBC _ _ hbody)

theorem Statement.Layer.map {w : List Token} {s : Statement} (h : Statement.Layer B w s) :
    Statement.Layer C (w.map g) (s.map g id) := by
  cases h with
  | assignment htarget hsymbol hvalue =>
    rw [List.map_append, List.map_cons]
    exact .assignment (htarget.map hg) (hg.kind_eq hsymbol) (hvalue.map hg)
  | call hcallee hargs =>
    exact .call (hg.kind_eq hcallee) (hargs.map hg fun _ _ => Expr.Written.map hg)
  | conditional hkeyword hcondition hthen hbody helseIfs hotherwise hend =>
    simp only [List.map_cons, List.map_append]
    exact .conditional (hg.kind_eq hkeyword) (hcondition.map hg) (hg.kind_eq hthen)
      (hBC _ _ hbody) (helseIfs.map hg hBC) (hotherwise.map hg hBC) (hg.kind_eq hend)
  | loop hkeyword hbody hend =>
    rw [List.map_cons, List.map_append]
    exact .loop (hg.kind_eq hkeyword) (hBC _ _ hbody) (hg.kind_eq hend)
  | forEach hkeyword hitem hin hiterable hdo hbody hend =>
    simp only [List.map_cons, List.map_append]
    exact .forEach (hg.kind_eq hkeyword) (hg.kind_eq hitem) (hg.kind_eq hin)
      (hiterable.map hg) (hg.kind_eq hdo) (hBC _ _ hbody) (hg.kind_eq hend)
  | returning hkeyword hvalue =>
    exact .returning (hg.kind_eq hkeyword) (hvalue.map fun _ _ => Expr.Written.map hg)
  | exit hkeyword => exact .exit (hg.kind_eq hkeyword)

end

theorem Block.Written.map {w : List Token} {b : Block} (h : b.Written w) :
    (b.map g id).Written (w.map g) := by
  refine h.lift (P := fun w b => (b.map g id).Written (w.map g)) ?_
  intro w statements hall
  rw [Block.map, Statement.mapAll_eq_map]
  exact .mk (hall.map fun v s hs => hs.map hg fun u s hlayer => hlayer.map hg fun _ _ hb => hb)

theorem ConstantValue.Written.map {w : List Token} {v : ConstantValue} (h : v.Written w) :
    (v.map g id).Written (w.map g) := by
  cases h with
  | simple hliteral => exact .simple (hliteral.map hg)
  | list hlist hopening => exact .list (hlist.map hg) (hg.kind_eq hopening)

theorem ConstantDecl.Body.map {w : List Token} {d : ConstantDecl} (h : ConstantDecl.Body w d) :
    ConstantDecl.Body (w.map g) (d.map g id) := by
  cases h with | mk hname hsymbol hvalue =>
  exact .mk (hg.kind_eq hname) (hg.kind_eq hsymbol) (hvalue.map hg)

theorem ConstantList.Written.map {w : List Token} {l : ConstantList} (h : l.Written w) :
    (l.map g id).Written (w.map g) := by
  cases h with | mk hkeyword hhead htail =>
  rw [List.map_cons, List.map_append]
  exact .mk (hg.kind_eq hkeyword) (hhead.map hg fun _ _ => ConstantDecl.Body.map hg)
    (htail.map fun v d hd => hd.map hg fun _ _ => ConstantDecl.Body.map hg)

theorem TypeExpr.Written.map {w : List Token} {type : TypeExpr} (h : type.Written w) :
    (type.map g id).Written (w.map g) := by
  cases h with
  | simple hkind => exact .simple (hg.kind_eq hkind)
  | list hkeyword hof hkind =>
    exact .list (hg.kind_eq hkeyword) (hg.kind_eq hof) (hg.kind_eq hkind)

theorem Identifier.Written.map {w : List Token} {i : Identifier} (h : i.Written w) :
    (i.map g id).Written (w.map g) := by
  cases h with | mk hkind =>
  exact .mk (hg.kind_eq hkind)

theorem BindingDecl.Body.map {w : List Token} {d : BindingDecl} (h : BindingDecl.Body w d) :
    BindingDecl.Body (w.map g) (d.map g id) := by
  cases h with | mk hhead htail hcolon htype =>
  rw [List.map_append, List.map_append, List.map_cons]
  exact .mk (hhead.map hg) (htail.map fun v i hi => hi.map hg fun _ _ => Identifier.Written.map hg)
    (hg.kind_eq hcolon) (htype.map hg)

theorem VariableList.Written.map {w : List Token} {l : VariableList} (h : l.Written w) :
    (l.map g id).Written (w.map g) := by
  cases h with | mk hkeyword hhead htail =>
  rw [List.map_cons, List.map_append]
  exact .mk (hg.kind_eq hkeyword) (hhead.map hg fun _ _ => BindingDecl.Body.map hg)
    (htail.map fun v d hd => hd.map hg fun _ _ => BindingDecl.Body.map hg)

theorem TypeExpr.ReturnWritten.map {w : List Token} {type : TypeExpr} (h : type.ReturnWritten w) :
    (type.map g id).ReturnWritten (w.map g) := by
  cases h with
  | none => exact .none
  | some hafter => exact .some (hafter.map hg fun _ _ => TypeExpr.Written.map hg)

theorem ProcedureDecl.Body.map {w : List Token} {d : ProcedureDecl} (h : ProcedureDecl.Body w d) :
    ProcedureDecl.Body (w.map g) (d.map g id) := by
  cases h with
    | mk hkeyword hname hopening hparameters hclosing hreturn hsemicolon hconstants hvars hbegin hbody
      hend =>
  simp only [List.map_cons, List.map_append]
  exact .mk (hg.kind_eq hkeyword) (hg.kind_eq hname) (hg.kind_eq hopening)
    (hparameters.map fun v d hd => hd.map hg fun _ _ => BindingDecl.Body.map hg)
    (hg.kind_eq hclosing) (hreturn.map hg) (hg.kind_eq hsemicolon)
    (hconstants.map fun _ _ => ConstantList.Written.map hg)
    (hvars.map fun _ _ => VariableList.Written.map hg) (hg.kind_eq hbegin) (hbody.map hg)
    (hg.kind_eq hend)

/-- Relabelled tokens write the relabelled program. -/
theorem Program.Written.map {w : List Token} {p : Program} (h : p.Written w) :
    (p.map g id).Written (w.map g) := by
  cases h with
    | mk hconstants hvars hprocedures hkeyword hbody hend hsemicolon heof =>
  simp only [List.map_cons, List.map_append]
  exact .mk (hconstants.map fun _ _ => ConstantList.Written.map hg)
    (hvars.map fun _ _ => VariableList.Written.map hg)
    (hprocedures.map fun v d hd => hd.map hg fun _ _ => ProcedureDecl.Body.map hg)
    (hg.kind_eq hkeyword) (hbody.map hg) (hg.kind_eq hend)
    (hg.kind_eq hsemicolon) (hg.kind_eq heof)

end

/-- A stream of tokens that are at hand, with the end of input behind them. -/
instance : TokenStream (List Token) where
  current w := w.head?.getD ⟨.eof, "", ⟨"", 0, 0⟩, 0, 0⟩
  advance w := w.tail
  bound w := w.length + 1

theorem reads_append_self (v w : List Token) : TokenStream.Reads (v ++ w) v w := by
  induction v with
  | nil => rfl
  | cons t v ih => exact ⟨rfl, ih⟩

theorem reads_self (w : List Token) : TokenStream.Reads w w [] := by
  have h := reads_append_self w []
  rwa [List.append_nil] at h

/-- Tokens write one program at most. -/
theorem Program.Written.unique {w : List Token} {p q : Program} (hp : p.Written w)
    (hq : q.Written w) : p = q := by
  have hfirst := Grammar.program_complete w.length hp (Nat.le_refl _) (reads_self w)
    List.not_mem_nil
  have hsecond := Grammar.program_complete w.length hq (Nat.le_refl _) (reads_self w)
    List.not_mem_nil
  rw [hfirst] at hsecond
  cases hsecond
  rfl

end TeachLang
