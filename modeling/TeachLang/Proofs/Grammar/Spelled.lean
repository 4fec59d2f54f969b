import TeachLang.Proofs.Grammar.Source

/-! # Trees of sources

The tokens of a source have texts that their kinds admit, unless they are illegal.
Illegal tokens write nothing, so that the tree a source parses to is grammatical.
-/

namespace TeachLang

/-- A token whose text its kind admits, where tokens of the kind have a place in the grammar. -/
def Token.Spelled (t : Token) : Prop :=
  t.kind ∉ [.eof, .illegalChar] → t.kind.Admits t.text.toList

theorem Token.Spelled.writes {t : Token} (h : t.Spelled) {kind : TokenKind} (hkind : t.kind = kind)
    (hlegal : kind ∉ [.eof, .illegalChar]) : t.Writes kind := by
  subst hkind
  exact ⟨rfl, h hlegal⟩

theorem Token.Spelled.isLegible {t : Token} (h : t.Spelled) : t.isLegible := by
  refine isLegible_of_admits fun hkind => h ?_
  rw [hkind]
  decide

theorem spelled_of_mem_lex {source : String} {t : Token} (h : t ∈ lex source) : t.Spelled := by
  obtain ⟨w, eof, hlex, heof, hall⟩ := exists_lex_eq source
  intro hlegal
  simp only [List.mem_cons, List.not_mem_nil, or_false, not_or] at hlegal
  rw [hlex] at h
  rcases List.mem_append.1 h with hmem | hmem
  · exact (hall t hmem).2 hlegal.2
  · obtain rfl := List.mem_singleton.1 hmem
    exact absurd heof hlegal.1

section

variable {α : Type} {R : Writing α} {P : Token → Prop} {Q : α → Prop}

theorem Repeated.forall {w : List Token} {as : List α} (h : Repeated R w as) (hw : ∀ t ∈ w, P t)
    (hR : ∀ v a, R v a → (∀ t ∈ v, P t) → Q a) : ∀ a ∈ as, Q a := by
  induction h with
  | nil => simp
  | cons hhead _ ih =>
    rw [List.forall_mem_append] at hw
    exact List.forall_mem_cons.2 ⟨hR _ _ hhead hw.1, ih hw.2⟩

theorem After.holds {kind : TokenKind} {w : List Token} {a : α} (h : After kind R w a)
    (hw : ∀ t ∈ w, P t) (hR : ∀ v a, R v a → (∀ t ∈ v, P t) → Q a) : Q a := by
  cases h with | mk _ hitem =>
  exact hR _ _ hitem (List.forall_mem_cons.1 hw).2

theorem Separated.forall {w : List Token} {as : List α} (h : Separated R w as)
    (hw : ∀ t ∈ w, P t) (hR : ∀ v a, R v a → (∀ t ∈ v, P t) → Q a) : ∀ a ∈ as, Q a := by
  cases h with
  | nil => simp
  | cons hhead htail =>
    rw [List.forall_mem_append] at hw
    exact List.forall_mem_cons.2
      ⟨hR _ _ hhead hw.1, htail.forall hw.2 fun _ _ hafter hv => hafter.holds hv hR⟩

theorem Optional.forall {w : List Token} {o : Option α} (h : Optional R w o) (hw : ∀ t ∈ w, P t)
    (hR : ∀ v a, R v a → (∀ t ∈ v, P t) → Q a) : ∀ a ∈ o, Q a := by
  cases h with
  | none => simp
  | some hitem =>
    rintro _ ⟨⟩
    exact hR _ _ hitem hw

theorem Closed.holds {w : List Token} {a : α} (h : Closed R w a) (hw : ∀ t ∈ w, P t)
    (hR : ∀ v a, R v a → (∀ t ∈ v, P t) → Q a) : Q a := by
  cases h with | mk hitem _ =>
  exact hR _ _ hitem (List.forall_mem_append.1 hw).1

end

theorem Literal.Written.grammatical {w : List Token} {l : Literal} (h : l.Written w)
    (hw : ∀ t ∈ w, t.Spelled) : l.Grammatical := by
  cases h with | mk hkind =>
  have hlegal : ∀ k ∈ First.simpleLiteral, k ∉ [.eof, .illegalChar] := by decide
  exact ⟨⟨_, hkind, (hw _ (List.mem_singleton.2 rfl)).writes rfl (hlegal _ hkind)⟩, rfl⟩

theorem ListLiteral.Written.grammatical {w : List Token} {l : ListLiteral} (h : l.Written w)
    (hw : ∀ t ∈ w, t.Spelled) : l.Grammatical := by
  cases h with | mk hopening helements _ =>
  have hlegal : ∀ k ∈ First.listLiteral, k ∉ [.eof, .illegalChar] := by decide
  rw [List.forall_mem_cons, List.forall_mem_append] at hw
  exact ⟨⟨_, hopening, hw.1.writes rfl (hlegal _ hopening)⟩,
    helements.forall hw.2.1 fun _ _ => Literal.Written.grammatical⟩

theorem Expr.Arguments.grammatical {E : Writing Expr} {w : List Token} {args : List Expr}
    (h : Expr.Arguments E w args) (hw : ∀ t ∈ w, t.Spelled)
    (hE : ∀ v e, E v e → (∀ t ∈ v, t.Spelled) → e.Grammatical) : Expr.AllGrammatical args := by
  cases h with | mk _ hargs _ =>
  rw [List.forall_mem_cons, List.forall_mem_append] at hw
  exact (Expr.allGrammatical_iff _).2 (hargs.forall hw.2.1 hE)

theorem BinaryOp.kind_legal (op : BinaryOp) : op.kind ∉ [.eof, .illegalChar] := by
  cases op <;> decide

theorem UnaryOp.kind_legal (op : UnaryOp) : op.kind ∉ [.eof, .illegalChar] := by
  cases op <;> decide

theorem SimpleType.kind_legal (s : SimpleType) : s.kind ∉ [.eof, .illegalChar] := by
  cases s <;> decide

theorem Expr.Layer.grammatical {E : Writing Expr} {r : Rank} {w : List Token} {e : Expr}
    (h : Expr.Layer E r w e) (hw : ∀ t ∈ w, t.Spelled)
    (hE : ∀ v e, E v e → (∀ t ∈ v, t.Spelled) → e.Grammatical) : e.Grammatical := by
  induction h with
  | name hkind => exact (hw _ (List.mem_singleton.2 rfl)).writes hkind (by decide)
  | call hcallee hargs =>
    rw [List.forall_mem_cons] at hw
    exact ⟨hw.1.writes hcallee (by decide), hargs.grammatical hw.2 hE⟩
  | parentheses _ hinner _ =>
    rw [List.forall_mem_cons, List.forall_mem_append] at hw
    exact hE _ _ hinner hw.2.1
  | literal hliteral => exact hliteral.grammatical hw
  | list hlist => exact hlist.grammatical hw
  | atom _ ih => exact ih hw
  | index _ hopening hposition _ ih =>
    simp only [List.forall_mem_cons, List.forall_mem_append] at hw
    exact ⟨ih hw.1, hw.2.1.writes hopening (by decide), hE _ _ hposition hw.2.2.1⟩
  | primary _ ih => exact ih hw
  | unary hsymbol _ ih =>
    rw [List.forall_mem_cons] at hw
    exact ⟨hw.1.writes hsymbol (UnaryOp.kind_legal _), ih hw.2⟩
  | operand _ ih => exact ih hw
  | binary _ hsymbol _ ihl ihr =>
    rw [List.forall_mem_append, List.forall_mem_cons] at hw
    exact ⟨hw.2.1.writes hsymbol (BinaryOp.kind_legal _), ihl hw.1, ihr hw.2.2⟩

theorem Expr.Written.grammatical {w : List Token} {e : Expr} (h : e.Written w) :
    (∀ t ∈ w, t.Spelled) → e.Grammatical :=
  h.lift fun _ _ hlayer hw => hlayer.grammatical hw fun _ _ he => he

theorem Target.Written.grammatical {w : List Token} {target : Target} (h : target.Written w)
    (hw : ∀ t ∈ w, t.Spelled) : target.Grammatical := by
  cases h with
  | name hkind => exact (hw _ (List.mem_singleton.2 rfl)).writes hkind (by decide)
  | element hbase hopening hposition _ =>
    simp only [List.forall_mem_cons, List.forall_mem_append] at hw
    exact ⟨⟨_, rfl⟩, hw.1.writes hbase (by decide), hw.2.1.writes hopening (by decide),
      hposition.grammatical hw.2.2.1⟩

section

variable {B : Writing Block} (hB : ∀ v b, B v b → (∀ t ∈ v, t.Spelled) → b.Grammatical)

include hB

theorem ElseIfs.Layer.grammatical {w : List Token} {b : ElseIfs} (h : ElseIfs.Layer B w b)
    (hw : ∀ t ∈ w, t.Spelled) : b.Grammatical := by
  induction h with
  | nil => exact trivial
  | cons hkeyword hcondition _ hbody _ ih =>
    simp only [List.forall_mem_cons, List.forall_mem_append] at hw
    exact ⟨hw.1.writes hkeyword (by decide), hcondition.grammatical hw.2.1, hB _ _ hbody hw.2.2.2.1,
      ih hw.2.2.2.2⟩

theorem Else.Layer.grammatical {w : List Token} {b : Else} (h : Else.Layer B w b)
    (hw : ∀ t ∈ w, t.Spelled) : b.Grammatical := by
  cases h with
  | absent => exact trivial
  | present hkeyword hbody =>
    rw [List.forall_mem_cons] at hw
    exact ⟨hw.1.writes hkeyword (by decide), hB _ _ hbody hw.2⟩

theorem Statement.Layer.grammatical {w : List Token} {s : Statement} (h : Statement.Layer B w s)
    (hw : ∀ t ∈ w, t.Spelled) : s.Grammatical := by
  cases h with
  | assignment htarget hsymbol hvalue =>
    rw [List.forall_mem_append, List.forall_mem_cons] at hw
    exact ⟨htarget.grammatical hw.1, hw.2.1.writes hsymbol (by decide), hvalue.grammatical hw.2.2⟩
  | call hcallee hargs =>
    rw [List.forall_mem_cons] at hw
    exact ⟨hw.1.writes hcallee (by decide),
      hargs.grammatical hw.2 fun _ _ => Expr.Written.grammatical⟩
  | conditional hkeyword hcondition _ hbody helseIfs hotherwise _ =>
    simp only [List.forall_mem_cons, List.forall_mem_append] at hw
    obtain ⟨hk, hu, -, hv, hx, hy, -⟩ := hw
    exact ⟨hk.writes hkeyword (by decide), hcondition.grammatical hu, hB _ _ hbody hv,
      helseIfs.grammatical hB hx, hotherwise.grammatical hB hy⟩
  | loop hkeyword hbody _ =>
    rw [List.forall_mem_cons, List.forall_mem_append] at hw
    exact ⟨hw.1.writes hkeyword (by decide), hB _ _ hbody hw.2.1⟩
  | forEach hkeyword hitem _ hiterable _ hbody _ =>
    simp only [List.forall_mem_cons, List.forall_mem_append] at hw
    obtain ⟨hk, hi, -, hv, -, hx, -⟩ := hw
    exact ⟨hk.writes hkeyword (by decide), hi.writes hitem (by decide), hiterable.grammatical hv,
      hB _ _ hbody hx⟩
  | returning hkeyword hvalue =>
    rw [List.forall_mem_cons] at hw
    exact ⟨hw.1.writes hkeyword (by decide),
      hvalue.forall hw.2 fun _ _ => Expr.Written.grammatical⟩
  | exit hkeyword => exact (hw _ (List.mem_singleton.2 rfl)).writes hkeyword (by decide)

end

theorem Block.Written.grammatical {w : List Token} {b : Block} (h : b.Written w) :
    (∀ t ∈ w, t.Spelled) → b.Grammatical := by
  refine h.lift (P := fun w b => (∀ t ∈ w, t.Spelled) → b.Grammatical) ?_
  intro w statements hall hw
  refine (Statement.allGrammatical_iff _).2 (hall.forall hw fun v s hs hv => ?_)
  exact hs.holds hv fun u s hlayer => hlayer.grammatical fun _ _ hb => hb

theorem ConstantValue.Written.grammatical {w : List Token} {v : ConstantValue} (h : v.Written w)
    (hw : ∀ t ∈ w, t.Spelled) : v.Grammatical := by
  cases h with
  | simple hliteral => exact hliteral.grammatical hw
  | list hlist hopening => exact ⟨hlist.grammatical hw, hopening⟩

theorem ConstantDecl.Body.grammatical {w : List Token} {d : ConstantDecl}
    (h : ConstantDecl.Body w d) (hw : ∀ t ∈ w, t.Spelled) : d.Grammatical := by
  cases h with | mk hname _ hvalue =>
  simp only [List.forall_mem_cons] at hw
  exact ⟨hw.1.writes hname (by decide), hvalue.grammatical hw.2.2⟩

theorem ConstantList.Written.grammatical {w : List Token} {l : ConstantList} (h : l.Written w)
    (hw : ∀ t ∈ w, t.Spelled) : l.Grammatical := by
  cases h with | mk hkeyword hhead htail =>
  simp only [List.forall_mem_cons, List.forall_mem_append] at hw
  have hbody : ∀ v d, Closed ConstantDecl.Body v d → (∀ t ∈ v, t.Spelled) → d.Grammatical :=
    fun v d hd hv => hd.holds hv fun _ _ => ConstantDecl.Body.grammatical
  exact ⟨hw.1.writes hkeyword (by decide), List.cons_ne_nil _ _,
    List.forall_mem_cons.2 ⟨hbody _ _ hhead hw.2.1, htail.forall hw.2.2 hbody⟩⟩

theorem TypeExpr.Written.grammatical {w : List Token} {type : TypeExpr} (h : type.Written w)
    (hw : ∀ t ∈ w, t.Spelled) : type.Grammatical ∧ type.IsWritten := by
  cases h with
  | @simple t s hkind =>
    exact ⟨(hw _ (List.mem_singleton.2 rfl)).writes hkind s.kind_legal, trivial⟩
  | @list keyword ofWord t s hkeyword _ hkind =>
    simp only [List.forall_mem_cons] at hw
    exact ⟨⟨hw.1.writes hkeyword (by decide), hw.2.2.1.writes hkind s.kind_legal⟩, trivial⟩

theorem Identifier.Written.grammatical {w : List Token} {i : Identifier} (h : i.Written w)
    (hw : ∀ t ∈ w, t.Spelled) : i.Grammatical := by
  cases h with | mk hkind =>
  exact (hw _ (List.mem_singleton.2 rfl)).writes hkind (by decide)

theorem BindingDecl.Body.grammatical {w : List Token} {d : BindingDecl}
    (h : BindingDecl.Body w d) (hw : ∀ t ∈ w, t.Spelled) : d.Grammatical := by
  cases h with | mk hhead htail _ htype =>
  simp only [List.forall_mem_cons, List.forall_mem_append] at hw
  obtain ⟨htype, hwritten⟩ := htype.grammatical hw.2.2.2
  refine ⟨List.cons_ne_nil _ _, List.forall_mem_cons.2 ⟨hhead.grammatical hw.1, ?_⟩, htype, hwritten⟩
  exact htail.forall hw.2.1 fun _ _ hafter hv => hafter.holds hv fun _ _ =>
    Identifier.Written.grammatical

theorem BindingDecl.Body.closed_grammatical (v : List Token) (d : BindingDecl)
    (h : Closed BindingDecl.Body v d) (hv : ∀ t ∈ v, t.Spelled) : d.Grammatical :=
  h.holds hv fun _ _ => BindingDecl.Body.grammatical

theorem VariableList.Written.grammatical {w : List Token} {l : VariableList} (h : l.Written w)
    (hw : ∀ t ∈ w, t.Spelled) : l.Grammatical := by
  cases h with | mk hkeyword hhead htail =>
  simp only [List.forall_mem_cons, List.forall_mem_append] at hw
  exact ⟨hw.1.writes hkeyword (by decide), List.cons_ne_nil _ _, List.forall_mem_cons.2
    ⟨BindingDecl.Body.closed_grammatical _ _ hhead hw.2.1,
      htail.forall hw.2.2 BindingDecl.Body.closed_grammatical⟩⟩

theorem TypeExpr.ReturnWritten.grammatical {w : List Token} {type : TypeExpr}
    (h : type.ReturnWritten w) (hw : ∀ t ∈ w, t.Spelled) : type.Grammatical := by
  cases h with
  | none => exact trivial
  | some hafter => exact (hafter.holds hw fun _ _ => TypeExpr.Written.grammatical).1

theorem ProcedureDecl.Body.grammatical {w : List Token} {d : ProcedureDecl}
    (h : ProcedureDecl.Body w d) (hw : ∀ t ∈ w, t.Spelled) : d.Grammatical := by
  cases h with
    | mk hkeyword hname _ hparameters _ hreturn _ hconstants hvars _ hbody _ =>
  simp only [List.forall_mem_cons, List.forall_mem_append] at hw
  obtain ⟨hk, hn, -, hu, -, hv, -, hx, hy, -, hz, -⟩ := hw
  exact ⟨hk.writes hkeyword (by decide), hn.writes hname (by decide),
    hparameters.forall hu BindingDecl.Body.closed_grammatical, hreturn.grammatical hv,
    hconstants.forall hx fun _ _ => ConstantList.Written.grammatical,
    hvars.forall hy fun _ _ => VariableList.Written.grammatical, hbody.grammatical hz⟩

theorem Program.Written.grammatical {w : List Token} {p : Program} (h : p.Written w)
    (hw : ∀ t ∈ w, t.Spelled) : p.Grammatical := by
  cases h with | mk hconstants hvars hprocedures hkeyword hbody _ _ _ =>
  simp only [List.forall_mem_cons, List.forall_mem_append] at hw
  obtain ⟨hu, hv, hx, hk, hy, -⟩ := hw
  exact ⟨hk.writes hkeyword (by decide),
    hconstants.forall hu fun _ _ => ConstantList.Written.grammatical,
    hvars.forall hv fun _ _ => VariableList.Written.grammatical,
    hprocedures.forall hx fun _ _ hd hz => hd.holds hz fun _ _ => ProcedureDecl.Body.grammatical,
    hbody.grammatical hy⟩

/-- The tree that a source parses to is grammatical. -/
theorem grammatical_of_parseProgram {source : String} {p : Program}
    (h : (parseProgram source).1 = .ok p) : p.Grammatical :=
  ((parseProgram_eq_ok_iff source p).1 h).grammatical fun _ => spelled_of_mem_lex

end TeachLang
