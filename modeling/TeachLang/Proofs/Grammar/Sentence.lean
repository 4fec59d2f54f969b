import TeachLang.Proofs.Grammar.Ebnf
import TeachLang.Proofs.Grammar.Written

/-! # Sentences of the documented grammar

The kinds of the tokens that write a tree are a sentence of the documented grammar, and
tokens whose kinds are a sentence write some tree.
-/

namespace TeachLang

abbrev kinds (w : List Token) : List TokenKind := w.map (·.kind)

section

variable {α : Type} {R : Writing α} {x : Ebnf} {w : List Token}

theorem Repeated.derives {as : List α} (h : Repeated R w as)
    (hR : ∀ v a, R v a → Derives x (kinds v)) : Derives (.repeated x) (kinds w) := by
  induction h with
  | nil => exact .stop
  | cons hhead _ ih =>
    rw [kinds, List.map_append]
    exact .again (hR _ _ hhead) ih

theorem After.derives {kind : TokenKind} {a : α} (h : After kind R w a)
    (hR : ∀ v a, R v a → Derives x (kinds v)) :
    Derives (.andThen (.token kind) x) (kinds w) := by
  cases h with | mk hkind hitem =>
  rw [kinds, List.map_cons, hkind]
  exact .andThen (.token kind) (hR _ _ hitem)

theorem derives_commas {a : α} {v w : List Token} {as : List α} (hhead : R v a)
    (htail : Repeated (After .comma R) w as) (hR : ∀ v a, R v a → Derives x (kinds v)) :
    Derives (.commas x) (kinds v ++ kinds w) :=
  .andThen (hR _ _ hhead) (htail.derives fun _ _ h => h.derives hR)

theorem Separated.derives {as : List α} (h : Separated R w as)
    (hR : ∀ v a, R v a → Derives x (kinds v)) :
    Derives (.optional (.commas x)) (kinds w) := by
  cases h with
  | nil => exact .left .empty
  | cons hhead htail =>
    rw [kinds, List.map_append]
    exact .right (derives_commas hhead htail hR)

theorem Optional.derives {o : Option α} (h : Optional R w o)
    (hR : ∀ v a, R v a → Derives x (kinds v)) : Derives (.optional x) (kinds w) := by
  cases h with
  | none => exact .left .empty
  | some hitem => exact .right (hR _ _ hitem)

end

theorem Literal.Written.derives {w : List Token} {l : Literal} (h : l.Written w) :
    Derives (.part .simpleLiteral) (kinds w) := by
  cases h with | mk hkind =>
  exact .part (.oneOf hkind)

/-- A list literal by its brackets. -/
theorem ListLiteral.Written.derives {w : List Token} {l : ListLiteral} (h : l.Written w) :
    (l.opening.kind = .curlyOpen ∧ Derives (.seq [.token .curlyOpen,
      .optional (.commas (.part .simpleLiteral)), .token .curlyClose]) (kinds w)) ∨
    (l.opening.kind = .bracketOpen ∧ Derives (.seq [.token .bracketOpen,
      .optional (.commas (.part .simpleLiteral)), .token .bracketClose]) (kinds w)) := by
  cases h with | mk hopening helements hclosing =>
  have hinner := helements.derives fun _ _ => Literal.Written.derives
  simp only [First.listLiteral, List.mem_cons, List.not_mem_nil, or_false] at hopening
  rcases hopening with hopening | hopening
  · left
    rw [hopening] at hclosing
    refine ⟨hopening, ?_⟩
    simp only [kinds, List.map_cons, List.map_append, hopening, hclosing]
    exact .cons (.next hinner (.cons .done))
  · right
    rw [hopening] at hclosing
    refine ⟨hopening, ?_⟩
    simp only [kinds, List.map_cons, List.map_append, hopening, hclosing]
    exact .cons (.next hinner (.cons .done))

namespace Rank

def nonterminal : Rank → Nonterminal
  | level .logic => .expr
  | level .relational => .rel
  | level .sum => .sum
  | level .mul => .mul
  | unary => .unary
  | primary => .primary
  | atom => .atom

end Rank

theorem Level.mem_operators_iff (level : Level) (kind : TokenKind) :
    kind ∈ level.operators ↔ ∃ op : BinaryOp, op.kind = kind ∧ op.level = level := by
  constructor
  · intro h
    have hsome : ∀ k ∈ level.operators, (level.operator? k).isSome := by cases level <;> decide
    obtain ⟨op, hop⟩ := Option.isSome_iff_exists.1 (hsome kind h)
    obtain ⟨rfl, hlevel⟩ := (Level.operator?_eq_some_iff _ _ _).1 hop
    exact ⟨op, rfl, hlevel⟩
  · rintro ⟨op, rfl, rfl⟩
    cases op <;> decide

def Level.more (level : Level) : Ebnf :=
  .seq [.oneOf level.operators, .part level.operand.nonterminal]

theorem Level.rule_eq (level : Level) : (Rank.level level).nonterminal.rule =
    .seq [.part level.operand.nonterminal, .repeated level.more] := by
  cases level <;> rfl

theorem Expr.Arguments.derives {E : Writing Expr} {w : List Token} {args : List Expr}
    (h : Expr.Arguments E w args) (hE : ∀ v e, E v e → Derives (.part .expr) (kinds v))
    {xs : List Ebnf} {ks : List TokenKind} (hrest : Derives (.seq xs) ks) :
    Derives (.seq (.token .parenthesisOpen :: .optional (.commas (.part .expr)) ::
      .token .parenthesisClose :: xs)) (kinds w ++ ks) := by
  cases h with | mk hopening hargs hclosing =>
  simp only [kinds, List.map_cons, List.map_append, List.map_nil, List.cons_append,
    List.append_assoc, List.nil_append, hopening, hclosing]
  exact .cons (.next (hargs.derives hE) (.cons hrest))

theorem Expr.Layer.derives {E : Writing Expr}
    (hE : ∀ v e, E v e → Derives (.part .expr) (kinds v)) {r : Rank} {w : List Token} {e : Expr}
    (h : Expr.Layer E r w e) : Derives (.part r.nonterminal) (kinds w) := by
  induction h with
  | name hkind =>
    rw [kinds, List.map_singleton, hkind]
    exact .part (.right (.left (.token .identifier)))
  | call hcallee hargs =>
    have hrest := hargs.derives hE .done
    rw [List.append_nil] at hrest
    rw [kinds, List.map_cons, hcallee]
    exact .part (.right (.right (.left (.cons hrest))))
  | parentheses hopening hinner hclosing =>
    simp only [kinds, List.map_cons, List.map_append, hopening, hclosing]
    exact .part (.left (.cons (.next (hE _ _ hinner) (.cons .done))))
  | literal hliteral => exact .part (.right (.right (.right (.left hliteral.derives))))
  | list hlist =>
    rcases hlist.derives with ⟨-, hlist⟩ | ⟨-, hlist⟩
    · exact .part (.right (.right (.right (.right (.left hlist)))))
    · exact .part (.right (.right (.right (.right (.right (.left hlist))))))
  | atom _ ih =>
    have h : Derives Nonterminal.primary.rule _ := .next ih (.last (.left .empty))
    rw [List.append_nil] at h
    exact .part h
  | index _ hopening hposition hclosing ih =>
    have hinner := hE _ _ hposition
    simp only [kinds, List.map_cons, List.map_append, hopening, hclosing]
    exact .part (.next ih (.last (.right (.cons (.next hinner (.cons .done))))))
  | primary _ ih => exact .part (.right (.left ih))
  | @unary symbol op w operand hsymbol _ ih =>
    have hop : op.kind ∈ First.unaryOperator := by cases op <;> decide
    rw [kinds, List.map_cons, hsymbol]
    exact .part (.left (.next (.oneOf hop) (.last ih)))
  | @operand level w e _ ih =>
    have h := Derives.next ih (.last (.stop (x := level.more)))
    rw [List.append_nil, ← level.rule_eq] at h
    exact .part h
  | @binary v w symbol op lhs rhs _ hsymbol _ ihl ihr =>
    have hop : op.kind ∈ op.level.operators := (op.level.mem_operators_iff _).2 ⟨op, rfl, rfl⟩
    have hmore : Derives op.level.more (op.kind :: kinds w) := .next (.oneOf hop) (.last ihr)
    cases ihl with | part hrule =>
    rw [Level.rule_eq] at hrule
    obtain ⟨js, ks, hsplit, hhead, hrest⟩ := Derives.seq_cons hrule
    have h := Derives.next hhead (.last ((Derives.seq_singleton hrest).snoc hmore))
    rw [← Level.rule_eq, ← List.append_assoc, ← hsplit] at h
    rw [kinds, List.map_append, List.map_cons, hsymbol]
    exact .part h

theorem Expr.Written.derives {w : List Token} {e : Expr} (h : e.Written w) :
    Derives (.part .expr) (kinds w) :=
  h.lift fun _ _ hlayer => hlayer.derives fun _ _ h => h

section

variable {B : Writing Block}

def elseIfForm : Ebnf :=
  .seq [.token .kwElseif, .part .expr, .token .kwThen, .repeated (.part .statement)]

theorem ElseIfs.Layer.derives (hB : ∀ v b, B v b → Derives (.repeated (.part .statement)) (kinds v))
    {w : List Token} {b : ElseIfs} (h : ElseIfs.Layer B w b) :
    Derives (.repeated elseIfForm) (kinds w) := by
  induction h with
  | nil => exact .stop
  | @cons keyword thenWord u v w condition body rest hkeyword hcondition hthen hbody _ ih =>
    have hbranch : Derives elseIfForm (.kwElseif :: (kinds u ++ .kwThen :: kinds v)) :=
      .cons (.next hcondition.derives (.cons (.last (hB _ _ hbody))))
    have h := Derives.again hbranch ih
    simp only [kinds, List.map_cons, List.map_append, hkeyword, hthen]
    simpa using h

theorem Else.Layer.derives (hB : ∀ v b, B v b → Derives (.repeated (.part .statement)) (kinds v))
    {w : List Token} {b : Else} (h : Else.Layer B w b) :
    Derives (.optional (.seq [.token .kwElse, .repeated (.part .statement)])) (kinds w) := by
  cases h with
  | absent => exact .left .empty
  | present hkeyword hbody =>
    rw [kinds, List.map_cons, hkeyword]
    exact .right (.cons (.last (hB _ _ hbody)))

theorem Statement.Layer.derives
    (hB : ∀ v b, B v b → Derives (.repeated (.part .statement)) (kinds v)) {w : List Token}
    {s : Statement} (h : Statement.Layer B w s) :
    Derives (.part .statement) (kinds w ++ [.semicolon]) := by
  cases h with
  | assignment htarget hsymbol hvalue =>
    have hvalue := hvalue.derives
    cases htarget with
    | name hkind =>
      simp only [kinds, List.map_cons, List.cons_append, List.nil_append, hkind, hsymbol]
      exact .part (.left (.cons (.cons (.next hvalue (.cons .done)))))
    | element hbase hopening hposition hclosing =>
      have hposition := hposition.derives
      simp only [kinds, List.map_append, List.map_cons, List.cons_append, List.nil_append,
        List.append_assoc, hbase, hopening, hclosing, hsymbol]
      exact .part (.right (.left (.cons (.cons (.next hposition (.cons (.cons (.next hvalue
        (.cons .done)))))))))
  | call hcallee hargs =>
    rw [kinds, List.map_cons, hcallee, List.cons_append]
    exact .part (.right (.right (.left (.cons
      (hargs.derives (fun _ _ => Expr.Written.derives) (.cons .done))))))
  | conditional hkeyword hcondition hthen hbody helseIfs hotherwise hend =>
    have hcondition := hcondition.derives
    have helseIfs := helseIfs.derives hB
    have hotherwise := hotherwise.derives hB
    simp only [kinds, List.map_append, List.map_cons, List.map_nil, List.cons_append,
      List.nil_append, List.append_assoc, hkeyword, hthen, hend]
    exact .part (.right (.right (.right (.left (.cons (.next hcondition (.cons (.next (hB _ _ hbody)
      (.next helseIfs (.next hotherwise (.cons (.cons .done))))))))))))
  | loop hkeyword hbody hend =>
    simp only [kinds, List.map_append, List.map_cons, List.map_nil, List.cons_append,
      List.nil_append, List.append_assoc, hkeyword, hend]
    exact .part (.right (.right (.right (.right (.left (.cons (.next (hB _ _ hbody) (.cons
      (.cons .done)))))))))
  | forEach hkeyword hitem hin hiterable hdo hbody hend =>
    have hiterable := hiterable.derives
    simp only [kinds, List.map_append, List.map_cons, List.map_nil, List.cons_append,
      List.nil_append, List.append_assoc, hkeyword, hitem, hin, hdo, hend]
    exact .part (.right (.right (.right (.right (.right (.left (.cons (.cons (.cons (.next hiterable
      (.cons (.next (hB _ _ hbody) (.cons (.cons .done))))))))))))))
  | returning hkeyword hvalue =>
    have hvalue := hvalue.derives fun _ _ h => Expr.Written.derives h
    rw [kinds, List.map_cons, hkeyword, List.cons_append]
    exact .part (.right (.right (.right (.right (.right (.right (.left (.cons (.next hvalue
      (.cons .done))))))))))
  | exit hkeyword =>
    rw [kinds, List.map_singleton, hkeyword]
    exact .part (.right (.right (.right (.right (.right (.right (.right (.left (.cons
      (.cons .done))))))))))

end

theorem Block.Written.derives {w : List Token} {b : Block} (h : b.Written w) :
    Derives (.repeated (.part .statement)) (kinds w) := by
  refine h.lift (P := fun w _ => Derives (.repeated (.part .statement)) (kinds w)) ?_
  intro w statements hall
  refine hall.derives fun v s hs => ?_
  cases hs with | mk hlayer hsemicolon =>
  rw [kinds, List.map_append, List.map_singleton, hsemicolon]
  exact hlayer.derives fun _ _ hb => hb

theorem ConstantValue.Written.derives {w : List Token} {v : ConstantValue} (h : v.Written w) :
    Derives (.part .constantValue) (kinds w) := by
  cases h with
  | simple hliteral => exact .part (.left hliteral.derives)
  | list hlist hopening =>
    rcases hlist.derives with ⟨-, hlist⟩ | ⟨hbracket, -⟩
    · exact .part (.right (.left hlist))
    · rw [hopening] at hbracket
      cases hbracket

def constantForm : Ebnf :=
  .seq [.token .identifier, .token .colonEqual, .part .constantValue, .token .semicolon]

theorem ConstantDecl.Body.derives {w : List Token} {d : ConstantDecl}
    (h : Closed ConstantDecl.Body w d) : Derives constantForm (kinds w) := by
  rcases h with ⟨⟨hname, hsymbol, hvalue⟩, hsemicolon⟩
  have hvalue := hvalue.derives
  simp only [kinds, List.map_append, List.map_cons, List.map_nil, List.cons_append, hname, hsymbol,
    hsemicolon]
  exact .cons (.cons (.next hvalue (.cons .done)))

theorem ConstantList.Written.derives {w : List Token} {l : ConstantList} (h : l.Written w) :
    Derives (.part .constBlock) (kinds w) := by
  cases h with | mk hkeyword hhead htail =>
  have hall : Derives (.atLeastOne constantForm) _ :=
    .andThen (ConstantDecl.Body.derives hhead) (htail.derives fun _ _ => ConstantDecl.Body.derives)
  simp only [kinds, List.map_cons, List.map_append, hkeyword]
  exact .part (.cons (.last hall))

theorem derives_simpleType {t : Token} {s : SimpleType} (h : t.kind = s.kind) :
    Derives (.part .simpleType) [t.kind] := by
  rw [h]
  cases s <;> exact .part (.oneOf (by decide))

theorem TypeExpr.Written.derives {w : List Token} {type : TypeExpr} (h : type.Written w) :
    Derives (.part .type) (kinds w) := by
  cases h with
  | simple hkind => exact .part (.left (derives_simpleType hkind))
  | list hkeyword hof hkind =>
    simp only [kinds, List.map_cons, List.map_nil, hkeyword, hof]
    exact .part (.right (.left (.cons (.cons (.last (derives_simpleType hkind))))))

theorem Identifier.Written.derives {w : List Token} {i : Identifier} (h : i.Written w) :
    Derives (.token .identifier) (kinds w) := by
  cases h with | mk hkind =>
  rw [kinds, List.map_singleton, hkind]
  exact .token .identifier

theorem BindingDecl.Body.derives {w : List Token} {d : BindingDecl}
    (h : Closed BindingDecl.Body w d) : Derives (.part .binding) (kinds w) := by
  rcases h with ⟨⟨hhead, htail, hcolon, htype⟩, hsemicolon⟩
  have hnames := derives_commas hhead htail fun _ _ => Identifier.Written.derives
  have htype := htype.derives
  rw [← List.append_assoc]
  simp only [kinds, List.map_append, List.map_cons, List.map_nil, List.cons_append,
    List.append_assoc, hcolon, hsemicolon] at hnames htype ⊢
  rw [← List.append_assoc]
  exact .part (.next hnames (.cons (.next htype (.cons .done))))

theorem VariableList.Written.derives {w : List Token} {l : VariableList} (h : l.Written w) :
    Derives (.part .varBlock) (kinds w) := by
  cases h with | mk hkeyword hhead htail =>
  have hall : Derives (.atLeastOne (.part .binding)) _ :=
    .andThen (BindingDecl.Body.derives hhead) (htail.derives fun _ _ => BindingDecl.Body.derives)
  simp only [kinds, List.map_cons, List.map_append, hkeyword]
  exact .part (.cons (.last hall))

theorem TypeExpr.ReturnWritten.derives {w : List Token} {type : TypeExpr}
    (h : type.ReturnWritten w) :
    Derives (.optional (.seq [.token .colon, .part .type])) (kinds w) := by
  rcases h with _ | ⟨hcolon, htype⟩
  · exact .left .empty
  · have htype := htype.derives
    rw [kinds, List.map_cons, hcolon]
    exact .right (.cons (.last htype))

theorem ProcedureDecl.Body.derives {w : List Token} {d : ProcedureDecl}
    (h : Closed ProcedureDecl.Body w d) : Derives (.part .procedure) (kinds w) := by
  rcases h with ⟨⟨hkeyword, hname, hopening, hparameters, hclosing, hreturn, hsemicolon, hconstants,
    hvars, hbegin, hbody, hend⟩, hlast⟩
  have hparameters := hparameters.derives fun _ _ => BindingDecl.Body.derives
  have hreturn := hreturn.derives
  have hconstants := hconstants.derives fun _ _ => ConstantList.Written.derives
  have hvars := hvars.derives fun _ _ => VariableList.Written.derives
  have hbody := hbody.derives
  simp only [kinds, List.map_append, List.map_cons, List.map_nil, List.cons_append,
    List.nil_append, List.append_assoc, hkeyword, hname, hopening, hclosing, hsemicolon, hbegin, hend,
    hlast]
  exact .part (.cons (.cons (.cons (.next hparameters (.cons (.next hreturn (.cons (.next hconstants
    (.next hvars (.cons (.next hbody (.cons (.cons .done)))))))))))))

/-- The parts of a program in front of the end of its source. -/
theorem Program.Written.derives {w : List Token} {p : Program} (h : p.Written w) :
    Derives (.part .program) (kinds w) := by
  cases h with
    | mk hconstants hvars hprocedures hkeyword hbody hend hsemicolon heof =>
  have hconstants := hconstants.derives fun _ _ => ConstantList.Written.derives
  have hvars := hvars.derives fun _ _ => VariableList.Written.derives
  have hprocedures := hprocedures.derives fun _ _ => ProcedureDecl.Body.derives
  have hbody := hbody.derives
  simp only [kinds, List.map_append, List.map_cons, List.map_nil, hkeyword, hend, hsemicolon, heof]
  exact .part (.next hconstants (.next hvars (.next hprocedures (.cons (.next hbody (.cons (.cons
    (.cons .done))))))))

end TeachLang
