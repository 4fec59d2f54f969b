import TeachLang.Proofs.Grammar.Written
import TeachLang.Proofs.Nodes.Threaded

/-! # Written nodes

The grammar reads every node from a run of tokens.  Such a run threads the runs of the node's parts
in their order, and has no meaningful tokens outside of them but the one that the node stands for.
-/

namespace TeachLang

theorem Expr.toNodes_eq_map (es : List Expr) : Expr.toNodes es = es.map Expr.toNode := by
  induction es with
  | nil => rfl
  | cons e es ih => rw [toNodes, ih, List.map_cons]

theorem Statement.toNodes_eq_map (ss : List Statement) :
    Statement.toNodes ss = ss.map Statement.toNode := by
  induction ss with
  | nil => rfl
  | cons s ss ih => rw [toNodes, ih, List.map_cons]

/-- The runs of tokens that the grammar reads nodes from, with the punctuation that belongs to
them. -/
inductive Node.Written : Writing Node
  | identifier {w : List Token} {i : Identifier} (identifier_ok : i.Written w) :
      Node.Written w i.toNode
  | literal {w : List Token} {l : Literal} (literal_ok : l.Written w) : Node.Written w l.toNode
  | listLiteral {w : List Token} {l : ListLiteral} (list_ok : l.Written w) : Node.Written w l.toNode
  | expr {rank : Rank} {w : List Token} {e : Expr}
      (layer : Expr.Layer Expr.Written rank w e) : Node.Written w e.toNode
  | target {w : List Token} {target : Target} (target_ok : target.Written w) :
      Node.Written w target.toNode
  | statement {w : List Token} {s : Statement} (statement_ok : s.Written w) :
      Node.Written w s.toNode
  | block {w : List Token} {b : Block} (block_ok : b.Written w) : Node.Written w b.toNode
  | elseIfs {w : List Token} {elseIfs : ElseIfs} (layer : ElseIfs.Layer Block.Written w elseIfs) :
      Node.Written w ⟨.elseIfList, none, none, none, elseIfs.toNodes⟩
  | elseIf {keyword thenWord : Token} {v w : List Token} {condition : Expr} {body : Block}
      (keyword_kind : keyword.kind = .kwElseif) (condition_ok : condition.Written v)
      (then_kind : thenWord.kind = .kwThen) (body_ok : body.Written w) :
      Node.Written (keyword :: (v ++ thenWord :: w))
        ⟨.elseIf, some keyword, none, none, [condition.toNode, body.toNode]⟩
  | otherwise {keyword : Token} {w : List Token} {body : Block}
      (keyword_kind : keyword.kind = .kwElse) (body_ok : body.Written w) :
      Node.Written (keyword :: w) ⟨.otherwise, some keyword, none, none, [body.toNode]⟩
  | type {w : List Token} {type : TypeExpr} (type_ok : type.Written w) : Node.Written w type.toNode
  | returnType {w : List Token} {type : TypeExpr} (type_ok : type.ReturnWritten w) :
      Node.Written w type.toNode
  | constantDecl {w : List Token} {d : ConstantDecl} (body : Closed ConstantDecl.Body w d) :
      Node.Written w d.toNode
  | constantList {w : List Token} {l : ConstantList} (list_ok : l.Written w) :
      Node.Written w l.toNode
  | bindingDecl {kind : NodeKind} {w : List Token} {d : BindingDecl}
      (body : Closed BindingDecl.Body w d) : Node.Written w (d.toNode kind)
  | variableList {w : List Token} {l : VariableList} (list_ok : l.Written w) :
      Node.Written w l.toNode
  | parameterList {w : List Token} {ds : List BindingDecl}
      (items : Repeated (Closed BindingDecl.Body) w ds) :
      Node.Written w (ParameterList.toNode ⟨ds, none⟩)
  | procedureDecl {w : List Token} {d : ProcedureDecl} (body : Closed ProcedureDecl.Body w d) :
      Node.Written w d.toNode
  | procedureList {w : List Token} {ds : List ProcedureDecl}
      (items : Repeated (Closed ProcedureDecl.Body) w ds) :
      Node.Written w (ProcedureList.toNode ⟨ds, none⟩)
  | program {w : List Token} {p : Program} (program_ok : p.Written w) : Node.Written w p.toNode

namespace Node

def own (n : Node) : List Token := n.anchor.toList.filter (·.kind ∈ TokenKind.meaningful)

/-- What a run of tokens has to do with the node that is read from it: the parts of the node are
threaded on it, its own token is the only meaningful one outside of them, and the token that the
node stands for is in the run. -/
structure Parted (w : List Token) (n : Node) : Prop where
  threaded : Threaded Written n.own w n.children
  anchor_mem : ∀ t ∈ n.anchor, t ∈ w

namespace Parted

variable {w : List Token} {n : Node} {t : Token} {kind : TokenKind}

theorem of_kept (hanchor : n.anchor = some t) (hkind : t.kind = kind)
    (hkept : kind ∈ TokenKind.meaningful) (h : Threaded Written [t] w n.children) (hmem : t ∈ w) :
    Parted w n := by
  have hown : n.own = [t] := by simp [own, hanchor, hkind, hkept]
  refine ⟨hown ▸ h, fun u hu => ?_⟩
  rwa [← Option.some.inj (hanchor.symm.trans hu)]

theorem of_plain (hanchor : n.anchor = some t) (hkind : t.kind = kind)
    (hplain : kind ∉ TokenKind.meaningful) (h : Threaded Written [] w n.children) (hmem : t ∈ w) :
    Parted w n := by
  have hown : n.own = [] := by simp [own, hanchor, hkind, hplain]
  refine ⟨hown ▸ h, fun u hu => ?_⟩
  rwa [← Option.some.inj (hanchor.symm.trans hu)]

theorem of_none (hanchor : n.anchor = none) (h : Threaded Written [] w n.children) :
    Parted w n := by
  have hown : n.own = [] := by simp [own, hanchor]
  exact ⟨hown ▸ h, by simp [hanchor]⟩

theorem concat (h : Parted w n) (hkind : t.kind = kind) (hplain : kind ∉ TokenKind.meaningful) :
    Parted (w ++ [t]) n :=
  ⟨h.threaded.concat hkind hplain, fun u hu => List.mem_append_left _ (h.anchor_mem u hu)⟩

theorem skip (h : Parted w n) (hkind : t.kind = kind) (hplain : kind ∉ TokenKind.meaningful) :
    Parted (t :: w) n :=
  ⟨.skip hkind hplain h.threaded, fun u hu => List.mem_cons_of_mem _ (h.anchor_mem u hu)⟩

end Parted
end Node

open Node (Parted)

/-! ## Expressions -/

theorem Identifier.Written.parted {w : List Token} {i : Identifier} (h : i.Written w) :
    Parted w i.toNode := by
  cases h with | mk hkind =>
  exact .of_kept rfl hkind (by decide) (.own hkind (by decide) .nil) List.mem_cons_self

theorem Literal.Written.parted {w : List Token} {l : Literal} (h : l.Written w) :
    Parted w l.toNode := by
  have hkept : ∀ kind ∈ First.simpleLiteral, kind ∈ TokenKind.meaningful := by decide
  cases h with | mk hkind _ =>
  exact .of_kept rfl rfl (hkept _ hkind) (.own rfl (hkept _ hkind) .nil) List.mem_cons_self

theorem ListLiteral.Written.parted {w : List Token} {l : ListLiteral} (h : l.Written w) :
    Parted w l.toNode := by
  have hplain : ∀ kind ∈ First.listLiteral, kind ∉ TokenKind.meaningful ∧
      Grammar.closing kind ∉ TokenKind.meaningful := by decide
  cases h with | mk hopening helements hclosing =>
  obtain ⟨hopen, hclose⟩ := hplain _ hopening
  refine .of_plain rfl rfl hopen (.skip rfl hopen ?_) List.mem_cons_self
  exact (Threaded.separated helements fun _ _ => .literal).concat hclosing hclose

section

variable {P : Writing Expr} (hP : ∀ w e, P w e → e.Written w ∧ Parted w e.toNode)

theorem Expr.Written.node {w : List Token} {e : Expr} (h : e.Written w) :
    Node.Written w e.toNode := by
  cases h with | mk hlayer =>
  exact .expr hlayer

theorem Expr.Arguments.threaded {E : Writing Expr} {w : List Token} {args : List Expr}
    (h : Expr.Arguments E w args) (hE : ∀ v e, E v e → e.Written v) :
    Threaded Node.Written [] w (Expr.toNodes args) := by
  cases h with | mk hopening hargs hclosing =>
  rw [Expr.toNodes_eq_map]
  refine .skip hopening (by decide) (Threaded.concat ?_ hclosing (by decide))
  exact .separated hargs fun v e he => (hE v e he).node

include hP

theorem Expr.Layer.parted {rank : Rank} {w : List Token} {e : Expr} (h : Expr.Layer P rank w e) :
    Parted w e.toNode := by
  have hwhole : ∀ v e, P v e → e.Written v := fun v e he => (hP v e he).1
  have hnode {rank : Rank} {v : List Token} {e : Expr} (h : Expr.Layer P rank v e) :
      Node.Written v e.toNode := .expr (h.imp fun v e _ => hwhole v e)
  induction h with
  | name hkind =>
    exact .of_kept rfl hkind (by decide) (.own hkind (by decide) .nil) List.mem_cons_self
  | call hcallee hargs =>
    exact .of_kept rfl hcallee (by decide)
      (.own hcallee (by decide) (hargs.threaded hwhole)) List.mem_cons_self
  | parentheses hopening hinner hclosing =>
    exact ((hP _ _ hinner).2.concat hclosing (by decide)).skip hopening (by decide)
  | literal hliteral => exact hliteral.parted
  | list hlist => exact hlist.parted
  | atom _ ih => exact ih
  | @index v w opening closing target position htarget hopening hposition hclosing _ =>
    refine .of_plain rfl hopening (by decide) (.part (hnode htarget) (.skip hopening (by decide)
      (.part (hwhole _ _ hposition).node (.skip hclosing (by decide) .nil)))) ?_
    simp
  | primary _ ih => exact ih
  | @unary symbol op w operand hsymbol hoperand _ =>
    have hkept : op.kind ∈ TokenKind.meaningful := by cases op <;> decide
    exact .of_kept rfl hsymbol hkept (.own hsymbol hkept (.single (hnode hoperand)))
      List.mem_cons_self
  | operand _ ih => exact ih
  | @binary v w symbol op lhs rhs hlhs hsymbol hrhs _ _ =>
    have hkept : op.kind ∈ TokenKind.meaningful := by cases op <;> decide
    refine .of_kept rfl hsymbol hkept (.part (hnode hlhs) (.own hsymbol hkept
      (.single (hnode hrhs)))) ?_
    simp

end

theorem Expr.Written.parted {w : List Token} {e : Expr} (h : e.Written w) : Parted w e.toNode := by
  refine (Expr.Written.lift (P := fun w e => e.Written w ∧ Parted w e.toNode) ?_ h).2
  exact fun v e hlayer => ⟨.mk (hlayer.imp fun _ _ _ he => he.1),
    Expr.Layer.parted (fun _ _ he => he) hlayer⟩

/-! ## Statements -/

theorem Target.Written.parted {w : List Token} {target : Target} (h : target.Written w) :
    Parted w target.toNode := by
  cases h with
  | name hkind => exact (Identifier.Written.mk hkind).parted
  | element hbase hopening hposition hclosing =>
    refine .of_plain rfl hopening (by decide) (.part (v := [_]) (.identifier (.mk hbase))
      (.skip hopening (by decide) (.part hposition.node (.skip hclosing (by decide) .nil)))) ?_
    simp

theorem ElseIfs.Layer.threaded {w : List Token} {elseIfs : ElseIfs}
    (h : ElseIfs.Layer Block.Written w elseIfs) :
    Threaded Node.Written [] w elseIfs.toNodes := by
  induction h with
  | nil => exact .nil
  | cons hkeyword hcondition hthen hbody _ ih =>
    have hpart := Threaded.part (.elseIf hkeyword hcondition hthen hbody) ih
    rw [ElseIfs.toNodes]
    simpa using hpart

theorem Else.Layer.threaded {w : List Token} {otherwise : Else}
    (h : Else.Layer Block.Written w otherwise) :
    Threaded Node.Written [] w otherwise.toNodes := by
  cases h with
  | absent => exact .nil
  | present hkeyword hbody => exact .single (.otherwise hkeyword hbody)

theorem Block.Written.parted {w : List Token} {b : Block} (h : b.Written w) :
    Parted w b.toNode := by
  cases h with | mk hlayer =>
  refine .of_none rfl ?_
  rw [Block.toNode, Statement.toNodes_eq_map]
  exact .repeated hlayer fun _ _ hs => .single (.statement hs)

theorem Statement.Layer.parted {w : List Token} {s : Statement}
    (h : Statement.Layer Block.Written w s) : Parted w s.toNode := by
  cases h with
  | assignment htarget hsymbol hvalue =>
    refine .of_plain rfl hsymbol (by decide)
      (.part (.target htarget) (.skip hsymbol (by decide) (.single hvalue.node))) ?_
    simp
  | call hcallee hargs =>
    exact .of_kept rfl hcallee (by decide)
      (.own hcallee (by decide) (hargs.threaded fun _ _ he => he)) List.mem_cons_self
  | conditional hkeyword hcondition hthen hbody helseIfs hotherwise hend =>
    refine .of_kept rfl hkeyword (by decide) (.own hkeyword (by decide) (.part hcondition.node
      (.skip hthen (by decide) (.part (.block hbody) (.part (.elseIfs helseIfs) ?_)))))
      List.mem_cons_self
    exact hotherwise.threaded.concat hend (by decide)
  | loop hkeyword hbody hend =>
    exact .of_kept rfl hkeyword (by decide) (.own hkeyword (by decide)
      (.part (.block hbody) (.skip hend (by decide) .nil))) List.mem_cons_self
  | forEach hkeyword hitem hin hiterable hdo hbody hend =>
    exact .of_kept rfl hkeyword (by decide) (.own hkeyword (by decide) (.part (v := [_])
      (.identifier (.mk hitem)) (.skip hin (by decide) (.part hiterable.node
        (.skip hdo (by decide) (.part (.block hbody) (.skip hend (by decide) .nil)))))))
      List.mem_cons_self
  | returning hkeyword hvalue =>
    exact .of_kept rfl hkeyword (by decide) (.own hkeyword (by decide)
      (.optional hvalue fun _ _ he => he.node)) List.mem_cons_self
  | exit hkeyword =>
    exact .of_kept rfl hkeyword (by decide) (.own hkeyword (by decide) .nil) List.mem_cons_self

/-! ## Declarations -/

theorem SimpleType.kind_not_meaningful (s : SimpleType) : s.kind ∉ TokenKind.meaningful := by
  cases s <;> decide

/-- A written type stands for the word of a simple type. -/
theorem TypeExpr.Written.exists_anchor {w : List Token} {type : TypeExpr} (h : type.Written w) :
    ∃ t s, type.anchor? = some t ∧ t.kind = SimpleType.kind s ∧ t ∈ w := by
  cases h with
  | simple hkind => exact ⟨_, _, rfl, hkind, List.mem_cons_self⟩
  | list _ _ hkind => exact ⟨_, _, rfl, hkind, by simp⟩

theorem TypeExpr.Written.parted {w : List Token} {type : TypeExpr} (h : type.Written w) :
    Parted w type.toNode := by
  obtain ⟨t, s, hanchor, hkind, hmem⟩ := h.exists_anchor
  refine .of_plain hanchor hkind s.kind_not_meaningful ?_ hmem
  cases h with
  | simple hkind => exact .skip hkind (SimpleType.kind_not_meaningful _) .nil
  | list hkeyword hof hkind =>
    exact .skip hkeyword (by decide) (.skip hof (by decide)
      (.skip hkind (SimpleType.kind_not_meaningful _) .nil))

theorem TypeExpr.ReturnWritten.parted {w : List Token} {type : TypeExpr}
    (h : type.ReturnWritten w) : Parted w type.toNode := by
  cases h with
  | none => exact .of_none rfl .nil
  | some hafter =>
    cases hafter with | mk hcolon htype =>
    exact htype.parted.skip hcolon (by decide)

theorem ConstantValue.Written.node {w : List Token} {value : ConstantValue} (h : value.Written w) :
    Node.Written w value.toNode := by
  cases h with
  | simple hliteral => exact .literal hliteral
  | list hlist _ => exact .listLiteral hlist

theorem ConstantDecl.Body.parted {w : List Token} {d : ConstantDecl} (h : ConstantDecl.Body w d) :
    Parted w d.toNode := by
  cases h with | mk hname hsymbol hvalue =>
  exact .of_kept rfl hname (by decide) (.own hname (by decide)
    (.skip hsymbol (by decide) (.single hvalue.node))) List.mem_cons_self

theorem ConstantList.Written.parted {w : List Token} {l : ConstantList} (h : l.Written w) :
    Parted w l.toNode := by
  cases h with | mk hkeyword hhead htail =>
  refine .of_plain rfl hkeyword (by decide) (.skip hkeyword (by decide) ?_) List.mem_cons_self
  exact .part (.constantDecl hhead) (.repeated htail fun _ _ hd => .single (.constantDecl hd))

theorem BindingDecl.Body.parted {kind : NodeKind} {w : List Token} {d : BindingDecl}
    (h : BindingDecl.Body w d) : Parted w (d.toNode kind) := by
  cases h with | @mk colon u v w i is type hhead htail hcolon htype =>
  have hthreaded : Threaded Node.Written [] (u ++ (v ++ colon :: w))
      ((i :: is).map Identifier.toNode ++ [type.toNode]) := by
    refine .part (.identifier hhead) ((Threaded.commas htail fun _ _ => .identifier).append ?_)
    exact .skip hcolon (by decide) (.single (.type htype))
  obtain ⟨t, s, hanchor, hkind, hmem⟩ := htype.exists_anchor
  refine .of_plain hanchor hkind s.kind_not_meaningful hthreaded ?_
  simp [hmem]

theorem VariableList.Written.parted {w : List Token} {l : VariableList} (h : l.Written w) :
    Parted w l.toNode := by
  cases h with | mk hkeyword hhead htail =>
  refine .of_plain rfl hkeyword (by decide) (.skip hkeyword (by decide) ?_) List.mem_cons_self
  exact .part (.bindingDecl hhead) (.repeated htail fun _ _ hd => .single (.bindingDecl hd))

theorem threaded_declarations {v w : List Token} {constants : Option ConstantList}
    {vars : Option VariableList} (hconstants : Optional ConstantList.Written v constants)
    (hvars : Optional VariableList.Written w vars) :
    Threaded Node.Written [] (v ++ w) ((constants.map ConstantList.toNode).toList ++
      (vars.map VariableList.toNode).toList) :=
  (Threaded.optional hconstants fun _ _ => .constantList).append
    (.optional hvars fun _ _ => .variableList)

theorem ProcedureDecl.Body.parted {w : List Token} {d : ProcedureDecl}
    (h : ProcedureDecl.Body w d) : Parted w d.toNode := by
  cases h with
  | mk hkeyword hname hopening hparameters hclosing hreturn hsemicolon hconstants hvars hbegin hbody
      hend =>
  refine .of_kept rfl hname (by decide) (.skip hkeyword (by decide) (.own hname (by decide)
    (.skip hopening (by decide) (.part (.parameterList hparameters) (.skip hclosing (by decide)
      (.part (.returnType hreturn) (.skip hsemicolon (by decide) ?_))))))) (by simp)
  have hblock := Threaded.skip hbegin (by decide)
    (.part (Node.Written.block hbody) (.skip hend (by decide) .nil))
  simpa using (threaded_declarations hconstants hvars).append hblock

theorem Program.Written.parted {w : List Token} {p : Program} (h : p.Written w) :
    Parted w p.toNode := by
  cases h with
  | mk hconstants hvars hprocedures hkeyword hbody hend hsemicolon heof =>
  refine .of_plain rfl hkeyword (by decide) ?_ (by simp)
  have hrest := Threaded.part (Node.Written.procedureList hprocedures) (.skip hkeyword (by decide)
    (.part (Node.Written.block hbody) (.skip hend (by decide) (.skip hsemicolon (by decide)
      (.skip heof (by decide) .nil)))))
  simpa [Program.toNode] using (threaded_declarations hconstants hvars).append hrest

/-- The run of a node threads its parts. -/
theorem Node.Written.parted {w : List Token} {n : Node} (h : n.Written w) : n.Parted w := by
  cases h with
  | identifier h => exact h.parted
  | literal h => exact h.parted
  | listLiteral h => exact h.parted
  | expr hlayer => exact hlayer.parted fun _ _ he => ⟨he, he.parted⟩
  | target h => exact h.parted
  | statement h =>
    cases h with | mk hlayer hsemicolon =>
    exact hlayer.parted.concat hsemicolon (by decide)
  | block h => exact h.parted
  | elseIfs hlayer => exact .of_none rfl hlayer.threaded
  | elseIf hkeyword hcondition hthen hbody =>
    exact .of_kept rfl hkeyword (by decide) (.own hkeyword (by decide) (.part hcondition.node
      (.skip hthen (by decide) (.single (.block hbody))))) List.mem_cons_self
  | otherwise hkeyword hbody =>
    exact .of_kept rfl hkeyword (by decide) (.own hkeyword (by decide) (.single (.block hbody)))
      List.mem_cons_self
  | type h => exact h.parted
  | returnType h => exact h.parted
  | constantDecl h =>
    cases h with | mk hbody hsemicolon =>
    exact hbody.parted.concat hsemicolon (by decide)
  | constantList h => exact h.parted
  | bindingDecl h =>
    cases h with | mk hbody hsemicolon =>
    exact hbody.parted.concat hsemicolon (by decide)
  | variableList h => exact h.parted
  | parameterList hitems =>
    exact .of_none rfl (.repeated hitems fun _ _ hd => .single (.bindingDecl hd))
  | procedureDecl h =>
    cases h with | mk hbody hsemicolon =>
    exact hbody.parted.concat hsemicolon (by decide)
  | procedureList hitems =>
    exact .of_none rfl (.repeated hitems fun _ _ hd => .single (.procedureDecl hd))
  | program h => exact h.parted

end TeachLang
