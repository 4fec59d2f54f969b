import TeachLang.Proofs.Check.Parsed
import TeachLang.Proofs.Outline.Statement
import TeachLang.Proofs.Recheck.Declaration
import TeachLang.Proofs.Tree.Untyped

/-! # Programs with the same outline

An outline shows a program up to the places of its tokens: what it leaves out is written in the
same way in every program.
-/

namespace TeachLang

theorem SimpleType.isFixed_kind (s : SimpleType) : s.kind.IsFixed := by
  cases s <;> exact fun _ h => h

theorem TypeExpr.unplaced_eq {e e' : TypeExpr} (h : e.Grammatical) (h' : e'.Grammatical)
    (hsketch : e.toNode.sketch = e'.toNode.sketch) :
    e.map Token.unplaced id = e'.map Token.unplaced id := by
  obtain ⟨hkind, hlexeme, hslot, -⟩ := Node.sketch_eq_iff.1 hsketch
  cases e with
  | simple token s slot =>
    cases e' with
    | simple token' s' slot' =>
      have hsame : s = s' := by
        cases s <;> cases s' <;> first | rfl | cases hkind
      subst hsame
      exact TypeExpr.simple.injEq .. ▸ ⟨Token.Writes.unplaced_eq h h' hlexeme, rfl, hslot⟩
    | list | void => cases s <;> cases hkind
  | list keyword token element slot =>
    cases e' with
    | list keyword' token' element' slot' =>
      obtain ⟨hkeyword, helement⟩ := h
      obtain ⟨hkeyword', helement'⟩ := h'
      have hkinds := helement.kind_eq_of_isFixed helement' element.isFixed_kind
        element'.isFixed_kind hlexeme
      have hsame : element = element' := by
        cases element <;> cases element' <;> first | rfl | cases hkinds
      subst hsame
      have hword := hkeyword.unplaced_eq_of_isFixed hkeyword' fun _ h => h
      exact TypeExpr.list.injEq .. ▸ ⟨hword, helement.unplaced_eq helement' hlexeme, rfl, hslot⟩
    | simple _ s' _ => cases s' <;> cases hkind
    | void => cases hkind
  | void slot =>
    cases e' with
    | void slot' => exact congrArg TypeExpr.void hslot
    | simple _ s' _ => cases s' <;> cases hkind
    | list => cases hkind

theorem ConstantDecl.unplaced_eq {d d' : ConstantDecl} (h : d.Grammatical) (h' : d'.Grammatical)
    (hsketch : d.toNode.sketch = d'.toNode.sketch) :
    d.map Token.unplaced id = d'.map Token.unplaced id := by
  obtain ⟨name, value, slot⟩ := d
  obtain ⟨name', value', slot'⟩ := d'
  obtain ⟨hname, hvalue⟩ := h
  obtain ⟨hname', hvalue'⟩ := h'
  obtain ⟨-, hlexeme, hslot, hparts⟩ := Node.sketch_eq_iff.1 hsketch
  have hsame : value.map Token.unplaced id = value'.map Token.unplaced id := by
    have hvalues := (List.cons.inj hparts).1
    cases value with
    | simple l =>
      cases value' with
      | simple l' =>
        exact congrArg ConstantValue.simple (Literal.unplaced_eq hvalue hvalue' hvalues)
      | list l' =>
        exact absurd l.isLiteral_kind (Node.kind_of_sketch hvalues ▸ Bool.false_ne_true)
    | list l =>
      cases value' with
      | simple l' =>
        exact absurd l'.isLiteral_kind (Node.kind_of_sketch hvalues ▸ Bool.false_ne_true)
      | list l' =>
        exact congrArg ConstantValue.list (ListLiteral.unplaced_eq hvalue.1 hvalue'.1 hvalues)
  exact ConstantDecl.mk.injEq .. ▸ ⟨hname.unplaced_eq hname' hlexeme, hsame, hslot⟩

theorem ConstantList.unplaced_eq {l l' : ConstantList} (h : l.Grammatical) (h' : l'.Grammatical)
    (hsketch : l.toNode.sketch = l'.toNode.sketch) :
    l.map Token.unplaced id = l'.map Token.unplaced id := by
  obtain ⟨-, hlexeme, hslot, hparts⟩ := Node.sketch_eq_iff.1 hsketch
  have hall := map_unplaced_eq (g := (·.map Token.unplaced id)) (fun d hd d' hd' hsame =>
    ConstantDecl.unplaced_eq (h.declarations d hd) (h'.declarations d' hd') hsame) hparts
  exact ConstantList.mk.injEq .. ▸ ⟨h.keyword.unplaced_eq h'.keyword hlexeme, hall, hslot⟩

theorem BindingDecl.unplaced_eq {kind : NodeKind} {d d' : BindingDecl} (h : d.Grammatical)
    (h' : d'.Grammatical) (hsketch : (d.toNode kind).sketch = (d'.toNode kind).sketch) :
    d.map Token.unplaced id = d'.map Token.unplaced id := by
  obtain ⟨-, -, hslot, hparts⟩ := Node.sketch_eq_iff.1 hsketch
  simp only [toNode, List.map_append] at hparts
  obtain ⟨hnames, htype⟩ := List.append_inj' hparts rfl
  have hall := map_unplaced_eq (g := (·.map Token.unplaced id)) (fun i hi i' hi' hsame =>
    Identifier.unplaced_eq (h.names i hi) (h'.names i' hi') hsame) hnames
  have hwritten := TypeExpr.unplaced_eq h.type h'.type (List.singleton_inj.1 htype)
  exact BindingDecl.mk.injEq .. ▸ ⟨hall, hwritten, hslot⟩

theorem BindingDecl.map_unplaced_eq {kind : NodeKind} {ds ds' : List BindingDecl}
    (h : ∀ d ∈ ds, d.Grammatical) (h' : ∀ d ∈ ds', d.Grammatical)
    (hsketch : (ds.map (toNode kind)).map Node.sketch = (ds'.map (toNode kind)).map Node.sketch) :
    ds.map (·.map Token.unplaced id) = ds'.map (·.map Token.unplaced id) :=
  TeachLang.map_unplaced_eq (fun d hd d' hd' hsame => unplaced_eq (h d hd) (h' d' hd') hsame)
    hsketch

theorem VariableList.unplaced_eq {l l' : VariableList} (h : l.Grammatical) (h' : l'.Grammatical)
    (hsketch : l.toNode.sketch = l'.toNode.sketch) :
    l.map Token.unplaced id = l'.map Token.unplaced id := by
  obtain ⟨-, hlexeme, hslot, hparts⟩ := Node.sketch_eq_iff.1 hsketch
  have hall := BindingDecl.map_unplaced_eq h.declarations h'.declarations hparts
  exact VariableList.mk.injEq .. ▸ ⟨h.keyword.unplaced_eq h'.keyword hlexeme, hall, hslot⟩

/-- A part that may be missing, of another kind than what comes next. -/
theorem optional_inj {α : Type} {node : α → Node} {o o' : Option α} {ns ns' : List Node}
    (hhead : ∀ a, ∀ n ∈ ns.head?, (node a).kind ≠ n.kind)
    (hhead' : ∀ a, ∀ n ∈ ns'.head?, (node a).kind ≠ n.kind)
    (h : ((o.map node).toList ++ ns).map Node.sketch =
      ((o'.map node).toList ++ ns').map Node.sketch) :
    (o.map node).toList.map Node.sketch = (o'.map node).toList.map Node.sketch ∧
      ns.map Node.sketch = ns'.map Node.sketch := by
  have hne (a : α) {ns ns' : List Node} (hhead : ∀ a, ∀ n ∈ ns.head?, (node a).kind ≠ n.kind) :
      ns.map Node.sketch ≠ (node a :: ns').map Node.sketch := by
    intro heq
    cases ns with
    | nil => cases heq
    | cons n ns => exact hhead a n rfl (Node.kind_of_sketch (List.cons.inj heq).1).symm
  cases o with
  | none =>
    cases o' with
    | none => exact ⟨rfl, h⟩
    | some a => exact absurd h (hne a hhead)
  | some a =>
    cases o' with
    | none => exact absurd h.symm (hne a hhead')
    | some a' =>
      obtain ⟨hpart, hrest⟩ := List.cons.inj h
      exact ⟨List.singleton_inj.2 hpart, hrest⟩

/-- The constants and the variables of a scope in front of other parts. -/
theorem locals_unplaced_eq {constants constants' : Option ConstantList}
    {vars vars' : Option VariableList} {ns ns' : List Node}
    (hns : ∀ n ∈ ns.head?, n.kind ∉ [.constantList, .variableList])
    (hns' : ∀ n ∈ ns'.head?, n.kind ∉ [.constantList, .variableList])
    (hconstants : ∀ l ∈ constants, l.Grammatical) (hconstants' : ∀ l ∈ constants', l.Grammatical)
    (hvars : ∀ l ∈ vars, l.Grammatical) (hvars' : ∀ l ∈ vars', l.Grammatical)
    (h : ((constants.map ConstantList.toNode).toList ++
        ((vars.map VariableList.toNode).toList ++ ns)).map Node.sketch =
      ((constants'.map ConstantList.toNode).toList ++
        ((vars'.map VariableList.toNode).toList ++ ns')).map Node.sketch) :
    constants.map (·.map Token.unplaced id) = constants'.map (·.map Token.unplaced id) ∧
      vars.map (·.map Token.unplaced id) = vars'.map (·.map Token.unplaced id) ∧
        ns.map Node.sketch = ns'.map Node.sketch := by
  have hvariable {ns : List Node} (hns : ∀ n ∈ ns.head?, n.kind ∉ [.constantList, .variableList])
      (l : VariableList) : ∀ n ∈ ns.head?, l.toNode.kind ≠ n.kind :=
    fun n hn heq => hns n hn (heq ▸ by simp [VariableList.toNode])
  have hconstant {vars : Option VariableList} {ns : List Node}
      (hns : ∀ n ∈ ns.head?, n.kind ∉ [.constantList, .variableList]) (l : ConstantList) :
      ∀ n ∈ ((vars.map VariableList.toNode).toList ++ ns).head?, l.toNode.kind ≠ n.kind := by
    cases vars with
    | none => exact fun n hn heq => hns n hn (heq ▸ by simp [ConstantList.toNode])
    | some v =>
      rintro n hn
      cases hn
      nofun
  obtain ⟨hfirst, hrest⟩ := optional_inj (hconstant hns) (hconstant hns') h
  obtain ⟨hsecond, hlast⟩ := optional_inj (hvariable hns) (hvariable hns') hrest
  refine ⟨optional_unplaced_eq ?_ hfirst, optional_unplaced_eq ?_ hsecond, hlast⟩
  · exact fun l hl l' hl' => ConstantList.unplaced_eq (hconstants l hl) (hconstants' l' hl')
  · exact fun l hl l' hl' => VariableList.unplaced_eq (hvars l hl) (hvars' l' hl')

theorem Block.kind_toNode (b : Block) : b.toNode.kind = .statementList := by
  cases b
  rfl

theorem ProcedureDecl.unplaced_eq {d d' : ProcedureDecl} (h : d.Grammatical) (h' : d'.Grammatical)
    (hsketch : d.toNode.sketch = d'.toNode.sketch) :
    d.map Token.unplaced id = d'.map Token.unplaced id := by
  obtain ⟨-, hlexeme, hslot, hparts⟩ := Node.sketch_eq_iff.1 hsketch
  simp only [toNode, List.append_assoc, List.cons_append, List.nil_append] at hparts
  obtain ⟨hfirst, hparts⟩ := List.cons.inj hparts
  obtain ⟨hreturn, hparts⟩ := List.cons.inj hparts
  have hbody (b : Block) : ∀ n ∈ [b.toNode].head?, n.kind ∉ [.constantList, .variableList] := by
    simp [b.kind_toNode]
  obtain ⟨hconstants, hvars, hlast⟩ := locals_unplaced_eq (hbody d.body) (hbody d'.body)
    h.constants h'.constants h.vars h'.vars hparts
  obtain ⟨-, -, hparametersSlot, hparameters⟩ := Node.sketch_eq_iff.1 hfirst
  have hlist := BindingDecl.map_unplaced_eq h.parameters h'.parameters hparameters
  have hbindings : d.parameters.map Token.unplaced id = d'.parameters.map Token.unplaced id :=
    ParameterList.mk.injEq .. ▸ ⟨hlist, hparametersSlot⟩
  have htype := TypeExpr.unplaced_eq h.returnType h'.returnType hreturn
  have hblock := Block.unplaced_eq h.body h'.body (List.singleton_inj.1 hlast)
  have hword := h.keyword.unplaced_eq_of_isFixed h'.keyword fun _ h => h
  have hname := h.name.unplaced_eq h'.name hlexeme
  exact ProcedureDecl.mk.injEq .. ▸
    ⟨hword, hname, hbindings, htype, hconstants, hvars, hblock, hslot⟩

/-- Grammatical programs with the same labels differ in the places of their tokens only. -/
theorem Program.unplaced_eq {p q : Program} (h : p.Grammatical) (h' : q.Grammatical)
    (hsketch : p.toNode.sketch = q.toNode.sketch) : p.unplaced = q.unplaced := by
  obtain ⟨-, hlexeme, hslot, hparts⟩ := Node.sketch_eq_iff.1 hsketch
  simp only [toNode, List.append_assoc] at hparts
  have hprocedures (p : Program) : ∀ n ∈ [p.procedures.toNode, p.statements.toNode].head?,
      n.kind ∉ [.constantList, .variableList] := by
    simp [ProcedureList.toNode]
  obtain ⟨hconstants, hvars, hlast⟩ := locals_unplaced_eq (hprocedures p) (hprocedures q)
    h.constants h'.constants h.vars h'.vars hparts
  obtain ⟨hlist, hlast⟩ := List.cons.inj hlast
  obtain ⟨-, -, hlistSlot, hlist⟩ := Node.sketch_eq_iff.1 hlist
  have hall := map_unplaced_eq (g := (·.map Token.unplaced id)) (fun d hd d' hd' hsame =>
    ProcedureDecl.unplaced_eq (h.procedures d hd) (h'.procedures d' hd') hsame) hlist
  have hmapped : p.procedures.map Token.unplaced id = q.procedures.map Token.unplaced id :=
    ProcedureList.mk.injEq .. ▸ ⟨hall, hlistSlot⟩
  have hblock := Block.unplaced_eq h.statements h'.statements (List.singleton_inj.1 hlast)
  have hword := h.keyword.unplaced_eq h'.keyword hlexeme
  exact Program.mk.injEq .. ▸ ⟨hword, hconstants, hvars, hmapped, hblock, hslot⟩

/-- A program that a source parses to, with whatever types in its slots. -/
def Program.IsParsed (p : Program) : Prop := ∃ source, (parseProgram source).1 = .ok p.untyped

namespace Program.IsParsed

variable {p q : Program}

theorem of_parseProgram {source : String} (h : (parseProgram source).1 = .ok p) : p.IsParsed := by
  have huntyped := ((parseProgram_eq_ok_iff source p).1 h).untyped
  exact ⟨source, by rw [huntyped, h]⟩

/-- A check leaves a program that the same source parses to. -/
theorem check (h : p.IsParsed) (t : Tables) : (p.check t).1.IsParsed := by
  obtain ⟨source, hsource⟩ := h
  exact ⟨source, by rw [hsource, (Program.check_untyped t p).1]⟩

theorem of_compile {source : String} {typed : TypedProgram} (h : compile source = .ok typed) :
    typed.program.IsParsed := by
  obtain ⟨p, hp, hcheck⟩ := compile_eq_ok_iff.1 h
  have hchecked := (of_parseProgram hp).check .initial
  rwa [hcheck] at hchecked

theorem grammatical (h : p.IsParsed) : p.Grammatical := by
  obtain ⟨source, hsource⟩ := h
  exact (grammatical_of_parseProgram hsource).of_map

end Program.IsParsed

/-- Programs that sources parse to, checked or not, differ in the places of their tokens only if
they have the same outline.  An outline has one line for each node of the walk, which shows its
depth, its kind, its lexeme and its type. -/
theorem Program.unplaced_eq_of_outline {p q : Program} (hp : p.IsParsed) (hq : q.IsParsed) :
    (p.outline = q.outline → p.unplaced = q.unplaced) ∧
    ∀ r : Program, splitLines r.outline.toList = r.toNode.walk.map fun e =>
      (("".pushn ' ' (2 * e.1) ++ e.2.describe).toList, .newline) :=
  ⟨fun h => unplaced_eq hp.grammatical hq.grammatical (Node.sketch_of_outline h),
    fun r => r.toNode.splitLines_outline⟩

/-- A source, and the same tokens on more lines. -/
def sumSources : String × String :=
  ("const s := \"a\"\"\\\"; program WrInt(-1 + LenStr(s)); end;",
    "const s := \"a\"\"\\\";\nprogram\n  WrInt ( - 1 + LenStr ( s ) ) ;\nend;")

/-- Whether two sources are accepted with the same outline, although the keywords of their programs
stand on different lines. -/
def sameOutline (sources : String × String) : Bool :=
  match compile sources.1, compile sources.2 with
  | .ok p, .ok q =>
    p.program.keyword.line ≠ q.program.keyword.line ∧ p.program.outline = q.program.outline
  | _, _ => false

theorem Program.unplaced_eq_of_outline_sums : ∃ p q : TypedProgram,
    compile sumSources.1 = .ok p ∧ compile sumSources.2 = .ok q ∧
      p.program.keyword.line ≠ q.program.keyword.line ∧
      p.program.outline = q.program.outline ∧ p.program.unplaced = q.program.unplaced := by
  have hboth : sameOutline sumSources := by decide +kernel
  unfold sameOutline at hboth
  split at hboth
  next p q hp hq =>
    obtain ⟨hline, houtline⟩ := of_decide_eq_true hboth
    have hsame := (unplaced_eq_of_outline (.of_compile hp) (.of_compile hq)).1 houtline
    exact ⟨p, q, hp, hq, hline, houtline, hsame⟩
  next => cases hboth

end TeachLang
