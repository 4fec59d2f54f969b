import TeachLang.Proofs.Outline.Expr

/-! # Statements with the same labels

Branches that may be missing have kinds of their own, so that the parts of a statement can be told
from each other.
-/

namespace TeachLang

theorem Target.unplaced_eq {target target' : Target} (h : target.Grammatical)
    (h' : target'.Grammatical) (hsketch : target.toNode.sketch = target'.toNode.sketch) :
    target.map Token.unplaced id = target'.map Token.unplaced id := by
  obtain ⟨hkind, hlexeme, hslot, hparts⟩ := Node.sketch_eq_iff.1 hsketch
  cases target with
  | name i =>
    cases target' with
    | name i' => exact congrArg Target.name (Identifier.unplaced_eq h h' hsketch)
    | element => cases hkind
  | element base opening position slot =>
    cases target' with
    | name => cases hkind
    | element base' opening' position' slot' =>
      obtain ⟨-, hbase, hopening, hposition⟩ := h
      obtain ⟨-, hbase', hopening', hposition'⟩ := h'
      obtain ⟨hfirst, hrest⟩ := List.cons.inj hparts
      have htoken := hopening.unplaced_eq hopening' hlexeme
      have hname := Expr.unplaced_eq hbase hbase' hfirst
      have hinside := Expr.unplaced_eq hposition hposition' (List.cons.inj hrest).1
      exact Target.element.injEq .. ▸ ⟨hname, htoken, hinside, hslot⟩

mutual

theorem Statement.unplaced_eq {s s' : Statement} (h : s.Grammatical) (h' : s'.Grammatical)
    (hsketch : s.toNode.sketch = s'.toNode.sketch) :
    s.map Token.unplaced id = s'.map Token.unplaced id := by
  obtain ⟨hkind, hlexeme, hslot, hparts⟩ := Node.sketch_eq_iff.1 hsketch
  cases s with
  | assignment target symbol value slot =>
    cases s' with
    | assignment target' symbol' value' slot' =>
      obtain ⟨htarget, hsymbol, hvalue⟩ := h
      obtain ⟨htarget', hsymbol', hvalue'⟩ := h'
      obtain ⟨hfirst, hrest⟩ := List.cons.inj hparts
      have htoken := hsymbol.unplaced_eq hsymbol' hlexeme
      have hleft := Target.unplaced_eq htarget htarget' hfirst
      have hright := Expr.unplaced_eq hvalue hvalue' (List.cons.inj hrest).1
      exact Statement.assignment.injEq .. ▸ ⟨hleft, htoken, hright, hslot⟩
    | _ => cases hkind
  | call callee args slot =>
    cases s' with
    | call callee' args' slot' =>
      have htoken := h.1.unplaced_eq h'.1 hlexeme
      have hargs := Expr.mapAll_unplaced_eq h.2 h'.2 hparts
      exact Statement.call.injEq .. ▸ ⟨htoken, hargs, hslot⟩
    | _ => cases hkind
  | conditional keyword condition body elseIfs elseIfsSlot otherwise slot =>
    cases s' with
    | conditional keyword' condition' body' elseIfs' elseIfsSlot' otherwise' slot' =>
      obtain ⟨hkeyword, hcondition, hbody, helseIfs, hotherwise⟩ := h
      obtain ⟨hkeyword', hcondition', hbody', helseIfs', hotherwise'⟩ := h'
      obtain ⟨hfirst, hrest⟩ := List.cons.inj hparts
      obtain ⟨hsecond, hrest⟩ := List.cons.inj hrest
      obtain ⟨hbranches, hlast⟩ := List.cons.inj hrest
      obtain ⟨-, -, hbranchesSlot, hbranches⟩ := Node.sketch_eq_iff.1 hbranches
      have htoken := hkeyword.unplaced_eq hkeyword' hlexeme
      have hguard := Expr.unplaced_eq hcondition hcondition' hfirst
      have hblock := Block.unplaced_eq hbody hbody' hsecond
      have hmore := ElseIfs.unplaced_eq helseIfs helseIfs' hbranches
      have hother := Else.unplaced_eq hotherwise hotherwise' hlast
      exact Statement.conditional.injEq .. ▸
        ⟨htoken, hguard, hblock, hmore, hbranchesSlot, hother, hslot⟩
    | _ => cases hkind
  | loop keyword body slot =>
    cases s' with
    | loop keyword' body' slot' =>
      have htoken := h.1.unplaced_eq h'.1 hlexeme
      have hblock := Block.unplaced_eq h.2 h'.2 (List.cons.inj hparts).1
      exact Statement.loop.injEq .. ▸ ⟨htoken, hblock, hslot⟩
    | _ => cases hkind
  | forEach keyword item iterable body slot =>
    cases s' with
    | forEach keyword' item' iterable' body' slot' =>
      obtain ⟨hkeyword, hitem, hiterable, hbody⟩ := h
      obtain ⟨hkeyword', hitem', hiterable', hbody'⟩ := h'
      obtain ⟨hfirst, hrest⟩ := List.cons.inj hparts
      obtain ⟨hsecond, hrest⟩ := List.cons.inj hrest
      have htoken := hkeyword.unplaced_eq hkeyword' hlexeme
      have hname := Identifier.unplaced_eq hitem hitem' hfirst
      have hlist := Expr.unplaced_eq hiterable hiterable' hsecond
      have hblock := Block.unplaced_eq hbody hbody' (List.cons.inj hrest).1
      exact Statement.forEach.injEq .. ▸ ⟨htoken, hname, hlist, hblock, hslot⟩
    | _ => cases hkind
  | returning keyword value slot =>
    cases s' with
    | returning keyword' value' slot' =>
      have htoken := h.1.unplaced_eq h'.1 hlexeme
      have hvalue := optional_unplaced_eq (g := Expr.map Token.unplaced id)
        (fun e he e' he' hsame => Expr.unplaced_eq (h.2 e he) (h'.2 e' he') hsame) hparts
      exact Statement.returning.injEq .. ▸ ⟨htoken, hvalue, hslot⟩
    | _ => cases hkind
  | exit keyword slot =>
    cases s' with
    | exit keyword' slot' =>
      exact Statement.exit.injEq .. ▸ ⟨Token.Writes.unplaced_eq h h' hlexeme, hslot⟩
    | _ => cases hkind

theorem Block.unplaced_eq {b b' : Block} (h : b.Grammatical) (h' : b'.Grammatical)
    (hsketch : b.toNode.sketch = b'.toNode.sketch) :
    b.map Token.unplaced id = b'.map Token.unplaced id := by
  cases b with
  | mk statements slot =>
    cases b' with
    | mk statements' slot' =>
      obtain ⟨-, -, hslot, hparts⟩ := Node.sketch_eq_iff.1 hsketch
      exact Block.mk.injEq .. ▸ ⟨Statement.mapAll_unplaced_eq h h' hparts, hslot⟩

theorem Statement.mapAll_unplaced_eq {ss ss' : List Statement} (h : Statement.AllGrammatical ss)
    (h' : Statement.AllGrammatical ss')
    (hsketch : (Statement.toNodes ss).map Node.sketch = (Statement.toNodes ss').map Node.sketch) :
    Statement.mapAll Token.unplaced id ss = Statement.mapAll Token.unplaced id ss' := by
  cases ss with
  | nil =>
    cases ss' with
    | nil => rfl
    | cons s' ss' => cases hsketch
  | cons s ss =>
    cases ss' with
    | nil => cases hsketch
    | cons s' ss' =>
      obtain ⟨hfirst, hrest⟩ := List.cons.inj hsketch
      rw [Statement.mapAll, Statement.mapAll, Statement.unplaced_eq h.1 h'.1 hfirst,
        Statement.mapAll_unplaced_eq h.2 h'.2 hrest]

theorem ElseIfs.unplaced_eq {b b' : ElseIfs} (h : b.Grammatical) (h' : b'.Grammatical)
    (hsketch : b.toNodes.map Node.sketch = b'.toNodes.map Node.sketch) :
    b.map Token.unplaced id = b'.map Token.unplaced id := by
  cases b with
  | nil =>
    cases b' with
    | nil => rfl
    | cons => cases hsketch
  | cons keyword condition body slot rest =>
    cases b' with
    | nil => cases hsketch
    | cons keyword' condition' body' slot' rest' =>
      obtain ⟨hkeyword, hcondition, hbody, hrest⟩ := h
      obtain ⟨hkeyword', hcondition', hbody', hrest'⟩ := h'
      obtain ⟨hbranch, hbranches⟩ := List.cons.inj hsketch
      obtain ⟨-, hlexeme, hslot, hparts⟩ := Node.sketch_eq_iff.1 hbranch
      obtain ⟨hfirst, hsecond⟩ := List.cons.inj hparts
      have htoken := hkeyword.unplaced_eq hkeyword' hlexeme
      have hguard := Expr.unplaced_eq hcondition hcondition' hfirst
      have hblock := Block.unplaced_eq hbody hbody' (List.cons.inj hsecond).1
      have hmore := ElseIfs.unplaced_eq hrest hrest' hbranches
      exact ElseIfs.cons.injEq .. ▸ ⟨htoken, hguard, hblock, hslot, hmore⟩

theorem Else.unplaced_eq {b b' : Else} (h : b.Grammatical) (h' : b'.Grammatical)
    (hsketch : b.toNodes.map Node.sketch = b'.toNodes.map Node.sketch) :
    b.map Token.unplaced id = b'.map Token.unplaced id := by
  cases b with
  | absent =>
    cases b' with
    | absent => rfl
    | present => cases hsketch
  | present keyword body slot =>
    cases b' with
    | absent => cases hsketch
    | present keyword' body' slot' =>
      obtain ⟨-, hlexeme, hslot, hparts⟩ := Node.sketch_eq_iff.1 (List.cons.inj hsketch).1
      have htoken := h.1.unplaced_eq h'.1 hlexeme
      have hblock := Block.unplaced_eq h.2 h'.2 (List.cons.inj hparts).1
      exact Else.present.injEq .. ▸ ⟨htoken, hblock, hslot⟩

end

end TeachLang
