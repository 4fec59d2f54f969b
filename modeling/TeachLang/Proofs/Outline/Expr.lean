import TeachLang.Proofs.Outline.Sketch
import TeachLang.Proofs.Tree.Grammatical
import TeachLang.Proofs.Tree.Map

/-! # Expressions with the same labels

In a tree that the grammar can write, the labels tell the tokens up to their places: a token stands
where its kind is known, its text is the lexeme of the label, or it is always written in the same
way.
-/

namespace TeachLang

theorem Node.sketch_eq_iff {m n : Node} : m.sketch = n.sketch ↔ m.kind = n.kind ∧
    m.lexeme? = n.lexeme? ∧ m.slot = n.slot ∧ m.children.map sketch = n.children.map sketch := by
  obtain ⟨kind, anchor, slot, value, children⟩ := m
  obtain ⟨kind', anchor', slot', value', children'⟩ := n
  simp only [sketch, sketches_eq_map, lexeme?, Sketch.mk.injEq, Label.mk.injEq, and_assoc]

theorem Node.kind_of_sketch {m n : Node} (h : m.sketch = n.sketch) : m.kind = n.kind :=
  (sketch_eq_iff.1 h).1

/-- Rows of nodes that are told by their labels item by item. -/
theorem map_unplaced_eq {α β : Type} {node : α → Node} {g : α → β} {as bs : List α}
    (himp : ∀ a ∈ as, ∀ b ∈ bs, (node a).sketch = (node b).sketch → g a = g b)
    (h : (as.map node).map Node.sketch = (bs.map node).map Node.sketch) : as.map g = bs.map g := by
  rw [List.map_map, List.map_map] at h
  exact map_eq_map_of_imp himp h

/-- The same for a part that may be missing. -/
theorem optional_unplaced_eq {α β : Type} {node : α → Node} {g : α → β} {o o' : Option α}
    (himp : ∀ a ∈ o, ∀ b ∈ o', (node a).sketch = (node b).sketch → g a = g b)
    (h : (o.map node).toList.map Node.sketch = (o'.map node).toList.map Node.sketch) :
    o.map g = o'.map g := by
  cases o with
  | none =>
    cases o' with
    | none => rfl
    | some b => cases h
  | some a =>
    cases o' with
    | none => cases h
    | some b => exact congrArg some (himp a rfl b rfl (List.singleton_inj.1 h))

namespace TokenKind

/-- The tokens of a kind are all written in the same way. -/
def IsFixed (kind : TokenKind) : Prop :=
  ∀ text, kind.Admits text → kind.spelling?.map String.toList = some text

theorem eq_of_spelling? {kind kind' : TokenKind} {text : String} (h : kind.spelling? = some text)
    (h' : kind'.spelling? = some text) : kind = kind' := by
  have hnodup : ((keywords ++ symbols).map (·.1)).Nodup := by decide +kernel
  have hmem {k : TokenKind} (h : k.spelling? = some text) : (text, k) ∈ keywords ++ symbols := by
    obtain ⟨⟨text', k'⟩, hfind, rfl⟩ := Option.map_eq_some_iff.1 h
    obtain rfl : k' = k := by simpa using List.find?_some hfind
    exact List.mem_of_find?_eq_some hfind
  exact (Prod.mk.inj (List.inj_on_of_nodup_map hnodup (hmem h) (hmem h') rfl)).2

theorem IsFixed.eq_of_admits {kind kind' : TokenKind} {text : List Char} (h : kind.IsFixed)
    (h' : kind'.IsFixed) (hadmits : kind.Admits text) (hadmits' : kind'.Admits text) :
    kind = kind' := by
  obtain ⟨spelling, hspelling, rfl⟩ := Option.map_eq_some_iff.1 (h _ hadmits)
  obtain ⟨spelling', hspelling', htext⟩ := Option.map_eq_some_iff.1 (h' _ hadmits')
  obtain rfl := String.toList_inj.1 htext
  exact eq_of_spelling? hspelling hspelling'

end TokenKind

namespace Token.Writes

variable {t t' : Token} {kind kind' : TokenKind}

theorem lexeme?_eq (h : t.Writes kind) : t.lexeme? = some t.text := by
  obtain ⟨hkind, hadmits⟩ := h
  refine if_neg fun heof => ?_
  rw [← hkind, heof] at hadmits
  exact hadmits

theorem text_eq (h : t.Writes kind) (h' : t'.Writes kind') (hlexeme : t.lexeme? = t'.lexeme?) :
    t.text = t'.text := by
  rwa [h.lexeme?_eq, h'.lexeme?_eq, Option.some.injEq] at hlexeme

/-- Tokens of one kind with the same lexeme differ in their places only. -/
theorem unplaced_eq (h : t.Writes kind) (h' : t'.Writes kind) (hlexeme : t.lexeme? = t'.lexeme?) :
    t.unplaced = t'.unplaced := by
  rw [unplaced, unplaced, h.1, h'.1, h.text_eq h' hlexeme]

/-- So do tokens of a kind that is always written in the same way. -/
theorem unplaced_eq_of_isFixed (h : t.Writes kind) (h' : t'.Writes kind) (hfixed : kind.IsFixed) :
    t.unplaced = t'.unplaced := by
  have htext := (hfixed _ h.2).symm.trans (hfixed _ h'.2)
  rw [Option.some.injEq, String.toList_inj] at htext
  rw [unplaced, unplaced, h.1, h'.1, htext]

/-- Among such kinds, the lexeme tells the kind. -/
theorem kind_eq_of_isFixed (h : t.Writes kind) (h' : t'.Writes kind') (hfixed : kind.IsFixed)
    (hfixed' : kind'.IsFixed) (hlexeme : t.lexeme? = t'.lexeme?) : kind = kind' :=
  hfixed.eq_of_admits hfixed' h.2 (h.text_eq h' hlexeme ▸ h'.2)

end Token.Writes

def NodeKind.isLiteral (kind : NodeKind) : Bool :=
  kind ∈ [intLiteral, stringLiteral, literalTrue, literalFalse]

theorem Literal.isLiteral_kind (l : Literal) : l.toNode.kind.isLiteral := by
  obtain ⟨token, value, slot⟩ := l
  rcases value with n | s | (_ | _) <;> rfl

/-- The node of a literal tells the kind of its token. -/
theorem Literal.kind_of_nodeKind {t t' : Token} (h : t.kind ∈ First.simpleLiteral)
    (h' : t'.kind ∈ First.simpleLiteral)
    (hkind : (LiteralValue.ofToken t).nodeKind = (LiteralValue.ofToken t').nodeKind) :
    t.kind = t'.kind := by
  unfold LiteralValue.ofToken at hkind
  generalize t.kind = k, t'.kind = k' at h h' hkind
  simp only [First.simpleLiteral, List.mem_cons, List.not_mem_nil, or_false] at h h'
  rcases h with rfl | rfl | rfl | rfl <;> rcases h' with rfl | rfl | rfl | rfl <;>
    first | rfl | cases hkind

theorem Literal.unplaced_eq {l l' : Literal} (h : l.Grammatical) (h' : l'.Grammatical)
    (hsketch : l.toNode.sketch = l'.toNode.sketch) :
    l.map Token.unplaced id = l'.map Token.unplaced id := by
  obtain ⟨⟨kind, hkind, hwrites⟩, hvalue⟩ := h
  obtain ⟨⟨kind', hkind', hwrites'⟩, hvalue'⟩ := h'
  obtain ⟨hnode, hlexeme, hslot, -⟩ := Node.sketch_eq_iff.1 hsketch
  obtain ⟨token, value, slot⟩ := l
  obtain ⟨token', value', slot'⟩ := l'
  obtain rfl : value = .ofToken token := hvalue
  obtain rfl : value' = .ofToken token' := hvalue'
  have hsame : kind = kind' := by
    rw [← hwrites.1, ← hwrites'.1]
    exact kind_of_nodeKind (hwrites.1 ▸ hkind) (hwrites'.1 ▸ hkind') hnode
  have htoken := hwrites.unplaced_eq (hsame ▸ hwrites') hlexeme
  have hread (t : Token) : LiteralValue.ofToken t.unplaced = .ofToken t := rfl
  have hdenoted : LiteralValue.ofToken token = .ofToken token' := by
    rw [← hread token, htoken, hread]
  exact Literal.mk.injEq .. ▸ ⟨htoken, hdenoted, hslot⟩

theorem Identifier.unplaced_eq {i i' : Identifier} (h : i.Grammatical) (h' : i'.Grammatical)
    (hsketch : i.toNode.sketch = i'.toNode.sketch) :
    i.map Token.unplaced id = i'.map Token.unplaced id := by
  obtain ⟨-, hlexeme, hslot, -⟩ := Node.sketch_eq_iff.1 hsketch
  exact Identifier.mk.injEq .. ▸ ⟨Token.Writes.unplaced_eq h h' hlexeme, hslot⟩

theorem ListLiteral.unplaced_eq {l l' : ListLiteral} (h : l.Grammatical) (h' : l'.Grammatical)
    (hsketch : l.toNode.sketch = l'.toNode.sketch) :
    l.map Token.unplaced id = l'.map Token.unplaced id := by
  obtain ⟨⟨kind, hkind, hwrites⟩, helements⟩ := h
  obtain ⟨⟨kind', hkind', hwrites'⟩, helements'⟩ := h'
  obtain ⟨-, hlexeme, hslot, hparts⟩ := Node.sketch_eq_iff.1 hsketch
  have hfixed : ∀ kind ∈ First.listLiteral, kind.IsFixed := by
    intro kind hkind
    simp only [First.listLiteral, List.mem_cons, List.not_mem_nil, or_false] at hkind
    rcases hkind with rfl | rfl <;> exact fun _ h => h
  have hsame := hwrites.kind_eq_of_isFixed hwrites' (hfixed _ hkind) (hfixed _ hkind') hlexeme
  have hopening := hwrites.unplaced_eq (hsame ▸ hwrites') hlexeme
  have hall := map_unplaced_eq (g := Literal.map Token.unplaced id) (fun a ha b hb hab =>
    Literal.unplaced_eq (helements a ha) (helements' b hb) hab) hparts
  exact ListLiteral.mk.injEq .. ▸ ⟨hopening, hall, hslot⟩

mutual

theorem Expr.unplaced_eq {e e' : Expr} (h : e.Grammatical) (h' : e'.Grammatical)
    (hsketch : e.toNode.sketch = e'.toNode.sketch) :
    e.map Token.unplaced id = e'.map Token.unplaced id := by
  obtain ⟨hkind, hlexeme, hslot, hparts⟩ := Node.sketch_eq_iff.1 hsketch
  cases e with
  | name i =>
    cases e' with
    | name i' => exact congrArg Expr.name (Identifier.unplaced_eq h h' hsketch)
    | literal l => exact absurd l.isLiteral_kind (hkind ▸ Bool.false_ne_true)
    | _ => cases hkind
  | call callee args slot =>
    cases e' with
    | call callee' args' slot' =>
      have htoken := h.1.unplaced_eq h'.1 hlexeme
      have hargs := Expr.mapAll_unplaced_eq h.2 h'.2 hparts
      exact Expr.call.injEq .. ▸ ⟨htoken, hargs, hslot⟩
    | literal l => exact absurd l.isLiteral_kind (hkind ▸ Bool.false_ne_true)
    | _ => cases hkind
  | index target opening position slot =>
    cases e' with
    | index target' opening' position' slot' =>
      obtain ⟨htarget, hopening, hposition⟩ := h
      obtain ⟨htarget', hopening', hposition'⟩ := h'
      obtain ⟨hfirst, hrest⟩ := List.cons.inj hparts
      have htoken := hopening.unplaced_eq hopening' hlexeme
      have hbase := Expr.unplaced_eq htarget htarget' hfirst
      have hinside := Expr.unplaced_eq hposition hposition' (List.cons.inj hrest).1
      exact Expr.index.injEq .. ▸ ⟨hbase, htoken, hinside, hslot⟩
    | literal l => exact absurd l.isLiteral_kind (hkind ▸ Bool.false_ne_true)
    | _ => cases hkind
  | literal l =>
    cases e' with
    | literal l' => exact congrArg Expr.literal (Literal.unplaced_eq h h' hsketch)
    | _ => exact absurd l.isLiteral_kind (hkind ▸ Bool.false_ne_true)
  | list l =>
    cases e' with
    | list l' => exact congrArg Expr.list (ListLiteral.unplaced_eq h h' hsketch)
    | literal l => exact absurd l.isLiteral_kind (hkind ▸ Bool.false_ne_true)
    | _ => cases hkind
  | binary op symbol lhs rhs slot =>
    cases e' with
    | binary op' symbol' lhs' rhs' slot' =>
      obtain rfl := NodeKind.binary.inj hkind
      obtain ⟨hsymbol, hlhs, hrhs⟩ := h
      obtain ⟨hsymbol', hlhs', hrhs'⟩ := h'
      obtain ⟨hfirst, hrest⟩ := List.cons.inj hparts
      have htoken := hsymbol.unplaced_eq hsymbol' hlexeme
      have hleft := Expr.unplaced_eq hlhs hlhs' hfirst
      have hright := Expr.unplaced_eq hrhs hrhs' (List.cons.inj hrest).1
      exact Expr.binary.injEq .. ▸ ⟨rfl, htoken, hleft, hright, hslot⟩
    | literal l => exact absurd l.isLiteral_kind (hkind ▸ Bool.false_ne_true)
    | _ => cases hkind
  | unary op symbol operand slot =>
    cases e' with
    | unary op' symbol' operand' slot' =>
      obtain rfl := NodeKind.unary.inj hkind
      have htoken := h.1.unplaced_eq h'.1 hlexeme
      have hinside := Expr.unplaced_eq h.2 h'.2 (List.cons.inj hparts).1
      exact Expr.unary.injEq .. ▸ ⟨rfl, htoken, hinside, hslot⟩
    | literal l => exact absurd l.isLiteral_kind (hkind ▸ Bool.false_ne_true)
    | _ => cases hkind

theorem Expr.mapAll_unplaced_eq {es es' : List Expr} (h : Expr.AllGrammatical es)
    (h' : Expr.AllGrammatical es')
    (hsketch : (Expr.toNodes es).map Node.sketch = (Expr.toNodes es').map Node.sketch) :
    Expr.mapAll Token.unplaced id es = Expr.mapAll Token.unplaced id es' := by
  cases es with
  | nil =>
    cases es' with
    | nil => rfl
    | cons e' es' => cases hsketch
  | cons e es =>
    cases es' with
    | nil => cases hsketch
    | cons e' es' =>
      obtain ⟨hfirst, hrest⟩ := List.cons.inj hsketch
      rw [Expr.mapAll, Expr.mapAll, Expr.unplaced_eq h.1 h'.1 hfirst,
        Expr.mapAll_unplaced_eq h.2 h'.2 hrest]

end

end TeachLang
