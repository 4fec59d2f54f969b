import TeachLang.Proofs.Text.Quoted
import TeachLang.Proofs.Text.TypeName
import TeachLang.Tree.Outline

/-! # Lines of an outline

A line of an outline shows the depth of a node and its label: the kind, the lexeme and the type.
Nothing else is shown, and all of it can be read back.
-/

namespace TeachLang

structure Label where
  kind : NodeKind
  lexeme : Option String
  slot : Slot
deriving DecidableEq, Repr

def Node.label (n : Node) : Label := ⟨n.kind, n.lexeme?, n.slot⟩

namespace NodeKind

def all : List NodeKind :=
  [program, constantList, constantDecl, variableList, variableDecl, parameterList, parameterDecl,
    procedureList, procedureDecl, integerType, stringType, booleanType, listType, voidType,
    statementList, assignment, callStatement, conditional, elseIfList, elseIf, otherwise, loop,
    forEach, returning, exit, identifier, call, listIndex, intLiteral, stringLiteral, literalTrue,
    literalFalse, listLiteral]
  ++ [BinaryOp.and, .or, .xor, .equal, .unequal, .lessThan, .moreThan, .lessThanEqual,
    .moreThanEqual, .plus, .minus, .times, .div, .rem].map binary
  ++ [UnaryOp.not, .negation].map unary

theorem mem_all (k : NodeKind) : k ∈ all := by
  cases k with
  | binary op => cases op <;> decide
  | unary op => cases op <;> decide
  | _ => decide

/-- No two kinds of nodes are shown in the same way. -/
theorem name_injective : Function.Injective name := by
  have hnodup : (all.map name).Nodup := by decide +kernel
  exact fun a b h => List.inj_on_of_nodup_map hnodup (mem_all a) (mem_all b) h

theorem isAlpha_of_mem_name (k : NodeKind) : ∀ c ∈ k.name.toList, c.isAlpha := by
  have hall : ∀ k ∈ all, k.name.toList.all Char.isAlpha := by decide +kernel
  exact List.all_eq_true.1 (hall k (mem_all k))

theorem delimited_name :
    Delimited (fun _ => True) (fun c => ¬ c.isAlpha) (fun k : NodeKind => k.name.toList) :=
  (delimited_run fun c => c.isAlpha).comp (fun k _ => isAlpha_of_mem_name k)
    fun _ _ _ _ h => name_injective (String.toList_inj.1 h)

end NodeKind

namespace Label

def writeSlot (slot : Slot) : List Char :=
  slot.elim [] (fun ty => ' ' :: ':' :: ' ' :: ty.name.toList)

def writeTail (lexeme : Option String) (slot : Slot) : List Char :=
  lexeme.elim [] (fun text => ' ' :: Quoted.encode text.toList) ++ writeSlot slot

def write (l : Label) : List Char := l.kind.name.toList ++ writeTail l.lexeme l.slot

theorem writeSlot_injective : Function.Injective writeSlot := by
  intro slot slot' h
  cases slot with
  | none =>
    cases slot' with
    | none => rfl
    | some ty => simp [writeSlot] at h
  | some ty =>
    cases slot' with
    | none => simp [writeSlot] at h
    | some ty' =>
      simp only [writeSlot, Option.elim_some, List.cons.injEq, true_and] at h
      rw [Ty.name_toList_inj h]

/-- A type does not begin as a lexeme does. -/
theorem writeSlot_ne_encode (slot : Slot) (cs x : List Char) :
    writeSlot slot ≠ ' ' :: (Quoted.encode cs ++ x) := by
  cases slot <;> simp [writeSlot, Quoted.encode]

theorem writeTail_inj {lexeme lexeme' : Option String} {slot slot' : Slot}
    (h : writeTail lexeme slot = writeTail lexeme' slot') : lexeme = lexeme' ∧ slot = slot' := by
  cases lexeme with
  | none =>
    cases lexeme' with
    | none => exact ⟨rfl, writeSlot_injective h⟩
    | some text => exact absurd h (writeSlot_ne_encode slot _ _)
  | some text =>
    cases lexeme' with
    | none => exact absurd h.symm (writeSlot_ne_encode slot' _ _)
    | some text' =>
      have htail := (List.cons.inj h).2
      obtain ⟨htext, hslot⟩ := Quoted.delimited_encode trivial trivial (fun _ _ => trivial)
        (fun _ _ => trivial) htail
      exact ⟨congrArg some (String.toList_inj.1 htext), writeSlot_injective hslot⟩

theorem stopped_writeTail (lexeme : Option String) (slot : Slot) :
    Stopped (fun c => ¬ c.isAlpha) (writeTail lexeme slot) := by
  cases lexeme <;> cases slot <;> simp [writeTail, writeSlot, Stopped]

/-- A label is read back from what is shown of it. -/
theorem write_injective : Function.Injective write := by
  rintro ⟨kind, lexeme, slot⟩ ⟨kind', lexeme', slot'⟩ h
  obtain ⟨rfl, htail⟩ := NodeKind.delimited_name trivial trivial (stopped_writeTail lexeme slot)
    (stopped_writeTail lexeme' slot') h
  obtain ⟨rfl, rfl⟩ := writeTail_inj htail
  rfl

theorem head?_write (l : Label) : ∃ c ∈ l.write.head?, c ≠ ' ' := by
  have hall : ∀ k ∈ NodeKind.all, k.name.toList ≠ [] := by decide +kernel
  obtain ⟨c, cs, hname⟩ := List.exists_cons_of_ne_nil (hall l.kind l.kind.mem_all)
  have halpha : c.isAlpha := l.kind.isAlpha_of_mem_name c (by simp [hname])
  refine ⟨c, List.mem_head?_append_of_mem_head? (by simp [hname]), ?_⟩
  rintro rfl
  exact absurd halpha (by decide)

theorem isLine_write (l : Label) : IsLine l.write := by
  have hname : ∀ k ∈ NodeKind.all, IsLine k.name.toList := by decide +kernel
  have hblank : IsLine [' '] := by decide
  have hcolon : IsLine [' ', ':', ' '] := by decide
  obtain ⟨kind, lexeme, slot⟩ := l
  refine isLine_append.2 ⟨hname kind (NodeKind.mem_all kind), isLine_append.2 ⟨?_, ?_⟩⟩
  · cases lexeme with
    | none => exact isLine_nil
    | some text => exact isLine_append.2 ⟨hblank, Quoted.isLine_encode text.toList⟩
  · cases slot with
    | none => exact isLine_nil
    | some ty => exact isLine_append.2 ⟨hcolon, ty.isLine_name⟩

end Label

theorem Node.toList_describe (n : Node) : n.describe.toList = n.label.write := by
  unfold describe Label.write Label.writeTail Label.writeSlot label
  cases n.lexeme? <;> cases n.slot <;> simp [quoted]

def outlineLine (depth : Nat) (l : Label) : List Char := List.replicate (2 * depth) ' ' ++ l.write

theorem outlineLine_inj {depth depth' : Nat} {l l' : Label}
    (h : outlineLine depth l = outlineLine depth' l') : depth = depth' ∧ l = l' := by
  have hblank (n : Nat) : ∀ c ∈ List.replicate n ' ', c = ' ' := fun c => List.eq_of_mem_replicate
  have hstopped (l : Label) : Stopped (fun c => ¬ c = ' ') l.write := by
    obtain ⟨c, hc, hne⟩ := l.head?_write
    intro d hd
    rwa [← Option.mem_unique hc hd]
  obtain ⟨hdepth, hlabel⟩ := delimited_run (· = ' ') (hblank _) (hblank _) (hstopped l)
    (hstopped l') h
  have hlength := congrArg List.length hdepth
  simp only [List.length_replicate] at hlength
  exact ⟨by omega, Label.write_injective hlabel⟩

theorem isLine_outlineLine (depth : Nat) (l : Label) : IsLine (outlineLine depth l) := by
  refine isLine_append.2 ⟨fun c hc => ?_, l.isLine_write⟩
  obtain rfl := List.eq_of_mem_replicate hc
  decide

theorem toList_pushn_blank (n : Nat) : ("".pushn ' ' n).toList = List.replicate n ' ' := by
  induction n with
  | zero => rfl
  | succ n ih =>
    change (("".pushn ' ' n).push ' ').toList = _
    rw [String.toList_push, ih, List.replicate_succ']

namespace Node

def outlineLines (n : Node) : List (List Char) :=
  n.walk.map fun e => outlineLine e.1 e.2.label

theorem isLine_of_mem_outlineLines (n : Node) : ∀ line ∈ n.outlineLines, IsLine line := by
  intro line hline
  obtain ⟨e, -, rfl⟩ := List.mem_map.1 hline
  exact isLine_outlineLine e.1 e.2.label

theorem toList_outline (n : Node) : n.outline.toList = ended n.outlineLines := by
  rw [outline, String.toList_join, List.flatMap_map, ended, outlineLines, List.flatMap_map]
  refine List.flatMap_congr fun e _ => ?_
  simp [toList_pushn_blank, toList_describe, outlineLine]

/-- An outline has one line for each node of the walk. -/
theorem splitLines_outline (n : Node) : splitLines n.outline.toList =
    n.walk.map fun e => (("".pushn ' ' (2 * e.1) ++ e.2.describe).toList, .newline) := by
  rw [toList_outline, splitLines_ended n.isLine_of_mem_outlineLines, outlineLines, List.map_map]
  refine List.map_congr_left fun e _ => ?_
  simp [toList_pushn_blank, toList_describe, outlineLine]

/-- Equal outlines come from walks through nodes of the same depths and labels. -/
theorem map_walk_of_outline {m n : Node} (h : m.outline = n.outline) :
    m.walk.map (fun e => (e.1, e.2.label)) = n.walk.map (fun e => (e.1, e.2.label)) := by
  have htexts := congrArg String.toList h
  rw [toList_outline, toList_outline] at htexts
  have hlines := ended_injOn m.isLine_of_mem_outlineLines n.isLine_of_mem_outlineLines htexts
  have hinj : Function.Injective fun e : Nat × Label => outlineLine e.1 e.2 := by
    rintro ⟨d, l⟩ ⟨d', l'⟩ heq
    obtain ⟨rfl, rfl⟩ := outlineLine_inj heq
    rfl
  apply hinj.list_map
  simpa [outlineLines, Function.comp_def] using hlines

end Node
end TeachLang
