import TeachLang.Proofs.History.Growth
import TeachLang.Proofs.Table.Row

/-! # Names in tables

Every name that a check puts into a table is the name of a token or the hidden counter of one, and
so it is made of the characters of names.
-/

namespace TeachLang

open TeachLang.Action

theorem Token.Writes.isRowName {t : Token} (h : t.Writes .identifier) : IsRowName t.text := by
  obtain ⟨⟨c, cs, htext, hstart, hcontinue⟩, -⟩ := h.2
  rw [IsRowName, htext]
  exact ⟨List.cons_ne_nil c cs,
    List.forall_mem_cons.2 ⟨Unicode.isXidContinue_of_isXidStart c hstart, hcontinue⟩⟩

theorem isRowName_counterName {item : String} (h : IsRowName item) :
    IsRowName (counterName item) := by
  have hfront : IsRowName "__" := by decide +kernel
  have hback : IsRowName "_index" := by decide +kernel
  rw [IsRowName, counterName, String.toList_append, String.toList_append]
  simp only [List.forall_mem_append]
  exact ⟨by simp, ⟨hfront.2, h.2⟩, hback.2⟩

def Action.Named : Action → Prop
  | test _ => True
  | constant _ d => IsRowName d.name.text
  | binding _ _ _ i => IsRowName i.name
  | counter _ item => IsRowName item
  | procedure d => IsRowName d.name.text

section

variable (ctx : Context)

theorem named_localActions {constants : Option ConstantList} {vars : Option VariableList}
    (hconstants : ∀ l ∈ constants, l.Grammatical) (hvars : ∀ l ∈ vars, l.Grammatical) :
    ∀ a ∈ localActions ctx constants vars, a.Named := by
  intro a ha
  rcases List.mem_append.1 ha with ha | ha
  · cases constants with
    | none => cases ha
    | some l =>
      obtain ⟨d, hd, rfl⟩ := List.mem_map.1 ha
      exact ((hconstants l rfl).declarations d hd).1.isRowName
  · cases vars with
    | none => cases ha
    | some l =>
      obtain ⟨d, hd, ha⟩ := List.mem_flatMap.1 ha
      obtain ⟨i, hi, rfl⟩ := List.mem_map.1 ha
      exact (((hvars l rfl).declarations d hd).names i hi).isRowName

mutual

theorem Statement.named_actions (ctx : Context) {s : Statement} (h : s.Grammatical) :
    ∀ a ∈ s.actions ctx, a.Named := by
  intro a ha
  cases s with
  | assignment | call | returning | exit =>
    rw [Statement.actions, List.mem_singleton] at ha
    exact ha ▸ trivial
  | conditional keyword condition body elseIfs elseIfsSlot otherwise slot =>
    obtain ⟨-, -, hbody, helseIfs, hotherwise⟩ := h
    simp only [Statement.actions, List.mem_cons, List.mem_append] at ha
    rcases ha with rfl | ha | ha | ha
    · trivial
    · exact Block.named_actions ctx hbody a ha
    · exact ElseIfs.named_actions ctx helseIfs a ha
    · exact Else.named_actions ctx hotherwise a ha
  | loop keyword body slot =>
    rw [Statement.actions] at ha
    exact Block.named_actions ctx.withLoop h.2 a ha
  | forEach keyword item iterable body slot =>
    obtain ⟨-, hitem, -, hbody⟩ := h
    simp only [Statement.actions, List.mem_cons] at ha
    rcases ha with rfl | rfl | ha
    · trivial
    · exact hitem.isRowName
    · exact Block.named_actions ctx.withLoop hbody a ha

theorem Block.named_actions (ctx : Context) {b : Block} (h : b.Grammatical) :
    ∀ a ∈ b.actions ctx, a.Named := by
  cases b with
  | mk statements slot => exact Statement.named_allActions ctx h

theorem Statement.named_allActions (ctx : Context) {ss : List Statement}
    (h : Statement.AllGrammatical ss) : ∀ a ∈ Statement.allActions ctx ss, a.Named := by
  intro a ha
  cases ss with
  | nil => simp [Statement.allActions] at ha
  | cons s ss =>
    rw [Statement.allActions] at ha
    rcases List.mem_append.1 ha with ha | ha
    · exact Statement.named_actions ctx h.1 a ha
    · exact Statement.named_allActions ctx h.2 a ha

theorem ElseIfs.named_actions (ctx : Context) {b : ElseIfs} (h : b.Grammatical) :
    ∀ a ∈ b.actions ctx, a.Named := by
  intro a ha
  cases b with
  | nil => simp [ElseIfs.actions] at ha
  | cons keyword condition body slot rest =>
    obtain ⟨-, -, hbody, hrest⟩ := h
    simp only [ElseIfs.actions, List.mem_cons, List.mem_append] at ha
    rcases ha with rfl | ha | ha
    · trivial
    · exact Block.named_actions ctx hbody a ha
    · exact ElseIfs.named_actions ctx hrest a ha

theorem Else.named_actions (ctx : Context) {b : Else} (h : b.Grammatical) :
    ∀ a ∈ b.actions ctx, a.Named := by
  cases b with
  | absent => simp [Else.actions]
  | present keyword body slot =>
    rw [Else.actions]
    exact Block.named_actions ctx h.2

end

theorem ProcedureDecl.named_actions {d : ProcedureDecl} (h : d.Grammatical) :
    ∀ a ∈ d.actions, a.Named := by
  intro a ha
  simp only [actions, inside, List.mem_cons, List.mem_append] at ha
  rcases ha with rfl | (ha | ha) | ha
  · exact h.name.isRowName
  · obtain ⟨b, hb, ha⟩ := List.mem_flatMap.1 ha
    obtain ⟨i, hi, rfl⟩ := List.mem_map.1 ha
    exact ((h.parameters b hb).names i hi).isRowName
  · exact named_localActions _ h.constants h.vars a ha
  · exact Block.named_actions _ h.body a ha

theorem Program.named_actions {p : Program} (h : p.Grammatical) : ∀ a ∈ p.actions, a.Named := by
  intro a ha
  simp only [actions, List.mem_append, List.mem_flatMap] at ha
  rcases ha with ha | ⟨d, hd, ha⟩ | ha
  · exact named_localActions _ h.constants h.vars a ha
  · exact ProcedureDecl.named_actions (h.procedures d hd) a ha
  · exact Block.named_actions _ h.statements a ha

end

structure Tables.Named (t : Tables) : Prop where
  globals : ∀ x r, t.globals.get? x = some r → IsRowName x
  procedures : ∀ q p, t.procedures.get? q = some p →
    IsRowName q ∧ ∀ x r, p.symbols.get? x = some r → IsRowName x

theorem Builtin.isRowName {b : Builtin} (hb : b ∈ Builtin.catalogue) :
    IsRowName b.name ∧ ∀ p ∈ b.parameters, IsRowName p.1 := by
  revert b
  decide +kernel

namespace Tables

variable {t : Tables}

theorem named_initial : initial.Named where
  globals _ _ h := by cases h
  procedures q p hp := by
    rw [get?_procedures_initial, Option.map_eq_some_iff] at hp
    obtain ⟨b, hfind, rfl⟩ := hp
    obtain rfl : b.name = q := by simpa using List.find?_some hfind
    obtain ⟨hname, hparameters⟩ := Builtin.isRowName (List.mem_of_find?_eq_some hfind)
    refine ⟨hname, fun x r hr => ?_⟩
    rw [b.symbols_toProcedure] at hr
    rcases SymbolTable.mem_or_get?_of_insertAll hr with hmem | hget
    · obtain ⟨⟨⟨y, ty⟩, k⟩, hparameter, hrow⟩ := List.mem_map.1 hmem
      obtain ⟨rfl, -⟩ := Prod.mk.inj hrow
      exact hparameters _ (List.fst_mem_of_mem_zipIdx hparameter)
    · cases hget

theorem Named.declare (h : t.Named) (ctx : Context) {x : String} (hx : IsRowName x)
    (r : Register) : (t.declare ctx x r).Named := by
  unfold Tables.declare
  split
  next q p hq hcurrent =>
    rw [Tables.current?, hq, Option.bind_some] at hcurrent
    obtain ⟨hname, hrows⟩ := h.procedures q p hcurrent
    exact ⟨h.globals,
      NameMap.forall_get?_insert h.procedures ⟨hname, NameMap.forall_get?_insert hrows hx⟩⟩
  next => exact ⟨NameMap.forall_get?_insert h.globals hx, h.procedures⟩

/-- An action with a fitting name keeps the names fitting, whether it succeeds or not. -/
theorem Named.perform (h : t.Named) {a : Action} (ha : a.Named) : (a.perform t).1.Named := by
  have hleaves := perform_leaves t a
  generalize a.perform t = left at hleaves ⊢
  cases hleaves with
  | test | error => exact h
  | constant => exact h.declare _ ha _
  | binding => exact h.declare _ ha _
  | counter ctx item => exact h.declare _ (isRowName_counterName ha) _
  | procedure => exact ⟨h.globals, NameMap.forall_get?_insert h.procedures ⟨ha, nofun⟩⟩

/-- All names of a session can stand in rows. -/
theorem named_history {units : List Program} (h : ∀ p ∈ units, p.Grammatical) :
    ∀ t ∈ initial.history units, t.Named := by
  apply forall_mem_history ?_ named_initial
  intro p hp t ht
  have hready : Ready (fun _ a => a.Named) t p.actions :=
    .of_forall (fun a ha _ => Program.named_actions (h p hp) a ha) t
  exact hready.forall_mem_trail (fun _ _ ht ha => ht.perform ha) ht

end Tables
end TeachLang
