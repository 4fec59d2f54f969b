import Mathlib.Data.List.Nodup
import TeachLang.Check.Statement

/-! # Tables

What a declaration does to the tables, in terms of the rows that can be found in them.
A row is declared in the scope of a context and everything else stays; parameters keep
their order; the hidden counters of loops are invisible under the names of a program.
-/

namespace TeachLang

namespace NameMap

variable {α : Type}

theorem get?_insert (m : NameMap α) (name other : String) (value : α) :
    (m.insert name value).get? other = if other = name then some value else m.get? other := by
  split
  case isTrue h => rw [h, get?_insert_self]
  case isFalse h => exact get?_insert_of_ne m h value

theorem contains_eq_false_iff (m : NameMap α) (name : String) :
    m.contains name = false ↔ m.get? name = none := by
  simp [contains]

theorem insertEntry_insertEntry (name : String) (value other : α) (entries : List (String × α)) :
    insertEntry name other (insertEntry name value entries) = insertEntry name other entries := by
  induction entries with
  | nil => simp [insertEntry]
  | cons e rest ih =>
    obtain ⟨n, v⟩ := e
    by_cases hlt : name < n
    · simp [insertEntry, hlt]
    · by_cases hn : name = n
      · simp [insertEntry, hn]
      · simp [insertEntry, hlt, hn, ih]

/-- Of two entries of one name the second is left. -/
theorem insert_insert (m : NameMap α) (name : String) (value other : α) :
    (m.insert name value).insert name other = m.insert name other :=
  NameMap.ext (insertEntry_insertEntry name value other m.entries)

/-- A new entry joins the others. -/
theorem insertEntry_perm {name : String} {entries : List (String × α)} (value : α)
    (h : entries.lookup name = none) :
    (insertEntry name value entries).Perm ((name, value) :: entries) := by
  induction entries with
  | nil => exact .refl _
  | cons e rest ih =>
    obtain ⟨n, v⟩ := e
    obtain ⟨hne, hrest⟩ : name ≠ n ∧ rest.lookup name = none := by
      by_cases hn : name = n
      · simp [hn] at h
      · exact ⟨hn, by simpa [List.lookup_cons, beq_false_of_ne hn] using h⟩
    unfold insertEntry
    split
    · exact .refl _
    · exact ((ih hrest).cons _).trans (.swap _ _ _)

/-- An entry that a selection leaves out, put where it leaves out the one before it, is not seen. -/
theorem filter_insertEntry {p : String × α → Bool} {name : String} {value : α}
    {entries : List (String × α)} (hnew : p (name, value) = false)
    (hold : ∀ v, entries.lookup name = some v → p (name, v) = false) :
    (insertEntry name value entries).filter p = entries.filter p := by
  induction entries with
  | nil => simp [insertEntry, hnew]
  | cons e rest ih =>
    obtain ⟨n, v⟩ := e
    unfold insertEntry
    split
    · rw [List.filter_cons_of_neg (by simp [hnew])]
    · split
      case isTrue h =>
        subst h
        rw [List.filter_cons_of_neg (by simp [hnew]),
          List.filter_cons_of_neg (by simp [hold v (by simp)])]
      case isFalse h =>
        have hrest : ∀ w, rest.lookup name = some w → p (name, w) = false := fun w hw =>
          hold w (by simpa [List.lookup_cons, beq_false_of_ne h] using hw)
        simp only [List.filter_cons, ih hrest]

end NameMap

namespace SymbolTable

/-- The rows of the parameters in the order of their names. -/
def parameterEntries (table : SymbolTable) : List (String × Register) :=
  table.entries.filter fun e => e.2.kind = .param

theorem parameterRows_eq (m : SymbolTable) :
    m.parameterRows = m.parameterEntries.mergeSort
      (fun a b => (compare a.2.position b.2.position).isLE) := by
  rfl

theorem position_le_trans (a b c : String × Register)
    (hab : (compare a.2.position b.2.position).isLE)
    (hbc : (compare b.2.position c.2.position).isLE) :
    (compare a.2.position c.2.position).isLE :=
  Std.TransOrd.isLE_trans hab hbc

theorem position_le_total (a b : String × Register) :
    (compare a.2.position b.2.position).isLE || (compare b.2.position a.2.position).isLE := by
  rw [Std.OrientedOrd.eq_swap (a := b.2.position)]
  cases compare a.2.position b.2.position <;> rfl

theorem perm_parameterRows (m : SymbolTable) : m.parameterRows.Perm m.parameterEntries :=
  m.parameterRows_eq ▸ List.mergeSort_perm _ _

/-- The parameters are numbered from zero on in their order. -/
def Positioned (m : SymbolTable) : Prop :=
  m.parameterRows.map (·.2.position) = (List.range m.parameterRows.length).map some

theorem parameterRows_empty : parameterRows .empty = [] := by
  simp [parameterRows_eq, parameterEntries, NameMap.empty]

theorem positioned_empty : Positioned .empty := by simp [Positioned, parameterRows_empty]

theorem parameterRows_insert_of_not_param (m : SymbolTable) {name : String} {r : Register}
    (hnew : r.kind ≠ .param) (hold : ∀ v, m.get? name = some v → v.kind ≠ .param) :
    SymbolTable.parameterRows (m.insert name r) = m.parameterRows := by
  rw [parameterRows_eq, parameterRows_eq]
  congr 1
  exact NameMap.filter_insertEntry (decide_eq_false hnew) fun v hv => decide_eq_false (hold v hv)

/-- A new parameter comes last. -/
theorem parameterRows_insert_param {m : SymbolTable} {name : String} (ty : Ty)
    (hnew : m.get? name = none) (hm : m.Positioned) :
    SymbolTable.parameterRows (m.insert name (.param ty m.parameterRows.length)) =
      m.parameterRows ++ [(name, .param ty m.parameterRows.length)] := by
  set rows := m.parameterRows with hrows
  have hpositions : (rows ++ [(name, Register.param ty rows.length)]).map (·.2.position) =
      (List.range (rows.length + 1)).map some := by
    rw [List.map_append, List.range_succ, List.map_append, ← hm]
    rfl
  have hsorted : (rows ++ [(name, Register.param ty rows.length)]).Pairwise
      (fun a b => (compare a.2.position b.2.position).isLE) := by
    rw [← List.pairwise_map (R := fun p q : Option Nat => (compare p q).isLE), hpositions,
      List.pairwise_map]
    exact List.pairwise_le_range.imp Nat.isLE_compare.2
  have hdistinct : ((rows ++ [(name, Register.param ty rows.length)]).map (·.2.position)).Nodup := by
    rw [hpositions]
    exact List.nodup_range.map fun _ _ => Option.some.inj
  have hperm : (SymbolTable.parameterRows (m.insert name (.param ty rows.length))).Perm
      (rows ++ [(name, .param ty rows.length)]) := by
    refine (perm_parameterRows _).trans ?_
    refine ((NameMap.insertEntry_perm _ hnew).filter _).trans ?_
    refine List.Perm.trans ?_ (List.perm_append_comm)
    exact (m.perm_parameterRows.symm.cons _)
  refine hperm.eq_of_pairwise (fun a b ha hb hab hba => ?_) ?_ hsorted
  · exact List.inj_on_of_nodup_map hdistinct (hperm.mem_iff.1 ha) hb
      (Std.LawfulEqOrd.eq_of_compare (Std.OrientedCmp.isLE_antisymm hab hba))
  · rw [parameterRows_eq]
    exact List.pairwise_mergeSort position_le_trans position_le_total _

def insertAll (m : SymbolTable) (rows : List (String × Register)) : SymbolTable :=
  rows.foldl (fun m row => m.insert row.1 row.2) m

/-- Rows with different names, none of which a table has. -/
def Fresh (m : SymbolTable) (rows : List (String × Register)) : Prop :=
  (rows.map (·.1)).Nodup ∧ ∀ row ∈ rows, m.get? row.1 = none

theorem insertAll_append (m : SymbolTable) (rows more : List (String × Register)) :
    m.insertAll (rows ++ more) = (m.insertAll rows).insertAll more := List.foldl_append

theorem get?_insertAll {m : SymbolTable} {rows : List (String × Register)}
    (h : (rows.map (·.1)).Nodup) (name : String) :
    NameMap.get? (m.insertAll rows) name = (rows.lookup name).or (m.get? name) := by
  induction rows generalizing m with
  | nil => rfl
  | cons row rows ih =>
    obtain ⟨x, r⟩ := row
    rw [List.map_cons, List.nodup_cons] at h
    change NameMap.get? (insertAll (m.insert x r) rows) name = _
    rw [ih h.2, NameMap.get?_insert, List.lookup_cons]
    by_cases hx : name = x
    · subst hx
      have hnone : rows.lookup name = none := by
        rw [List.lookup_eq_none_iff]
        intro p hp
        simpa using fun hname : name = p.1 => h.1 (List.mem_map.2 ⟨p, hp, hname.symm⟩)
      simp [hnone]
    · simp [hx, beq_false_of_ne hx]

/-- A row of the longer table is one of the rows inserted or one that was there. -/
theorem mem_or_get?_of_insertAll {m : SymbolTable} {rows : List (String × Register)} {name : String}
    {r : Register} (h : NameMap.get? (m.insertAll rows) name = some r) :
    (name, r) ∈ rows ∨ m.get? name = some r := by
  induction rows generalizing m with
  | nil => exact .inr h
  | cons row rows ih =>
    rcases ih (m := m.insert row.1 row.2) h with hmem | hget
    · exact .inl (List.mem_cons_of_mem _ hmem)
    · rw [NameMap.get?_insert] at hget
      split at hget
      next heq =>
        cases hget
        exact .inl (by simp [heq])
      next => exact .inr hget

theorem fresh_append {m : SymbolTable} {rows more : List (String × Register)} :
    m.Fresh (rows ++ more) ↔ m.Fresh rows ∧ (m.insertAll rows).Fresh more := by
  unfold Fresh
  rw [List.map_append, List.nodup_append]
  constructor
  · rintro ⟨⟨hrows, hmore, hdisjoint⟩, hm⟩
    refine ⟨⟨hrows, fun row hrow => hm row (by simp [hrow])⟩, hmore, fun row hrow => ?_⟩
    rw [get?_insertAll hrows, hm row (by simp [hrow]), Option.or_none, List.lookup_eq_none_iff]
    intro p hp
    simpa using (hdisjoint p.1 (List.mem_map_of_mem hp) row.1 (List.mem_map_of_mem hrow)).symm
  · rintro ⟨⟨hrows, hm⟩, hmore, hnone⟩
    have hboth : ∀ row ∈ more, rows.lookup row.1 = none ∧ m.get? row.1 = none := by
      intro row hrow
      simpa [get?_insertAll hrows] using hnone row hrow
    refine ⟨⟨hrows, hmore, ?_⟩, ?_⟩
    · intro x hx y hy hxy
      obtain ⟨p, hp, rfl⟩ := List.mem_map.1 hx
      obtain ⟨row, hrow, rfl⟩ := List.mem_map.1 hy
      have := List.lookup_eq_none_iff.1 (hboth row hrow).1 p hp
      simp [hxy] at this
    · intro row hrow
      rcases List.mem_append.1 hrow with hrow | hrow
      · exact hm row hrow
      · exact (hboth row hrow).2

theorem fresh_cons {m : SymbolTable} {row : String × Register} {rows : List (String × Register)} :
    m.Fresh (row :: rows) ↔ m.get? row.1 = none ∧ SymbolTable.Fresh (m.insert row.1 row.2) rows := by
  rw [← List.singleton_append, fresh_append]
  simp [Fresh, insertAll]

theorem parameterRows_insertAll_of_not_param {m : SymbolTable} {rows : List (String × Register)}
    (hrows : ∀ row ∈ rows, row.2.kind ≠ .param)
    (hm : ∀ row ∈ rows, ∀ r, m.get? row.1 = some r → r.kind ≠ .param) :
    (m.insertAll rows).parameterRows = m.parameterRows := by
  induction rows generalizing m with
  | nil => rfl
  | cons row rows ih =>
    have hrow := hrows row (by simp)
    change SymbolTable.parameterRows (insertAll (m.insert row.1 row.2) rows) = _
    rw [ih (fun x hx => hrows x (by simp [hx])) ?_,
      parameterRows_insert_of_not_param m hrow (hm row (by simp))]
    intro x hx r hr
    rw [NameMap.get?_insert] at hr
    split at hr
    next heq =>
      cases hr
      exact hrow
    next => exact hm x (by simp [hx]) r hr

/-- The rows of some parameters that are numbered from `n` on. -/
def parameterRegisters (n : Nat) (ps : List (String × Ty)) : List (String × Register) :=
  (ps.zipIdx n).map fun p => (p.1.1, .param p.1.2 p.2)

theorem map_fst_parameterRegisters (n : Nat) (ps : List (String × Ty)) :
    (parameterRegisters n ps).map (·.1) = ps.map (·.1) := by
  rw [parameterRegisters, List.map_map]
  conv_rhs => rw [← List.zipIdx_map_fst n ps, List.map_map]
  rfl

/-- Parameters that are numbered on go on with those of the table. -/
theorem parameters_insertAll {m : SymbolTable} {ps : List (String × Ty)} (hm : m.Positioned)
    (hps : m.Fresh (parameterRegisters m.parameterRows.length ps)) :
    (m.insertAll (parameterRegisters m.parameterRows.length ps)).Positioned ∧
      (m.insertAll (parameterRegisters m.parameterRows.length ps)).parameters =
        m.parameters ++ ps := by
  induction ps generalizing m with
  | nil => exact ⟨hm, (List.append_nil _).symm⟩
  | cons p ps ih =>
    obtain ⟨name, ty⟩ := p
    obtain ⟨hnew, hrest⟩ := fresh_cons.1 hps
    have hrows := parameterRows_insert_param ty hnew hm
    set next := NameMap.insert m name (.param ty m.parameterRows.length) with hnext
    have hlength : (SymbolTable.parameterRows next).length = m.parameterRows.length + 1 := by
      simp [hrows]
    have hpositioned : SymbolTable.Positioned next := by
      unfold Positioned
      rw [hlength, hrows, List.map_append, hm, List.range_succ, List.map_append]
      rfl
    rw [← hlength] at hrest
    obtain ⟨hfinal, hparameters⟩ := ih hpositioned hrest
    have hsplit : parameterRegisters m.parameterRows.length ((name, ty) :: ps) =
        (name, .param ty m.parameterRows.length) ::
          parameterRegisters (SymbolTable.parameterRows next).length ps := by
      rw [hlength]
      rfl
    rw [hsplit]
    refine ⟨hfinal, hparameters.trans ?_⟩
    simp [parameters, hrows, Register.param]

end SymbolTable

namespace Tables

variable (t : Tables) (ctx : Context)

@[simp] theorem current?_root : t.current? .root = none := rfl

@[simp] theorem scope_root : t.scope .root = t.globals := rfl

/-- A name is declared in the scope of the context. -/
theorem scope_declare (name : String) (r : Register) :
    (t.declare ctx name r).scope ctx = (t.scope ctx).insert name r := by
  unfold declare scope current?
  cases hq : ctx.procedure with
  | none => rfl
  | some q =>
    cases hp : t.procedures.get? q with
    | none => simp [hp]
    | some p => simp [hp, NameMap.get?_insert_self]

/-- Only the current procedure gets a row. -/
theorem get?_procedures_declare (name : String) (r : Register) (q : String) :
    (t.declare ctx name r).procedures.get? q =
      if ctx.procedure = some q then
        (t.procedures.get? q).map fun p => { p with symbols := p.symbols.insert name r }
      else t.procedures.get? q := by
  unfold declare current?
  cases hc : ctx.procedure with
  | none => simp
  | some c =>
    cases hp : t.procedures.get? c with
    | none =>
      by_cases hq : c = q
      · subst hq
        simp [hp]
      · simp [hp, hq]
    | some p =>
      by_cases hq : c = q
      · subst hq
        simp [hp, NameMap.get?_insert_self]
      · simp [hp, hq, NameMap.get?_insert_of_ne _ (Ne.symm hq)]

theorem current?_declare (name : String) (r : Register) :
    (t.declare ctx name r).current? ctx =
      (t.current? ctx).map fun p => { p with symbols := p.symbols.insert name r } := by
  unfold current?
  cases hc : ctx.procedure with
  | none => rfl
  | some c => simp [get?_procedures_declare, hc]

/-- Inside a procedure, the global names stay. -/
theorem globals_declare (name : String) (r : Register) (h : (t.current? ctx).isSome) :
    (t.declare ctx name r).globals = t.globals := by
  obtain ⟨p, hp⟩ := Option.isSome_iff_exists.1 h
  unfold declare
  cases hc : ctx.procedure with
  | none => simp [current?, hc] at h
  | some c => simp [hp]

theorem lookup?_declare_of_ne {name other : String} (r : Register) (h : other ≠ name) :
    (t.declare ctx name r).lookup? ctx other = t.lookup? ctx other := by
  unfold lookup?
  rw [current?_declare]
  cases hp : t.current? ctx with
  | none =>
    have hscope := t.scope_declare ctx name r
    simp only [scope, current?_declare, hp, Option.map_none] at hscope
    simp [hscope, NameMap.get?_insert_of_ne _ h]
  | some p => simp [NameMap.get?_insert_of_ne _ h, globals_declare, hp]

def declareAll (t : Tables) (ctx : Context) (rows : List (String × Register)) : Tables :=
  rows.foldl (fun t row => t.declare ctx row.1 row.2) t

@[simp] theorem declareAll_nil : t.declareAll ctx [] = t := rfl

@[simp] theorem declareAll_cons (row : String × Register) (rows : List (String × Register)) :
    t.declareAll ctx (row :: rows) = (t.declare ctx row.1 row.2).declareAll ctx rows := rfl

theorem declareAll_append (rows more : List (String × Register)) :
    t.declareAll ctx (rows ++ more) = (t.declareAll ctx rows).declareAll ctx more :=
  List.foldl_append

/-- Outside of procedures, the rows are global. -/
theorem declareAll_root (rows : List (String × Register)) :
    t.declareAll .root rows = ⟨t.globals.insertAll rows, t.procedures⟩ := by
  induction rows generalizing t with
  | nil => rfl
  | cons row rows ih => exact ih _

/-- Inside a procedure, the rows are those of the procedure. -/
theorem declareAll_procedure {q : String} (hq : ctx.procedure = some q) (globals : SymbolTable)
    (procedures : ProcedureTable) (p : Procedure) (rows : List (String × Register)) :
    declareAll ⟨globals, procedures.insert q p⟩ ctx rows =
      ⟨globals, procedures.insert q { p with symbols := p.symbols.insertAll rows }⟩ := by
  induction rows generalizing p with
  | nil => rfl
  | cons row rows ih =>
    have hcurrent : current? ⟨globals, procedures.insert q p⟩ ctx = some p := by
      simp [current?, hq, NameMap.get?_insert_self]
    rw [declareAll_cons, declare, hq, hcurrent]
    dsimp only
    rw [NameMap.insert_insert]
    exact ih _

theorem scope_declareAll (rows : List (String × Register)) :
    (t.declareAll ctx rows).scope ctx = (t.scope ctx).insertAll rows := by
  induction rows generalizing t with
  | nil => rfl
  | cons row rows ih => rw [declareAll_cons, ih, scope_declare]; rfl

theorem get?_procedures_declareAll (rows : List (String × Register)) (q : String) :
    (t.declareAll ctx rows).procedures.get? q =
      if ctx.procedure = some q then
        (t.procedures.get? q).map fun p => { p with symbols := p.symbols.insertAll rows }
      else t.procedures.get? q := by
  induction rows generalizing t with
  | nil => simp [SymbolTable.insertAll]
  | cons row rows ih =>
    rw [declareAll_cons, ih, get?_procedures_declare]
    split
    · rw [Option.map_map]
      rfl
    · rfl

theorem current?_declareAll (rows : List (String × Register)) :
    (t.declareAll ctx rows).current? ctx =
      (t.current? ctx).map fun p => { p with symbols := p.symbols.insertAll rows } := by
  unfold current?
  cases hc : ctx.procedure with
  | none => rfl
  | some c => simp [get?_procedures_declareAll, hc]

theorem globals_declareAll (rows : List (String × Register)) (h : (t.current? ctx).isSome) :
    (t.declareAll ctx rows).globals = t.globals := by
  induction rows generalizing t with
  | nil => rfl
  | cons row rows ih =>
    rw [declareAll_cons, ih _ (by simpa [current?_declare] using h), globals_declare t ctx _ _ h]

theorem lookup?_declareAll {rows : List (String × Register)} {name : String}
    (h : ∀ row ∈ rows, name ≠ row.1) :
    (t.declareAll ctx rows).lookup? ctx name = t.lookup? ctx name := by
  induction rows generalizing t with
  | nil => rfl
  | cons row rows ih =>
    rw [declareAll_cons, ih _ fun x hx => h x (by simp [hx]),
      lookup?_declare_of_ne t ctx row.2 (h row (by simp))]

end Tables
end TeachLang
