import Mathlib.Data.List.Dedup
import TeachLang.Proofs.History.Printed

/-! # Inserts in any order

What a symbol table holds after any run of inserts: one row for each name, the one that was inserted
last, in the order of the bytes of the names.  The parameters stand in the order of their positions,
and those of one position in the order of their names, as a stable sort leaves them.  So a table and
its parameters depend on the last row of each name only, and not on the order in which different
names came.
-/

namespace TeachLang

/-- A stable sort keeps the order `R` of a list among elements that it does not tell apart. -/
theorem pairwise_mergeSort_ties {α : Type} {le : α → α → Bool} {R : α → α → Prop} {l : List α}
    (trans : ∀ a b c, le a b → le b c → le a c) (total : ∀ a b, le a b || le b a)
    (h : l.Pairwise R) : (l.mergeSort le).Pairwise fun a b => le a b ∧ (le b a → R a b) := by
  -- elements are told apart by their places in the list
  have hsorted := List.pairwise_mergeSort (List.zipIdxLE_trans trans) (List.zipIdxLE_total total)
    l.zipIdx
  have hplaces : ((l.zipIdx.mergeSort (List.zipIdxLE le)).map (·.2)).Nodup := by
    refine ((List.mergeSort_perm _ _).map _).nodup_iff.2 ?_
    rw [List.zipIdx_map_snd]
    exact List.nodup_range'
  rw [← List.mergeSort_zipIdx, List.pairwise_map]
  refine (hsorted.and (List.pairwise_map.1 hplaces)).imp_of_mem ?_
  rintro ⟨a, i⟩ ⟨b, j⟩ ha hb ⟨hle, hne⟩
  rw [List.mem_mergeSort, List.mem_zipIdx_iff_getElem?] at ha hb
  simp only [List.zipIdxLE] at hle
  split at hle
  next hab =>
    refine ⟨hab, fun hba => ?_⟩
    rw [if_pos hba, decide_eq_true_eq] at hle
    obtain ⟨hi, hia⟩ := List.getElem?_eq_some_iff.1 ha
    obtain ⟨hj, hjb⟩ := List.getElem?_eq_some_iff.1 hb
    have hR := List.pairwise_iff_getElem.1 h i j hi hj (lt_of_le_of_ne hle hne)
    rwa [hia, hjb] at hR
  next => cases hle

section

variable {α : Type} {rows : List (String × α)} {name : String}

/-- The names of some rows are those under which a look-up finds a row. -/
theorem mem_map_fst_iff : name ∈ rows.map (·.1) ↔ (rows.lookup name).isSome := by
  rw [List.mem_map, List.lookup_isSome_iff]
  refine exists_congr fun row => and_congr_right fun _ => ?_
  rw [beq_iff_eq, eq_comm]

/-- A look-up reads the rows of its name only. -/
theorem lookup_filter :
    (rows.filter fun row => row.1 = name).lookup name = rows.lookup name := by
  induction rows with
  | nil => rfl
  | cons row rows ih =>
    obtain ⟨x, value⟩ := row
    by_cases h : x = name
    · simp [h]
    · simp [h, List.lookup_cons, beq_false_of_ne (Ne.symm h), ih]

end

namespace NameMap

variable {α : Type} {m m' : NameMap α}

/-- The entries of a map are what can be found in it. -/
theorem mem_entries_iff {name : String} {value : α} :
    (name, value) ∈ m.entries ↔ m.get? name = some value := by
  refine ⟨get?_of_mem, fun hget => ?_⟩
  obtain ⟨before, after, hsplit, -⟩ := List.lookup_eq_some_iff.1 hget
  rw [hsplit]
  exact List.mem_append_right _ List.mem_cons_self

theorem nodup_names (m : NameMap α) : m.names.Nodup :=
  List.pairwise_map.2 (m.ordered.imp ne_of_lt)

/-- Maps are told apart by what can be found in them. -/
theorem ext_get? (h : ∀ name, m.get? name = m'.get? name) : m = m' := by
  have hperm : m.entries.Perm m'.entries := by
    rw [List.perm_ext_iff_of_nodup (m.nodup_names.of_map _) (m'.nodup_names.of_map _)]
    rintro ⟨name, value⟩
    rw [mem_entries_iff, mem_entries_iff, h]
  refine NameMap.ext (hperm.eq_of_pairwise ?_ m.ordered m'.ordered)
  exact fun _ _ _ _ hlt hgt => absurd hlt hgt.not_gt

/-- The map that some inserts leave, one after the other. -/
def ofInserts (rows : List (String × α)) : NameMap α :=
  rows.foldl (fun m row => m.insert row.1 row.2) empty

variable {rows others : List (String × α)} {name : String}

theorem ofInserts_concat (row : String × α) :
    ofInserts (rows ++ [row]) = (ofInserts rows).insert row.1 row.2 := List.foldl_concat _ _ _ _

/-- A name has the value that was inserted last. -/
theorem get?_ofInserts : (ofInserts rows).get? name = rows.reverse.lookup name := by
  induction rows using List.reverseRecOn with
  | nil => rfl
  | append_singleton rows row ih =>
    rw [ofInserts_concat, get?_insert, ih, List.reverse_append, List.reverse_singleton,
      List.singleton_append, List.lookup_cons]
    split
    next h => simp [h]
    next h => simp [beq_false_of_ne h]

/-- The same map is left exactly by inserts that end alike for each name. -/
theorem ofInserts_eq_iff : ofInserts others = ofInserts rows ↔
    ∀ name, others.reverse.lookup name = rows.reverse.lookup name := by
  constructor
  · intro h name
    rw [← get?_ofInserts, h, get?_ofInserts]
  · intro h
    refine ext_get? fun name => ?_
    rw [get?_ofInserts, get?_ofInserts, h]

/-- Inserts of different names can change places. -/
theorem ofInserts_eq (h : ∀ name : String,
    (others.filter fun row => row.1 = name) = rows.filter fun row => row.1 = name) :
    ofInserts others = ofInserts rows := by
  refine ofInserts_eq_iff.2 fun name => ?_
  rw [← lookup_filter, List.filter_reverse, h, ← List.filter_reverse, lookup_filter]

/-- Each name that was inserted is there once. -/
theorem names_ofInserts : (ofInserts rows).names.Perm (rows.map (·.1)).dedup := by
  rw [List.perm_ext_iff_of_nodup (nodup_names _) (List.nodup_dedup _)]
  intro name
  calc name ∈ (ofInserts rows).names
    _ ↔ ((ofInserts rows).get? name).isSome := mem_map_fst_iff
    _ ↔ (rows.reverse.lookup name).isSome := by rw [get?_ofInserts]
    _ ↔ name ∈ rows.reverse.map (·.1) := mem_map_fst_iff.symm
    _ ↔ name ∈ (rows.map (·.1)).dedup := by
      rw [List.map_reverse, List.mem_reverse, List.mem_dedup]

theorem size_ofInserts : (ofInserts rows).size = (rows.map (·.1)).dedup.length := by
  rw [← names_ofInserts.length_eq, names, List.length_map, size]

end NameMap

theorem compare_eq_lt_iff {p q : Option Nat} : compare p q = .lt ↔ p < q := by
  cases p <;> cases q
  · exact iff_of_false (by simp) (by simp)
  · exact iff_of_true rfl (by simp)
  · exact iff_of_false (by simp [compare]) (by simp)
  · exact Nat.compare_eq_lt.trans Option.some_lt_some.symm

namespace SymbolTable

/-- In the order of the positions, rows without one first, and for one position in the order of the
bytes of the names. -/
def ByPosition (rows : List (String × Register)) : Prop :=
  rows.Pairwise fun a b => a.2.position < b.2.position ∨
    a.2.position = b.2.position ∧ utf8Bytes a.1 < utf8Bytes b.1

theorem byPosition_parameterRows (table : SymbolTable) : ByPosition table.parameterRows := by
  have hnames : InByteOrder table.parameterEntries := table.inByteOrder.filter _
  rw [parameterRows_eq]
  refine (pairwise_mergeSort_ties position_le_trans position_le_total hnames).imp ?_
  rintro a b ⟨hle, htie⟩
  cases hcompare : compare a.2.position b.2.position with
  | lt => exact .inl (compare_eq_lt_iff.1 hcompare)
  | eq =>
    have heq := Std.LawfulEqOrd.eq_of_compare hcompare
    exact .inr ⟨heq, htie (by rw [← heq, Std.ReflOrd.compare_self]; rfl)⟩
  | gt => simp [hcompare] at hle

end SymbolTable

namespace Procedure

variable (p : Procedure)

theorem parameterTypes_eq : p.parameterTypes = p.symbols.parameterRows.map (·.2.ty) := by
  rw [parameterTypes, parameters, SymbolTable.parameters, List.map_map]
  rfl

/-- The parameters are counted by their rows. -/
theorem arity_eq : p.arity = p.symbols.parameterEntries.length := by
  rw [← p.symbols.perm_parameterRows.length_eq, arity, parameters, SymbolTable.parameters,
    List.length_map]

end Procedure

namespace SymbolTable

/-- A table after any inserts is an ordered map of the last register of each name: its rows are in
the order of the bytes of their names, with one row for each name.  The parameters are the rows of
kind `PARAM` by position and then by name, also for a procedure with these rows.  Inserts of
different names can change places. -/
theorem ofInserts_orderedMap (rows : List (String × Register)) :
    let table : SymbolTable := .ofInserts rows
    InByteOrder table.entries ∧
    table.names.Perm (rows.map (·.1)).dedup ∧
    table.size = (rows.map (·.1)).dedup.length ∧
    (∀ name, table.get? name = rows.reverse.lookup name) ∧
    (∀ name r, (name, r) ∈ table.entries ↔ rows.reverse.lookup name = some r) ∧
    table.parameterRows.Perm table.parameterEntries ∧
    ByPosition table.parameterRows ∧
    (∀ p : Procedure, p.symbols = table →
      p.parameters = table.parameterRows.map (fun row => (row.1, row.2.ty)) ∧
      p.parameterTypes = table.parameterRows.map (·.2.ty) ∧
      p.arity = table.parameterEntries.length) ∧
    ∀ others : List (String × Register),
      (∀ name : String,
        (others.filter fun row => row.1 = name) = rows.filter fun row => row.1 = name) →
      .ofInserts others = table := by
  intro table
  refine ⟨table.inByteOrder, NameMap.names_ofInserts, NameMap.size_ofInserts,
    fun _ => NameMap.get?_ofInserts, fun name r => ?_, table.perm_parameterRows,
    table.byPosition_parameterRows, ?_, fun _ => NameMap.ofInserts_eq⟩
  · rw [NameMap.mem_entries_iff, NameMap.get?_ofInserts]
  · intro p hp
    exact hp ▸ ⟨rfl, p.parameterTypes_eq, p.arity_eq⟩

/-- A parameter that becomes a variable, one that moves to the position of another, one without a
position, a variable with one, and a last parameter that stands in front of others. -/
def reinsertedRows : List (String × Register) :=
  [("z", .param .int 0), ("é", .param .bool 0), ("a", .param .string 1), ("z", .var .int),
    ("é", .param .boolList 1), ("k", ⟨.int, .param, none, some (.bool true)⟩),
    ("v", ⟨.bool, .var, some 0, none⟩), ("y", .param .int 0)]

/-- The same inserts of each name, with the names in another order. -/
def shuffledRows : List (String × Register) :=
  [("y", .param .int 0), ("v", ⟨.bool, .var, some 0, none⟩), ("a", .param .string 1),
    ("é", .param .bool 0), ("é", .param .boolList 1), ("z", .param .int 0), ("z", .var .int),
    ("k", ⟨.int, .param, none, some (.bool true)⟩)]

theorem ofInserts_orderedMap_reinserted :
    (.ofInserts shuffledRows : SymbolTable) = .ofInserts reinsertedRows ∧
    NameMap.size (.ofInserts reinsertedRows) = 6 ∧
    Procedure.parameters ⟨.void, false, .ofInserts reinsertedRows⟩ =
      [("k", .int), ("y", .int), ("a", .string), ("é", .boolList)] := by
  obtain ⟨-, -, hsize, -, -, -, -, hparameters, hothers⟩ := ofInserts_orderedMap reinsertedRows
  refine ⟨hothers shuffledRows fun name => ?_, hsize.trans (by decide), ?_⟩
  · simp only [shuffledRows, reinsertedRows, List.filter_cons, List.filter_nil]
    by_cases hz : "z" = name
    · subst hz; decide
    · by_cases hé : "é" = name
      · subst hé; decide
      · by_cases ha : "a" = name
        · subst ha; decide
        · by_cases hk : "k" = name
          · subst hk; decide
          · by_cases hv : "v" = name
            · subst hv; decide
            · simp [hz, hé, ha, hk, hv]
  · have hrows : (NameMap.ofInserts reinsertedRows).entries.filter (fun e => e.2.kind = .param) =
        [("a", .param .string 1), ("k", ⟨.int, .param, none, some (.bool true)⟩),
          ("y", .param .int 0), ("é", .param .boolList 1)] := by decide +kernel
    refine (hparameters ⟨.void, false, .ofInserts reinsertedRows⟩ rfl).1.trans ?_
    rw [parameterRows_eq, parameterEntries, hrows]
    simp [List.mergeSort, List.cons_merge_cons, Register.param, compare, compareOfLessAndEq]

end SymbolTable
end TeachLang
