import TeachLang.Proofs.Check.Denoted
import TeachLang.Proofs.History.Regular

/-! # Returned tables

The tables that a passed check leaves, in one equation: the rows of the declarations, those
of the hidden counters behind them, and nothing else.  For an accepted source they list
what it declares, each name in its own scope.
-/

namespace TeachLang

/-! ## Tables that hold given rows -/

namespace NameMap

variable {α : Type} {m : NameMap α} {rows more : List (String × α)}

/-- A table has the given rows and no others.  A row that is given more than once is there once. -/
def Holds (m : NameMap α) (rows : List (String × α)) : Prop := ∀ row, row ∈ m.entries ↔ row ∈ rows

/-- Among ordered entries, a new one takes the place of the one of its name. -/
theorem mem_insertEntry_iff {name : String} {value : α} {entries : List (String × α)}
    (h : entries.Pairwise (·.1 < ·.1)) (e : String × α) :
    e ∈ insertEntry name value entries ↔ e = (name, value) ∨ e ∈ entries ∧ e.1 ≠ name := by
  induction entries with
  | nil => simp [insertEntry]
  | cons first rest ih =>
    obtain ⟨n, v⟩ := first
    obtain ⟨hfirst, hrest⟩ := List.pairwise_cons.1 h
    unfold insertEntry
    split
    next hlt =>
      have hall : ∀ e ∈ (n, v) :: rest, e.1 ≠ name :=
        List.forall_mem_cons.2 ⟨hlt.ne', fun e he => (hlt.trans (hfirst e he)).ne'⟩
      rw [List.mem_cons, and_iff_left_of_imp (hall e)]
    next hle =>
      split
      next heq =>
        subst heq
        have hall : ∀ e ∈ rest, e.1 ≠ name := fun e he => (hfirst e he).ne'
        grind
      next hne =>
        rw [List.mem_cons, ih hrest, List.mem_cons]
        grind

/-- Rows of one name are the same row. -/
def Coherent (rows : List (String × α)) : Prop :=
  ∀ row ∈ rows, ∀ other ∈ rows, row.1 = other.1 → row = other

theorem Holds.insert (h : m.Holds rows) {row : String × α} (hrows : Coherent (rows ++ [row])) :
    (m.insert row.1 row.2).Holds (rows ++ [row]) := by
  intro e
  change e ∈ insertEntry row.1 row.2 m.entries ↔ _
  rw [mem_insertEntry_iff m.ordered, h e, List.mem_append, List.mem_singleton]
  constructor
  · rintro (rfl | ⟨he, -⟩)
    · exact .inr rfl
    · exact .inl he
  · rintro (he | rfl)
    · by_cases hname : e.1 = row.1
      · exact .inl (hrows e (by simp [he]) row (by simp) hname)
      · exact .inr ⟨he, hname⟩
    · exact .inl rfl

theorem Holds.foldl_insert (h : m.Holds rows) (hrows : Coherent (rows ++ more)) :
    (more.foldl (fun m row => m.insert row.1 row.2) m).Holds (rows ++ more) := by
  induction more generalizing m rows with
  | nil => simpa using h
  | cons row more ih =>
    rw [List.append_cons] at hrows ⊢
    refine ih (h.insert fun a ha b hb => ?_) hrows
    exact hrows a (List.mem_append_left _ ha) b (List.mem_append_left _ hb)

/-- Rows that are inserted one after the other are held if those of one name are the same. -/
theorem holds_foldl_insert (h : Coherent rows) :
    (rows.foldl (fun m row => m.insert row.1 row.2) empty).Holds rows :=
  Holds.foldl_insert (fun _ => .rfl) h

end NameMap

/-! ## The tables of a passed check -/

section

variable {t : Tables}

/-- The row of a procedure after its check: with what it declares, and with the hidden counters of
the loops of its body. -/
def ProcedureDecl.checked (d : ProcedureDecl) : Procedure :=
  { Procedure.user d.returnType.denoted with
    symbols := SymbolTable.insertAll .empty (d.rows ++ counterRows d.body.loopItems) }

theorem ProcedureDecl.check_eq_insert {d : ProcedureDecl}
    (hok : (d.check .root t).2.2 = .ok ()) :
    (d.check .root t).2.1 = ⟨t.globals, t.procedures.insert d.name.text d.checked⟩ := by
  cases hget : t.procedures.get? d.name.text with
  | some p => simp [check, hget] at hok
  | none =>
    rw [check_tables hget hok, Tables.withProcedure, Tables.declareAll_procedure _ rfl]
    rfl

/-- The table with the rows of procedures that have passed their checks. -/
def ProcedureTable.withChecked (table : ProcedureTable) (ds : List ProcedureDecl) :
    ProcedureTable :=
  ds.foldl (fun table d => table.insert d.name.text d.checked) table

theorem checkEach_procedures_eq_withChecked (ds : List ProcedureDecl)
    (hok : (checkEach (ProcedureDecl.check .root) t ds).2.2 = .ok ()) :
    (checkEach (ProcedureDecl.check .root) t ds).2.1 =
      ⟨t.globals, t.procedures.withChecked ds⟩ := by
  induction ds generalizing t with
  | nil => rfl
  | cons d ds ih =>
    have hfirst := d.check_eq_insert (t := t)
    rw [checkEach_procedures_cons] at hok ⊢
    generalize d.check .root t = left at hfirst hok ⊢
    rcases left with ⟨_, t', e | _⟩
    · cases hok
    · obtain rfl := hfirst rfl
      exact ih hok

/-- A passed check of a program has put the rows of its declarations into the tables. -/
theorem Program.check_eq_insertAll {p : Program} (hok : (p.check t).2.2 = .ok ()) :
    (p.check t).2.1 = ⟨t.globals.insertAll (p.rows ++ counterRows p.statements.loopItems),
      t.procedures.withChecked p.procedures.procedures⟩ := by
  have hlocals := (declaresLocals .root).tables t (p.constants, p.vars)
  rw [check_snd] at hok ⊢
  generalize checkBoth (checkOption (ConstantList.check .root))
    (checkOption (VariableList.check .root)) _ _ = left at hlocals hok ⊢
  rcases left with ⟨_, t₁, e | _⟩
  · cases hok
  obtain rfl : t₁ = ⟨t.globals.insertAll p.rows, t.procedures⟩ :=
    (hlocals rfl).trans (t.declareAll_root _)
  dsimp only at hok ⊢
  have hprocedures := checkEach_procedures_eq_withChecked p.procedures.procedures
    (t := ⟨t.globals.insertAll p.rows, t.procedures⟩)
  generalize checkEach (ProcedureDecl.check .root) _ _ = left at hprocedures hok ⊢
  rcases left with ⟨_, t₂, e | _⟩
  · cases hok
  dsimp only at hok ⊢
  obtain ⟨first, -, htables, hall⟩ := p.statements.leavesCounters .root t₂
  obtain rfl := hprocedures rfl
  rw [htables, hall hok, Tables.declareAll_root, SymbolTable.insertAll_append]

end

/-! ## What tables list -/

/-- The table of a scope holds one row for each of its parameters, constants and variables, and one
for the hidden counter of each variable of a loop in its statements, at any depth.  Every row but
those of constants starts with the default value of its type. -/
structure SymbolTable.Lists (m : SymbolTable) (parameters : List (String × Ty))
    (constants : Option ConstantList) (vars : Option VariableList) (body : Block) : Prop where
  rows : ∃ rows, List.Forall₂ ConstantDecl.Gives (constants.elim [] (·.declarations)) rows ∧
    m.Holds (parameterRegisters 0 parameters ++ (rows ++ vars.elim [] (·.rows)) ++
      counterRows body.loopItems)
  start : ∀ row ∈ m.entries, row.2.kind ≠ .const →
    ∃ v, Value.default? row.2.ty = some v ∧ row.2.value = some v

structure ProcedureDecl.Gives (d : ProcedureDecl) (row : String × Procedure) : Prop where
  name : row.1 = d.name.text
  returnType : row.2.returnType = d.returnType.denoted
  user : row.2.builtin = false
  symbols : row.2.symbols.Lists d.parameters.parameters d.constants d.vars d.body

/-- Tables list what a program declares, next to the builtin procedures and nothing else. -/
structure Tables.Lists (t : Tables) (p : Program) : Prop where
  globals : t.globals.Lists [] p.constants p.vars p.statements
  procedures : ∃ rows, List.Forall₂ ProcedureDecl.Gives p.procedures.procedures rows ∧
    t.procedures.Holds (Builtin.catalogue.map (fun b => (b.name, b.toProcedure)) ++ rows)

theorem NameMap.coherent_of_nodup {α : Type} {rows : List (String × α)}
    (h : (rows.map (·.1)).Nodup) : Coherent rows :=
  fun _ hrow _ hother => List.inj_on_of_nodup_map h hrow hother

/-- Hidden counters have names of their own. -/
theorem coherent_append_counterRows {rows : List (String × Register)} (items : List String)
    (hdistinct : (rows.map (·.1)).Nodup) (hnames : ∀ row ∈ rows, ¬ IsCounter row.1) :
    NameMap.Coherent (rows ++ counterRows items) := by
  have hcounter : ∀ row ∈ counterRows items, IsCounter row.1 ∧ row.2 = .var .int := by
    intro row hrow
    obtain ⟨item, -, rfl⟩ := List.mem_map.1 hrow
    exact ⟨⟨item, rfl⟩, rfl⟩
  intro row hrow other hother hname
  rcases List.mem_append.1 hrow with hrow | hrow <;>
    rcases List.mem_append.1 hother with hother | hother
  · exact NameMap.coherent_of_nodup hdistinct row hrow other hother hname
  · exact absurd (hname ▸ (hcounter other hother).1) (hnames row hrow)
  · exact absurd (hname ▸ (hcounter row hrow).1) (hnames other hother)
  · exact Prod.ext hname ((hcounter row hrow).2.trans (hcounter other hother).2.symm)

section

variable {parameters : List (String × Ty)} {constants : Option ConstantList}
  {vars : Option VariableList} {body : Block}

theorem started_of_mem_rows (hparameters : ∀ p ∈ parameters, p.2.Concrete)
    (hvars : ∀ l ∈ vars, l.Grammatical) {row : String × Register}
    (hrow : row ∈ SymbolTable.parameterRegisters 0 parameters ++ localRows constants vars ++
      counterRows body.loopItems) (hkind : row.2.kind ≠ .const) :
    row.2.ty.Concrete ∧ row.2.value = Value.default? row.2.ty := by
  simp only [localRows, List.mem_append] at hrow
  obtain (hparameter | hconstant | hvar) | hcounter := hrow
  · obtain ⟨⟨p, k⟩, hp, rfl⟩ := List.mem_map.1 hparameter
    exact ⟨hparameters p (List.fst_mem_of_mem_zipIdx hp), rfl⟩
  · cases constants with
    | none => cases hconstant
    | some l =>
      obtain ⟨d, -, rfl⟩ := List.mem_map.1 hconstant
      exact absurd rfl hkind
  · cases vars with
    | none => cases hvar
    | some l =>
      obtain ⟨d, hd, hvar⟩ := List.mem_flatMap.1 hvar
      obtain ⟨i, -, rfl⟩ := List.mem_map.1 hvar
      exact ⟨TypeExpr.concrete_denoted ((hvars l rfl).declarations d hd).written, rfl⟩
  · obtain ⟨item, -, rfl⟩ := List.mem_map.1 hcounter
    exact ⟨by simp [Ty.Concrete], rfl⟩

/-- The rows of a scope whose names are new make up its table. -/
theorem SymbolTable.lists_insertAll (hparameters : ∀ p ∈ parameters, p.2.Concrete)
    (hconstants : ∀ l ∈ constants, l.Grammatical ∧ l.WellTyped) (hvars : ∀ l ∈ vars, l.Grammatical)
    (hdistinct : ((parameterRegisters 0 parameters ++ localRows constants vars).map (·.1)).Nodup)
    (hnames : ∀ row ∈ parameterRegisters 0 parameters ++ localRows constants vars,
      ¬ IsCounter row.1) :
    (insertAll .empty (parameterRegisters 0 parameters ++ localRows constants vars ++
      counterRows body.loopItems)).Lists parameters constants vars body := by
  have hcoherent := coherent_append_counterRows body.loopItems hdistinct hnames
  have hholds := NameMap.holds_foldl_insert hcoherent
  refine ⟨⟨constants.elim [] (·.rows), ?_, hholds⟩, fun row hrow hkind => ?_⟩
  · cases constants with
    | none => exact .nil
    | some l =>
      obtain ⟨hgrammatical, hwell⟩ := hconstants l rfl
      rw [Option.elim_some, Option.elim_some, ConstantList.rows, List.forall₂_map_right_iff,
        List.forall₂_same]
      exact fun d hd => (hgrammatical.declarations d hd).gives_row (hwell d hd)
  · obtain ⟨hty, hstart⟩ := started_of_mem_rows hparameters hvars ((hholds row).1 hrow) hkind
    obtain ⟨v, hv, -⟩ := Value.exists_default? hty
    exact ⟨v, hv, hstart.trans hv⟩

end

theorem ProcedureDecl.gives_checked {d : ProcedureDecl} (hd : d.Grammatical)
    (hconstants : ∀ l ∈ d.constants, l.WellTyped) (hdistinct : (d.rows.map (·.1)).Nodup) :
    d.Gives (d.name.text, d.checked) where
  name := rfl
  returnType := rfl
  user := rfl
  symbols := by
    have hparameters : ∀ p ∈ d.parameters.parameters, p.2.Concrete := by
      intro p hp
      obtain ⟨b, hb, hp⟩ := List.mem_flatMap.1 hp
      obtain ⟨i, -, rfl⟩ := List.mem_map.1 hp
      exact TypeExpr.concrete_denoted (hd.parameters b hb).written
    exact SymbolTable.lists_insertAll hparameters
      (fun l hl => ⟨hd.constants l hl, hconstants l hl⟩) hd.vars hdistinct
      fun row hrow => d.not_isCounter hd hrow

/-- The procedures of a well-formed program do not meet each other or builtins. -/
theorem Program.WellFormed.coherent_procedures {p : Program} (h : p.WellFormed) :
    NameMap.Coherent (Builtin.catalogue.map (fun b => (b.name, b.toProcedure)) ++
      p.procedures.procedures.map fun d => (d.name.text, d.checked)) := by
  apply NameMap.coherent_of_nodup
  rw [List.map_append, List.map_map, List.map_map, List.nodup_append]
  refine ⟨Builtin.names_nodup, h.procedures_distinct, fun x hx y hy hxy => ?_⟩
  obtain ⟨b, hb, rfl⟩ := List.mem_map.1 hx
  obtain ⟨d, hd, rfl⟩ := List.mem_map.1 hy
  exact h.no_builtin d hd b hb hxy.symm

/-- A passed check leaves tables that list what the program declares. -/
theorem Program.lists_of_check {p : Program} (hp : p.Grammatical)
    (hok : (p.check .initial).2.2 = .ok ()) : (p.check .initial).2.1.Lists p := by
  have hwell := (p.check_eq_ok_iff hp).1 hok
  rw [check_eq_insertAll hok]
  constructor
  · have hnames : ∀ row ∈ p.rows, ¬ IsCounter row.1 := fun row hrow =>
      not_isCounter_locals hp.constants hp.vars
        (p.map_rowBinding_rows ▸ List.mem_map_of_mem hrow)
    have hparameters : ∀ x ∈ ([] : List (String × Ty)), x.2.Concrete := by simp
    refine SymbolTable.lists_insertAll hparameters
      (fun l hl => ⟨hp.constants l hl, hwell.constants l hl⟩) hp.vars ?_ hnames
    exact map_fst_eq_of_map_rowBinding p.map_rowBinding_rows ▸ hwell.distinct
  · refine ⟨p.procedures.procedures.map fun d => (d.name.text, d.checked), ?_, ?_⟩
    · rw [List.forall₂_map_right_iff, List.forall₂_same]
      intro d hd
      obtain ⟨before, after, hsplit⟩ := List.append_of_mem hd
      obtain ⟨hdeclared, -⟩ := ProcedureDecl.wellFormed_iff.1 (hwell.procedures _ _ _ hsplit)
      exact d.gives_checked (hp.procedures d hd) hdeclared.1 hdeclared.2
    · have hholds := NameMap.holds_foldl_insert hwell.coherent_procedures
      rwa [List.foldl_append, List.foldl_map, List.foldl_map] at hholds

/-- The tables that are returned for an accepted source list what it declares, and nothing else. -/
theorem compile_lists {source : String} {p : Program} {result : TypedProgram}
    (hp : (parseProgram source).1 = .ok p) (h : compile source = .ok result) :
    result.tables.Lists p := by
  obtain ⟨p', hp', hcheck⟩ := compile_eq_ok_iff.1 h
  obtain rfl : p = p' := Except.ok.inj (hp.symm.trans hp')
  have hok : (p.check .initial).2.2 = .ok () := by rw [hcheck]
  have hlists := p.lists_of_check (grammatical_of_parseProgram hp) hok
  rwa [hcheck] at hlists

/-- Literals of several kinds, and loops in different scopes. -/
def listedSource : String :=
  "const s := \"a\"\"b\"; l := \x7b02\x7d; var i : integer;
  procedure p(z : integer;); begin for z in l do end; end;
  program for i in l do end; end;"

theorem compile_lists_loops : ∃ p result, (parseProgram listedSource).1 = .ok p ∧
    compile listedSource = .ok result ∧ result.tables.Lists p ∧ result.tables.globals.entries =
      [("__i_index", .var .int), ("i", .var .int), ("l", .const .intList (some (.ints [2]))),
        ("s", .const .string (some (.string "a\"b")))] := by
  have hentries : (compile listedSource).toOption.map (·.tables.globals.entries) =
      some [("__i_index", .var .int), ("i", .var .int), ("l", .const .intList (some (.ints [2]))),
        ("s", .const .string (some (.string "a\"b")))] := by
    decide +kernel
  cases hresult : compile listedSource with
  | error e => simp [hresult, Except.toOption] at hentries
  | ok result =>
    rw [hresult] at hentries
    obtain ⟨p, hp, -⟩ := compile_eq_ok_iff.1 hresult
    exact ⟨p, result, hp, rfl, compile_lists hp hresult, Option.some.inj hentries⟩

end TeachLang
