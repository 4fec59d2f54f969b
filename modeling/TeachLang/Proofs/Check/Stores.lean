import TeachLang.Proofs.Check.Returned
import TeachLang.Proofs.History.Defined

/-! # Stores

The names that statements store into.  In a well-typed program an assignment stores into no
constant, whichever scope the name belongs to and whether it is indexed or not.  A loop over
a list only asks that its variable can hold the elements.
-/

namespace TeachLang

inductive StoreKind where
  | whole
  | element
  /-- A loop over a list stores each element into its variable. -/
  | item
deriving DecidableEq, Repr

structure Store where
  /-- The procedure around the statement. -/
  procedure : Option String
  kind : StoreKind
  target : Identifier

def Target.storeKind : Target → StoreKind
  | name _ => .whole
  | element _ _ _ _ => .element

mutual

def Statement.stores (procedure : Option String) : Statement → List Store
  | .assignment target _ _ _ => target.base?.toList.map fun base => ⟨procedure, target.storeKind, base⟩
  | .conditional _ _ body elseIfs _ otherwise _ =>
    body.stores procedure ++ (elseIfs.stores procedure ++ otherwise.stores procedure)
  | .loop _ body _ => body.stores procedure
  | .forEach _ item _ body _ => ⟨procedure, .item, item⟩ :: body.stores procedure
  | .call _ _ _ | .returning _ _ _ | .exit _ _ => []

def Block.stores (procedure : Option String) : Block → List Store
  | .mk statements _ => Statement.allStores procedure statements

def Statement.allStores (procedure : Option String) : List Statement → List Store
  | [] => []
  | s :: ss => s.stores procedure ++ Statement.allStores procedure ss

def ElseIfs.stores (procedure : Option String) : ElseIfs → List Store
  | .nil => []
  | .cons _ _ body _ rest => body.stores procedure ++ rest.stores procedure

def Else.stores (procedure : Option String) : Else → List Store
  | .absent => []
  | .present _ body _ => body.stores procedure

end

def Program.stores (p : Program) : List Store :=
  p.procedures.procedures.flatMap (fun d => d.body.stores (some d.name.text)) ++
    p.statements.stores none

/-- What a store of a kind may find: an assignment finds no constant, and a loop finds what can be
an element of a list. -/
def StoreKind.Admits (kind : StoreKind) (found : SymbolKind) (ty : Ty) : Prop :=
  if kind = .item then ty.toListType?.isSome else found = .var ∨ found = .param

/-- A store into a name that a scope declares accordingly. -/
structure Store.Lands (Γ : Scope) (procedure : Option String) (w : Store) : Prop where
  procedure : w.procedure = procedure
  written : w.target.Grammatical
  declared : ∃ b, Γ.resolve? w.target.name = some b ∧ w.kind.Admits b.kind b.ty

section

variable {Γ : Scope} {procedure : Option String}

theorem SymbolKind.eq_var_or_param {kind : SymbolKind} (h : kind ≠ .const) :
    kind = .var ∨ kind = .param := by
  cases kind <;> simp_all

theorem Target.lands {target : Target} {ty : Ty} (hg : target.Grammatical)
    (h : target.HasType Γ ty) :
    ∀ base ∈ target.base?, Store.Lands Γ procedure ⟨procedure, target.storeKind, base⟩ := by
  cases h with
  | name declared writable =>
    have hkind := SymbolKind.eq_var_or_param writable
    rintro _ ⟨⟩
    exact ⟨rfl, hg, _, declared, by simpa [storeKind, StoreKind.Admits] using hkind⟩
  | element declared writable =>
    have hkind := SymbolKind.eq_var_or_param writable
    rintro _ ⟨⟩
    exact ⟨rfl, hg.2.1, _, declared, by simpa [storeKind, StoreKind.Admits] using hkind⟩

mutual

/-- The stores of a well-typed statement land in its scope. -/
theorem Statement.stores_land {loop : Bool} (s : Statement) (hs : s.Grammatical)
    (h : Statement.WellTyped Γ loop s) : ∀ w ∈ s.stores procedure, w.Lands Γ procedure := by
  cases s with
  | assignment target symbol value slot =>
    obtain ⟨a, b, htarget, -, -⟩ := Statement.wellTyped_assignment_iff.1 h
    simpa [Statement.stores] using Target.lands hs.1 htarget
  | call | returning | exit => simp [Statement.stores]
  | conditional keyword condition body elseIfs elseIfsSlot otherwise slot =>
    obtain ⟨-, -, hbody, helseIfs, hotherwise⟩ := hs
    obtain ⟨-, hbody', helseIfs', hotherwise'⟩ := Statement.wellTyped_conditional_iff.1 h
    rw [Statement.stores, List.forall_mem_append, List.forall_mem_append]
    exact ⟨Block.stores_land body hbody hbody', ElseIfs.stores_land elseIfs helseIfs helseIfs',
      Else.stores_land otherwise hotherwise hotherwise'⟩
  | loop keyword body slot =>
    rw [Statement.stores]
    exact Block.stores_land body hs.2 (Statement.wellTyped_loop_iff.1 h)
  | forEach keyword item iterable body slot =>
    obtain ⟨-, hitem, -, hbody⟩ := hs
    obtain ⟨⟨b, whole, hb, hlist, -⟩, hbody'⟩ := Statement.wellTyped_forEach_iff.1 h
    rw [Statement.stores, List.forall_mem_cons]
    refine ⟨⟨rfl, hitem, b, hb, ?_⟩, Block.stores_land body hbody hbody'⟩
    simp [StoreKind.Admits, hlist]

theorem Block.stores_land {loop : Bool} (b : Block) (hb : b.Grammatical)
    (h : Block.WellTyped Γ loop b) : ∀ w ∈ b.stores procedure, w.Lands Γ procedure := by
  cases b with
  | mk statements slot =>
    rw [Block.stores]
    exact Statement.allStores_land statements hb (Block.wellTyped_iff.1 h)

theorem Statement.allStores_land {loop : Bool} (ss : List Statement)
    (hss : Statement.AllGrammatical ss) (h : Statement.AllWellTyped Γ loop ss) :
    ∀ w ∈ Statement.allStores procedure ss, w.Lands Γ procedure := by
  cases ss with
  | nil => simp [Statement.allStores]
  | cons s ss =>
    obtain ⟨hs, hrest⟩ := Statement.allWellTyped_cons_iff.1 h
    rw [Statement.allStores, List.forall_mem_append]
    exact ⟨Statement.stores_land s hss.1 hs, Statement.allStores_land ss hss.2 hrest⟩

theorem ElseIfs.stores_land {loop : Bool} (b : ElseIfs) (hb : b.Grammatical)
    (h : ElseIfs.WellTyped Γ loop b) : ∀ w ∈ b.stores procedure, w.Lands Γ procedure := by
  cases b with
  | nil => simp [ElseIfs.stores]
  | cons keyword condition body slot rest =>
    obtain ⟨-, -, hbody, hrest⟩ := hb
    obtain ⟨-, hbody', hrest'⟩ := ElseIfs.wellTyped_cons_iff.1 h
    rw [ElseIfs.stores, List.forall_mem_append]
    exact ⟨Block.stores_land body hbody hbody', ElseIfs.stores_land rest hrest hrest'⟩

theorem Else.stores_land {loop : Bool} (b : Else) (hb : b.Grammatical)
    (h : Else.WellTyped Γ loop b) : ∀ w ∈ b.stores procedure, w.Lands Γ procedure := by
  cases b with
  | absent => simp [Else.stores]
  | present keyword body slot =>
    rw [Else.stores]
    exact Block.stores_land body hb.2 (Else.wellTyped_present_iff.1 h)

end

end

section

/-- Rows under other names do not matter for a name. -/
theorem SymbolTable.get?_insertAll_of_ne {m : SymbolTable} {rows : List (String × Register)}
    {x : String} (h : ∀ row ∈ rows, x ≠ row.1) : NameMap.get? (m.insertAll rows) x = m.get? x := by
  induction rows generalizing m with
  | nil => rfl
  | cons row rows ih =>
    obtain ⟨hrow, hrows⟩ := List.forall_mem_cons.1 h
    exact (ih hrows).trans (NameMap.get?_insert_of_ne m hrow row.2)

/-- The hidden counters behind some rows do not disturb what is told of the names of the rows. -/
theorem SymbolTable.names_insertAll {rows : List (String × Register)}
    (hdistinct : (rows.map (·.1)).Nodup) (items : List String) {x : String} (hx : ¬ IsCounter x) :
    (NameMap.get? (insertAll .empty (rows ++ counterRows items)) x).map (Register.binding x) =
      (rows.map rowBinding).find? (·.name = x) := by
  rw [insertAll_append, get?_insertAll_of_ne (ne_of_mem_counterRows hx), get?_insertAll hdistinct,
    NameMap.get?_empty, Option.or_none, find?_map_rowBinding]

/-- The row of a procedure tells of names what its declaration does. -/
theorem Tables.HasRow.names {T : Tables} {d : ProcedureDecl} (h : T.HasRow d) :
    ∃ row, T.procedures.get? d.name.text = some row ∧ ∀ x, ¬ IsCounter x →
      (row.symbols.get? x).map (Register.binding x) = d.bindings.find? (·.name = x) := by
  obtain ⟨hdistinct, items, hrow⟩ := h
  refine ⟨_, hrow, fun x hx => ?_⟩
  rw [← d.map_rowBinding_rows, ← SymbolTable.names_insertAll hdistinct items hx,
    SymbolTable.insertAll_append]
  rfl

/-- The tables that a program leaves tell of global names what its declarations do. -/
theorem Program.names_of_check {p : Program} (hp : p.Grammatical)
    (hok : (p.check .initial).2.2 = .ok ()) {x : String} (hx : ¬ IsCounter x) :
    ((p.check .initial).2.1.globals.get? x).map (Register.binding x) =
      p.bindings.find? (·.name = x) := by
  have hdistinct := ((p.check_eq_ok_iff hp).1 hok).distinct
  rw [← map_fst_eq_of_map_rowBinding p.map_rowBinding_rows] at hdistinct
  rw [check_eq_insertAll hok, ← p.map_rowBinding_rows]
  exact SymbolTable.names_insertAll hdistinct p.statements.loopItems hx

end

/-- A store lands in tables that tell of names what the scope does. -/
theorem Store.Lands.admitted {Γ : Scope} {procedure : Option String} {w : Store} {T : Tables}
    (h : w.Lands Γ procedure)
    (hnames : ∀ x, ¬ IsCounter x →
      (T.lookup? ⟨procedure, false⟩ x).map (Register.binding x) = Γ.resolve? x) :
    ∃ r, T.lookup? ⟨w.procedure, false⟩ w.target.name = some r ∧ w.kind.Admits r.kind r.ty := by
  obtain ⟨rfl, written, b, hb, hadmits⟩ := h
  rw [← hnames w.target.name (not_isCounter_of_writes written), Option.map_eq_some_iff] at hb
  obtain ⟨r, hr, rfl⟩ := hb
  exact ⟨r, hr, hadmits⟩

/-- Where the stores of an accepted source land in the tables that are returned, with the local
scope looked at first: those of assignments, plain and indexed, in variables and parameters. -/
theorem compile_stores_admitted {source : String} {p : Program} {result : TypedProgram}
    (hp : (parseProgram source).1 = .ok p) (h : compile source = .ok result) :
    ∀ w ∈ p.stores, ∃ r, result.tables.lookup? ⟨w.procedure, false⟩ w.target.name = some r ∧
      w.kind.Admits r.kind r.ty := by
  have hgrammatical := grammatical_of_parseProgram hp
  obtain ⟨p', hp', hcheck⟩ := compile_eq_ok_iff.1 h
  obtain rfl : p = p' := Except.ok.inj (hp.symm.trans hp')
  have hok : (p.check .initial).2.2 = .ok () := by rw [hcheck]
  have hwell := (p.check_eq_ok_iff hgrammatical).1 hok
  have hglobals := fun x => Program.names_of_check hgrammatical hok (x := x)
  have hrows := Program.hasRow_of_check hgrammatical hok
  rw [hcheck] at hglobals hrows
  intro w hw
  rcases List.mem_append.1 hw with hw | hw
  · obtain ⟨d, hd, hw⟩ := List.mem_flatMap.1 hw
    obtain ⟨before, after, hsplit⟩ := List.append_of_mem hd
    have hbody := (hwell.procedures before d after hsplit).body
    have hlands := Block.stores_land d.body (hgrammatical.procedures d hd).body hbody w hw
    obtain ⟨row, hrow, hlocals⟩ := (hrows d hd).names
    refine hlands.admitted fun x hx => ?_
    simp only [Tables.lookup?, Tables.current?, Option.bind_some, hrow, Option.map_or]
    rw [hlocals x hx, hglobals x hx]
    rfl
  · have hlands := Block.stores_land p.statements hgrammatical.statements hwell.statements w hw
    exact hlands.admitted fun x hx => hglobals x hx

def storingSource : String :=
  "const n := 1; var l : list of integer; i : integer;
  procedure put(n : integer;); begin n := 2; l[0] := n; end;
  program for i in l do put(i); end; end;"

theorem compile_stores_admitted_hiding : ∃ p result, (parseProgram storingSource).1 = .ok p ∧
    compile storingSource = .ok result ∧ ∀ w ∈ p.stores, ∃ r,
      result.tables.lookup? ⟨w.procedure, false⟩ w.target.name = some r ∧
        w.kind.Admits r.kind r.ty := by
  have haccepted : (compile storingSource).isOk := by decide +kernel
  obtain ⟨result, hresult⟩ := exists_of_isOk haccepted
  obtain ⟨p, hp, -⟩ := compile_eq_ok_iff.1 hresult
  exact ⟨p, result, hp, hresult, compile_stores_admitted hp hresult⟩

def overwritingSource : String :=
  "const x := 1; program for x in \x7b2, 3\x7d do WrInt(x); end; end;"

/-- No check keeps a loop from storing into a constant. -/
theorem loop_stores_into_constant : ∃ p result, (parseProgram overwritingSource).1 = .ok p ∧
    compile overwritingSource = .ok result ∧ ∃ w ∈ p.stores, ∃ r,
      result.tables.lookup? ⟨w.procedure, false⟩ w.target.name = some r ∧ r.kind = .const := by
  have haccepted : (compile overwritingSource).isOk := by decide +kernel
  have hstores : ((parseProgram overwritingSource).1.toOption.any fun p => p.stores.any fun w =>
      (compile overwritingSource).toOption.any fun result =>
        (result.tables.lookup? ⟨w.procedure, false⟩ w.target.name).any (·.kind == .const)) := by
    decide +kernel
  obtain ⟨result, hresult⟩ := exists_of_isOk haccepted
  obtain ⟨p, hp, -⟩ := compile_eq_ok_iff.1 hresult
  simp only [hp, hresult, Except.toOption, Option.any_some, List.any_eq_true, Option.any_eq_true,
    beq_iff_eq] at hstores
  exact ⟨p, result, hp, hresult, hstores⟩

end TeachLang
