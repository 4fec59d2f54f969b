import TeachLang.Proofs.History.Names
import TeachLang.Proofs.Outline.Program
import TeachLang.Proofs.Table.Lines
import TeachLang.Proofs.Text.ByteOrder

/-! # Printed tables

The tables of a session are read back from what is printed of them.  This rests on what a session
can put into them: names without blanks and colons, and values of the types of their rows.
-/

namespace TeachLang

/-- Rows in the order of the bytes of their names. -/
def InByteOrder {α : Type} (rows : List (String × α)) : Prop :=
  rows.Pairwise fun e e' => utf8Bytes e.1 < utf8Bytes e'.1

namespace NameMap

variable {α : Type} {m : NameMap α}

theorem get?_of_mem {x : String} {value : α} (hmem : (x, value) ∈ m.entries) :
    m.get? x = some value := by
  obtain ⟨before, after, hsplit⟩ := List.append_of_mem hmem
  refine List.lookup_eq_some_iff.2 ⟨before, after, hsplit, fun e he => ?_⟩
  have hordered : (before ++ (x, value) :: after).Pairwise (·.1 < ·.1) := hsplit ▸ m.ordered
  have hlt := (List.pairwise_append.1 hordered).2.2 e he (x, value) List.mem_cons_self
  simpa using hlt.ne'

theorem inByteOrder (m : NameMap α) : InByteOrder m.entries := m.ordered.imp utf8Bytes_lt

end NameMap

section

variable {declared : List ProcedureDecl} {t : Tables}

theorem SymbolTable.legible_of {table : SymbolTable}
    (hnames : ∀ x r, table.get? x = some r → IsRowName x)
    (hrows : ∀ x r, table.get? x = some r → r.Lawful x) : SymbolTable.Legible table := by
  rintro ⟨x, r⟩ he
  have hget := NameMap.get?_of_mem he
  exact ⟨hnames x r hget, (hrows x r hget).valued, (hrows x r hget).started⟩

theorem Tables.Regular.legible_globals (h : t.Regular declared) (hnamed : t.Named) :
    SymbolTable.Legible t.globals :=
  SymbolTable.legible_of hnamed.globals fun x r hr => (h.globals x r hr).1

theorem Tables.Regular.regular_of_mem (h : t.Regular declared) {e : String × Procedure}
    (he : e ∈ t.procedures.entries) : e.2.Regular declared e.1 :=
  h.procedures e.1 e.2 (NameMap.get?_of_mem he)

theorem Tables.Regular.legible_procedures (h : t.Regular declared) (hnamed : t.Named) :
    ProcedureTable.Legible t.procedures := by
  rintro ⟨q, p⟩ he
  have hmem := List.mem_of_mem_filter he
  have hregular := h.regular_of_mem hmem
  obtain ⟨hname, hnames⟩ := hnamed.procedures q p (NameMap.get?_of_mem hmem)
  exact ⟨hname, SymbolTable.legible_of hnames hregular.rows⟩

end

/-- At two moments of the checks of sessions, symbol tables that are printed alike are the same, and
procedure tables that are printed alike have the same declared procedures.  Each row is printed on
one line, with the lines of the table of a procedure behind four blanks, and the rows stand in the
order of the bytes of their names. -/
theorem Tables.read_back_of_history {units units' : List Program}
    (h : ∀ p ∈ units, p.IsParsed) (h' : ∀ p ∈ units', p.IsParsed) {t t' : Tables}
    (ht : t ∈ Tables.initial.history units) (ht' : t' ∈ Tables.initial.history units') :
    Tables.initial.IsHistory units (Tables.initial.history units) ∧
    Tables.initial.IsHistory units' (Tables.initial.history units') ∧
    (t.globals.describe = t'.globals.describe → t.globals = t'.globals) ∧
    (t.procedures.describe = t'.procedures.describe →
      t.procedures.userEntries = t'.procedures.userEntries) ∧
    splitLines t.globals.describe.toList =
      (SymbolTable.lines t.globals).map (fun line => (line.toList, .newline)) ∧
    splitLines t.procedures.describe.toList =
      (ProcedureTable.lines t.procedures).map (fun line => (line.toList, .newline)) ∧
    InByteOrder t.globals.entries ∧ InByteOrder t.procedures.userEntries ∧
    ∀ e ∈ t.procedures.userEntries, InByteOrder e.2.symbols.entries := by
  have hgrammatical : ∀ p ∈ units, p.Grammatical := fun p hp => (h p hp).grammatical
  have hgrammatical' : ∀ p ∈ units', p.Grammatical := fun p hp => (h' p hp).grammatical
  have hregular := Tables.regular_history hgrammatical t ht
  have hregular' := Tables.regular_history hgrammatical' t' ht'
  have hnamed := Tables.named_history hgrammatical t ht
  have hnamed' := Tables.named_history hgrammatical' t' ht'
  have hglobals := hregular.legible_globals hnamed
  have hprocedures := hregular.legible_procedures hnamed
  refine ⟨isHistory_history _ units, isHistory_history _ units',
    SymbolTable.describe_injOn hglobals (hregular'.legible_globals hnamed'),
    ProcedureTable.describe_injOn hprocedures (hregular'.legible_procedures hnamed'), ?_, ?_,
    t.globals.inByteOrder, ?_, fun e he => ?_⟩
  · rw [SymbolTable.toList_describe, splitLines_endedLines hglobals.isLine]
  · rw [ProcedureTable.toList_describe hprocedures, splitLines_endedLines hprocedures.isLine]
  · exact t.procedures.inByteOrder.filter _
  · exact e.2.symbols.inByteOrder

/-- The tables of an accepted source are the last ones of a session with one unit. -/
theorem Tables.mem_history_of_compile {source : String} {result : TypedProgram}
    (h : compile source = .ok result) : ∃ p : Program, (∀ unit ∈ [p], unit.IsParsed) ∧
      result.tables ∈ Tables.initial.history [p] := by
  obtain ⟨p, hp, hcheck⟩ := compile_eq_ok_iff.1 h
  refine ⟨p, List.forall_mem_singleton.2 (.of_parseProgram hp), ?_⟩
  have hafter : Tables.initial.afterUnits [p] = result.tables := by
    rw [Tables.afterUnits, List.foldl_cons, List.foldl_nil, hcheck]
  exact List.mem_of_getLast? (hafter ▸ Tables.getLast?_history .initial [p])

/-- A list with quotes, commas and braces in its texts, and the same declarations in another
order. -/
def listingSources : String × String :=
  ("const l := \x7b\"\", \"\x7d\"\", \"\"\"\x7d; n := 7;
    procedure f(a : string;); begin end; program end;",
    "const n := 07; l := \x7b\"\", \"\x7d\"\", \"\"\"\x7d;
    procedure f(a : string;); begin end;
    program end;")

def sameTables (sources : String × String) : Bool :=
  match compile sources.1, compile sources.2 with
  | .ok p, .ok q =>
    p.tables.globals.describe = q.tables.globals.describe ∧
      p.tables.procedures.describe = q.tables.procedures.describe
  | _, _ => false

theorem exists_of_sameTables {sources : String × String} (h : sameTables sources) :
    ∃ p q : TypedProgram, compile sources.1 = .ok p ∧ compile sources.2 = .ok q ∧
      p.tables.globals.describe = q.tables.globals.describe ∧
      p.tables.procedures.describe = q.tables.procedures.describe := by
  unfold sameTables at h
  split at h
  next p q hp hq => exact ⟨p, q, hp, hq, of_decide_eq_true h⟩
  next => cases h

theorem Tables.read_back_of_history_listings : ∃ p q : TypedProgram,
    compile listingSources.1 = .ok p ∧ compile listingSources.2 = .ok q ∧
      p.tables.globals = q.tables.globals ∧
      p.tables.procedures.userEntries = q.tables.procedures.userEntries := by
  have hboth : sameTables listingSources := by decide +kernel
  obtain ⟨p, q, hp, hq, hglobals, hprocedures⟩ := exists_of_sameTables hboth
  obtain ⟨unit, hparsed, hmem⟩ := mem_history_of_compile hp
  obtain ⟨unit', hparsed', hmem'⟩ := mem_history_of_compile hq
  obtain ⟨-, -, hback, hback', -⟩ := read_back_of_history hparsed hparsed' hmem hmem'
  exact ⟨p, q, hp, hq, hback hglobals, hback' hprocedures⟩

end TeachLang
