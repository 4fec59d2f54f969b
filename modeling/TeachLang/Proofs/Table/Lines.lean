import TeachLang.Proofs.Table.Row
import TeachLang.Table.Procedures

/-! # Lines of tables

A symbol table is printed with one line for each row, and a procedure table with the lines of one
table inside the other, moved to the right.  A line that is not moved is the head of a procedure.
-/

namespace TeachLang

def ruleLine : String := "===================="

def endedLines (lines : List String) : List Char := ended (lines.map String.toList)

theorem splitLines_endedLines {lines : List String} (h : ∀ line ∈ lines, IsLine line.toList) :
    splitLines (endedLines lines) = lines.map fun line => (line.toList, .newline) := by
  rw [endedLines, splitLines_ended (List.forall_mem_map.2 h), List.map_map]
  rfl

theorem endedLines_inj {lines lines' : List String} (h : ∀ line ∈ lines, IsLine line.toList)
    (h' : ∀ line ∈ lines', IsLine line.toList) (heq : endedLines lines = endedLines lines') :
    lines = lines' := by
  have hlists := ended_injOn (List.forall_mem_map.2 h) (List.forall_mem_map.2 h') heq
  exact List.map_injective_iff.2 (fun _ _ => String.toList_inj.1) hlists

theorem endedLines_append (lines lines' : List String) :
    endedLines (lines ++ lines') = endedLines lines ++ endedLines lines' := by
  simp [endedLines, ended]

theorem endedLines_cons (line : String) (lines : List String) :
    endedLines (line :: lines) = line.toList ++ '\n' :: endedLines lines := by
  simp [endedLines]

@[simp] theorem endedLines_nil : endedLines [] = [] := rfl

theorem isLine_ruleLine : IsLine ruleLine.toList := by decide

/-- The text of a table is made of a title, of what stands between two rules, and of these. -/
theorem toList_framed {title body line : String} {lines : List String}
    (htitle : title.toList = line.toList ++ ['\n']) (hbody : body.toList = endedLines lines) :
    (title ++ SymbolTable.rule ++ body ++ SymbolTable.rule).toList =
      endedLines (line :: ruleLine :: (lines ++ [ruleLine])) := by
  have hrule : SymbolTable.rule.toList = ruleLine.toList ++ ['\n'] := by decide
  simp only [String.toList_append, htitle, hbody, hrule, endedLines_cons, endedLines_append,
    endedLines_nil, List.append_assoc, List.cons_append, List.nil_append]

namespace SymbolTable

/-- Every row can be read back. -/
def Legible (table : SymbolTable) : Prop := ∀ e ∈ table.entries, IsRowName e.1 ∧ e.2.Valued

/-- The lines of a table: a title, and one line for each row between two rules. -/
def lines (table : SymbolTable) : List String :=
  "Symbol Table" :: ruleLine :: (table.entries.map (fun e => headed e.1 e.2.describe) ++ [ruleLine])

variable {table table' : SymbolTable}

theorem toList_describe (table : SymbolTable) :
    (describe table).toList = endedLines (lines table) := by
  refine toList_framed (by decide) ?_
  rw [String.toList_join, List.flatMap_map, endedLines, ended, List.map_map, List.flatMap_map]
  refine List.flatMap_congr fun e _ => ?_
  simp [headed]

theorem Legible.isLine (h : Legible table) : ∀ line ∈ lines table, IsLine line.toList := by
  have htitle : IsLine "Symbol Table".toList := by decide
  have hrows : ∀ line ∈ table.entries.map (fun e => headed e.1 e.2.describe),
      IsLine line.toList := by
    intro line hline
    obtain ⟨e, he, rfl⟩ := List.mem_map.1 hline
    exact isLine_headed (h e he).1 (Register.isLine_describe (h e he).2)
  simp only [lines, List.forall_mem_cons, List.forall_mem_append]
  exact ⟨htitle, isLine_ruleLine, hrows, isLine_ruleLine, nofun⟩

/-- The rows of a table are read back from its lines. -/
theorem lines_injOn (h : Legible table) (h' : Legible table') (heq : lines table = lines table') :
    table = table' := by
  obtain ⟨hrows, -⟩ := List.append_inj' (List.cons.inj (List.cons.inj heq).2).2 rfl
  have hentries := map_eq_map_of_imp (g := id) (fun e he e' he' hrow => ?_) hrows
  · rw [List.map_id, List.map_id] at hentries
    exact NameMap.ext hentries
  · obtain ⟨hname, hdescribe⟩ := headed_inj (h e he).1 (h' e' he').1 hrow
    exact Prod.ext hname (Register.describe_injOn (h e he).2 (h' e' he').2 hdescribe)

/-- A table is read back from its text. -/
theorem describe_injOn (h : Legible table) (h' : Legible table')
    (heq : describe table = describe table') : table = table' := by
  have htexts := congrArg String.toList heq
  rw [toList_describe, toList_describe] at htexts
  exact lines_injOn h h' (endedLines_inj h.isLine h'.isLine htexts)

end SymbolTable

namespace ProcedureTable

/-- The lines of a procedure: its head, and the lines of its table behind four blanks. -/
def block (name : String) (p : Procedure) : List String :=
  headed name p.returnType.name :: (SymbolTable.lines p.symbols).map ("    " ++ ·)

/-- The lines of a table: a title, and the lines of each declared procedure between two rules. -/
def lines (table : ProcedureTable) : List String :=
  "Procedure Table" :: ruleLine ::
    (table.userEntries.flatMap (fun e => block e.1 e.2) ++ [ruleLine])

/-- Every row of every declared procedure can be read back. -/
def Legible (table : ProcedureTable) : Prop :=
  ∀ e ∈ table.userEntries, IsRowName e.1 ∧ SymbolTable.Legible e.2.symbols

variable {table table' : ProcedureTable}

theorem toList_indent {symbols : SymbolTable} (h : SymbolTable.Legible symbols) :
    (indent (SymbolTable.describe symbols)).toList =
      endedLines ((SymbolTable.lines symbols).map ("    " ++ ·)) := by
  rw [indent, SymbolTable.toList_describe, splitLines_endedLines h.isLine, String.toList_join,
    endedLines, ended]
  simp only [List.map_map, List.flatMap_map]
  refine List.flatMap_congr fun line _ => ?_
  simp

theorem toList_describe (h : Legible table) :
    (describe table).toList = endedLines (lines table) := by
  refine toList_framed (by decide) ?_
  have hall : ∀ e ∈ table.userEntries, SymbolTable.Legible e.2.symbols := fun e he => (h e he).2
  generalize table.userEntries = rows at hall
  induction rows with
  | nil => rfl
  | cons e rows ih =>
    obtain ⟨he, hrows⟩ := List.forall_mem_cons.1 hall
    have hrest := ih hrows
    rw [String.toList_join] at hrest ⊢
    rw [List.flatMap_cons, endedLines_append, ← hrest, block, endedLines_cons, ← toList_indent he]
    simp [headed]

theorem isLine_indented {line : String} (h : IsLine line.toList) :
    IsLine ("    " ++ line).toList := by
  have hblanks : IsLine "    ".toList := by decide
  rw [String.toList_append]
  exact isLine_append.2 ⟨hblanks, h⟩

theorem isLine_block {name : String} {p : Procedure} (hname : IsRowName name)
    (h : SymbolTable.Legible p.symbols) : ∀ line ∈ block name p, IsLine line.toList := by
  refine List.forall_mem_cons.2 ⟨isLine_headed hname p.returnType.isLine_name, ?_⟩
  exact List.forall_mem_map.2 fun line hline => isLine_indented (h.isLine line hline)

theorem Legible.isLine (h : Legible table) : ∀ line ∈ lines table, IsLine line.toList := by
  have htitle : IsLine "Procedure Table".toList := by decide
  have hblocks : ∀ line ∈ table.userEntries.flatMap (fun e => block e.1 e.2),
      IsLine line.toList := by
    intro line hline
    obtain ⟨e, he, hline⟩ := List.mem_flatMap.1 hline
    exact isLine_block (h e he).1 (h e he).2 line hline
  simp only [lines, List.forall_mem_cons, List.forall_mem_append]
  exact ⟨htitle, isLine_ruleLine, hblocks, isLine_ruleLine, nofun⟩

/-- A line that begins with a blank. -/
def Indented (line : String) : Prop := line.toList.head? = some ' '

theorem not_indented_headed {name : String} (h : IsRowName name) (text : String) :
    ¬ Indented (headed name text) := by
  obtain ⟨c, cs, hname⟩ := List.exists_cons_of_ne_nil h.1
  have hblank : ¬ Unicode.isXidContinue ' ' := by decide +kernel
  rw [Indented, toList_headed, hname, List.cons_append, List.head?_cons]
  rintro hc
  obtain rfl := Option.some.inj hc
  exact hblank (h.2 _ (hname ▸ List.mem_cons_self))

/-- The lines of a procedure end in front of a line that is not moved to the right. -/
theorem delimited_block : Delimited
    (fun e : String × Procedure =>
      (IsRowName e.1 ∧ SymbolTable.Legible e.2.symbols) ∧ e.2.builtin = false)
    (fun line => ¬ Indented line) (fun e => block e.1 e.2) := by
  have hindented (ls : List String) : ∀ line ∈ ls.map ("    " ++ ·), Indented line := by
    refine List.forall_mem_map.2 fun line _ => ?_
    simp [Indented]
  have hprefix : Function.Injective ("    " ++ · : String → String) := by
    intro a b h
    have htexts := congrArg String.toList h
    simp only [String.toList_append] at htexts
    exact String.toList_inj.1 (List.append_cancel_left htexts)
  rintro ⟨name, p⟩ ⟨name', p'⟩ x y ⟨⟨hname, hp⟩, huser⟩ ⟨⟨hname', hp'⟩, huser'⟩ hx hy heq
  obtain ⟨hhead, hrest⟩ := List.cons.inj heq
  obtain ⟨rfl, htype⟩ := headed_inj hname hname' hhead
  obtain ⟨hlines, hxy⟩ := delimited_run Indented (hindented _) (hindented _) hx hy hrest
  have hsymbols := SymbolTable.lines_injOn hp hp' (List.map_injective_iff.2 hprefix hlines)
  obtain ⟨returnType, builtin, symbols⟩ := p
  obtain ⟨returnType', builtin', symbols'⟩ := p'
  obtain rfl := Ty.name_injective htype
  obtain rfl : symbols = symbols' := hsymbols
  obtain rfl : builtin = false := huser
  obtain rfl : builtin' = false := huser'
  exact ⟨rfl, hxy⟩

/-- The declared procedures of a table are read back from its lines. -/
theorem lines_injOn (h : Legible table) (h' : Legible table') (heq : lines table = lines table') :
    table.userEntries = table'.userEntries := by
  have huser (table : ProcedureTable) : ∀ e ∈ table.userEntries, e.2.builtin = false := by
    intro e he
    simpa using (List.mem_filter.1 he).2
  have hall : Delimited _ (fun _ => False) _ := delimited_block.flatMap
    (fun e he => ⟨_, _, rfl, not_indented_headed he.1.1 _, id⟩) nofun
  obtain ⟨hblocks, -⟩ := List.append_inj' (List.cons.inj (List.cons.inj heq).2).2 rfl
  exact hall.injOn (fun e he => ⟨h e he, huser table e he⟩)
    (fun e he => ⟨h' e he, huser table' e he⟩) hblocks

theorem describe_injOn (h : Legible table) (h' : Legible table')
    (heq : describe table = describe table') : table.userEntries = table'.userEntries := by
  have htexts := congrArg String.toList heq
  rw [toList_describe h, toList_describe h'] at htexts
  exact lines_injOn h h' (endedLines_inj h.isLine h'.isLine htexts)

end ProcedureTable
end TeachLang
