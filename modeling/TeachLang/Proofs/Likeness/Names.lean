import Mathlib.Data.List.Find
import TeachLang.Proofs.Check.Program
import TeachLang.Proofs.Likeness.Declaration
import TeachLang.Proofs.Token.Spaced

/-! # Likeness under other names

Tables that hold the same rows under other names.  The hidden counters of loops take part, with the
names that are made of the new names, and so does the order of parameters, which their positions
tell and not their names.  What a check declares in both keeps them so.

The runtime library keeps its names.  To tell the parameters of a procedure of the library from
those of a program, the first of the two tables may have them under marked names, which no program
gives; the second tables have them as they are.
-/

namespace TeachLang

/-! Names of programs are no hidden names, and no marked ones. -/

theorem IsName.ne_counterName {x : String} (h : IsName x) (item : String) :
    x ≠ counterName item := by
  intro heq
  have hwrites : Token.Writes ⟨.identifier, x, ⟨"", 0, 0⟩, 0, 0⟩ .identifier := ⟨rfl, h⟩
  exact not_isCounter_of_writes hwrites ⟨item, heq⟩

theorem counterName_injective : Function.Injective counterName := by
  intro x y h
  have hlist := congrArg String.toList h
  simp only [counterName, String.toList_append, List.append_cancel_right_eq,
    List.append_cancel_left_eq] at hlist
  exact String.toList_inj.1 hlist

def isName (x : String) : Bool :=
  match x.toList with
  | [] => false
  | c :: cs => Unicode.isXidStart c && cs.all Unicode.isXidContinue && (TokenKind.ofKeyword? x).isNone

theorem IsName.of_isName {x : String} (h : isName x) : IsName x := by
  unfold isName at h
  split at h
  · cases h
  · rename_i c cs htext
    simp only [Bool.and_eq_true, List.all_eq_true, Option.isNone_iff_eq_none] at h
    refine ⟨⟨c, cs, htext, h.1.1, h.1.2⟩, ?_⟩
    rw [String.ofList_toList, h.2]

theorem Builtin.isName {b : Builtin} (h : b ∈ Builtin.catalogue) : IsName b.name := by
  have hall : ∀ b ∈ catalogue, TeachLang.isName b.name := by decide +kernel
  exact .of_isName (hall b h)

/-- A change of names that keeps different names different, and the names of the runtime library as
they are. -/
structure Renaming (r : String → String) : Prop where
  isName : ∀ x, IsName x → IsName (r x)
  injective : ∀ x y, IsName x → IsName y → r x = r y → x = y
  builtin : ∀ b ∈ Builtin.catalogue, r b.name = b.name

theorem renaming_id : Renaming id := ⟨fun _ h => h, fun _ _ _ _ h => h, fun _ _ => rfl⟩

/-- The names of corresponding rows: a name of a program, or the hidden counter of a loop. -/
inductive RowNames (r : String → String) : String → String → Prop
  | name {x : String} (h : IsName x) : RowNames r x (r x)
  | counter {x : String} (h : IsName x) : RowNames r (counterName x) (counterName (r x))

theorem RowNames.eq_iff {r : String → String} (hr : Renaming r) {x x' y y' : String}
    (hx : RowNames r x x') (hy : RowNames r y y') : y = x ↔ y' = x' := by
  cases hx with
  | @name x hx =>
    cases hy with
    | @name y hy => exact ⟨congrArg r, hr.injective y x hy hx⟩
    | @counter y hy =>
      exact iff_of_false (hx.ne_counterName y).symm ((hr.isName x hx).ne_counterName _).symm
  | @counter x hx =>
    cases hy with
    | @name y hy =>
      exact iff_of_false (hy.ne_counterName x) ((hr.isName y hy).ne_counterName _)
    | @counter y hy =>
      rw [counterName_injective.eq_iff, counterName_injective.eq_iff]
      exact ⟨congrArg r, hr.injective y x hy hx⟩

/-- Two tables with the same rows under corresponding names. -/
structure SymbolTable.Renamed (r : String → String) (m m' : SymbolTable) : Prop where
  rows : ∀ {y y'}, RowNames r y y' → m'.get? y' = m.get? y
  left : ∀ {y}, (m.get? y).isSome → ∃ y', RowNames r y y'
  right : ∀ {y'}, (m'.get? y').isSome → ∃ y, RowNames r y y'
  hidden : ∀ {x row}, m.get? (counterName x) = some row → row = .var .int
  positioned : m.Positioned
  parameterNames : ∀ row ∈ m.parameterRows, IsName row.1
  parameterRows : m'.parameterRows = m.parameterRows.map (Prod.map r id)

namespace SymbolTable.Renamed

variable {r : String → String} {m m' : SymbolTable}

theorem empty (r : String → String) : Renamed r .empty .empty where
  rows _ := rfl
  left h := by cases h
  right h := by cases h
  hidden h := by cases h
  positioned := positioned_empty
  parameterNames := by simp [parameterRows_empty]
  parameterRows := by rw [parameterRows_empty, List.map_nil]

theorem length_parameterRows (h : Renamed r m m') :
    m'.parameterRows.length = m.parameterRows.length := by
  rw [h.parameterRows, List.length_map]

theorem parameters (h : Renamed r m m') : m'.parameters = m.parameters.map (Prod.map r id) := by
  rw [SymbolTable.parameters, h.parameterRows, List.map_map, SymbolTable.parameters, List.map_map]
  rfl

theorem positioned' (h : Renamed r m m') : m'.Positioned := by
  rw [Positioned, h.length_parameterRows, ← h.positioned, h.parameterRows, List.map_map]
  rfl

variable {x x' : String} {row : Register}

/-- Rows that are declared under corresponding names correspond. -/
theorem rows_insert (hr : Renaming r) (h : Renamed r m m') (hx : RowNames r x x') (row : Register) :
    (∀ {y y'}, RowNames r y y' → NameMap.get? (m'.insert x' row) y' = (m.insert x row).get? y) ∧
    (∀ {y}, (NameMap.get? (m.insert x row) y).isSome → ∃ y', RowNames r y y') ∧
    (∀ {y'}, (NameMap.get? (m'.insert x' row) y').isSome → ∃ y, RowNames r y y') := by
  refine ⟨fun hy => ?_, fun hy => ?_, fun hy => ?_⟩
  · rw [NameMap.get?_insert, NameMap.get?_insert, h.rows hy]
    simp only [hx.eq_iff hr hy]
  · rw [NameMap.get?_insert] at hy
    split at hy
    next heq => exact ⟨x', heq ▸ hx⟩
    next => exact h.left hy
  · rw [NameMap.get?_insert] at hy
    split at hy
    next heq => exact ⟨x, heq ▸ hx⟩
    next => exact h.right hy

/-- A row that is no parameter is declared in the place of nothing, or of a row of its kind. -/
theorem insert (hr : Renaming r) (h : Renamed r m m') (hx : RowNames r x x')
    (hnew : row.kind ≠ .param) (hold : ∀ v, m.get? x = some v → v.kind ≠ .param)
    (hhidden : IsCounter x → row = .var .int) : Renamed r (m.insert x row) (m'.insert x' row) := by
  obtain ⟨rows, left, right⟩ := h.rows_insert hr hx row
  have hkept : SymbolTable.parameterRows (m.insert x row) = m.parameterRows :=
    parameterRows_insert_of_not_param m hnew hold
  have hkept' : SymbolTable.parameterRows (m'.insert x' row) = m'.parameterRows :=
    parameterRows_insert_of_not_param m' hnew fun v hv => hold v ((h.rows hx).symm.trans hv)
  refine ⟨rows, left, right, ?_, ?_, ?_, ?_⟩
  · intro y v hv
    rw [NameMap.get?_insert] at hv
    split at hv
    next heq =>
      cases hv
      exact hhidden ⟨y, heq.symm⟩
    next => exact h.hidden hv
  · rw [Positioned, hkept]
    exact h.positioned
  · rw [hkept]
    exact h.parameterNames
  · rw [hkept, hkept', h.parameterRows]

/-- A counter takes the place of nothing, or of the counter of another loop. -/
theorem insert_counter (hr : Renaming r) (h : Renamed r m m') (hx : IsName x) :
    Renamed r (m.insert (counterName x) (.var .int)) (m'.insert (counterName (r x)) (.var .int)) :=
  h.insert hr (.counter hx) (by simp) (fun v hv => by simp [h.hidden hv]) fun _ => rfl

theorem insert_param (hr : Renaming r) (h : Renamed r m m') (hx : IsName x) (ty : Ty)
    (hnew : m.get? x = none) :
    Renamed r (m.insert x (.param ty m.parameterRows.length))
      (m'.insert (r x) (.param ty m.parameterRows.length)) := by
  have hx' : RowNames r x (r x) := .name hx
  obtain ⟨rows, left, right⟩ := h.rows_insert hr hx' (.param ty m.parameterRows.length)
  have hgrown := parameterRows_insert_param ty hnew h.positioned
  have hgrown' := parameterRows_insert_param ty ((h.rows hx').trans hnew) h.positioned'
  rw [h.length_parameterRows] at hgrown'
  refine ⟨rows, left, right, ?_, ?_, ?_, ?_⟩
  · intro y v hv
    rw [NameMap.get?_insert, if_neg (hx.ne_counterName y).symm] at hv
    exact h.hidden hv
  · rw [Positioned, hgrown, List.length_append, List.map_append, h.positioned, List.length_singleton,
      List.range_succ, List.map_append]
    rfl
  · rw [hgrown, List.forall_mem_append]
    exact ⟨h.parameterNames, by simpa using hx⟩
  · rw [hgrown, hgrown', h.parameterRows, List.map_append]
    rfl

end SymbolTable.Renamed

/-- A name that no token has as its text. -/
def marked (x : String) : String := " " ++ x

/-- Names of programs change, and marked names lose their mark. -/
def unmarkedOr (r : String → String) (y : String) : String :=
  if y.toList.head? = some ' ' then String.ofList y.toList.tail else r y

theorem unmarkedOr_marked (r : String → String) (x : String) : unmarkedOr r (marked x) = x := by
  simp [unmarkedOr, marked]

theorem TokenKind.Admits.unmarkedOr {kind : TokenKind} {x : String} (h : kind.Admits x.toList)
    (r : String → String) : unmarkedOr r x = r x := by
  obtain ⟨c, body, htext, hblank, -⟩ := h.exists_cons
  refine if_neg ?_
  rw [htext, List.head?_cons]
  rintro ⟨⟩
  revert hblank
  decide +kernel

theorem IsName.unmarkedOr {x : String} (h : IsName x) (r : String → String) :
    unmarkedOr r x = r x := TokenKind.Admits.unmarkedOr h r

def Builtin.marked (b : Builtin) : Builtin :=
  { b with parameters := b.parameters.map (Prod.map TeachLang.marked id) }

theorem Builtin.parameters_marked {b : Builtin} (hb : b ∈ Builtin.catalogue) :
    b.marked.toProcedure.parameters = b.parameters.map (Prod.map TeachLang.marked id) := by
  refine (parameters_toProcedure_of_nodup ?_).2
  have hinjective : Function.Injective TeachLang.marked := by
    intro x y h
    rw [← unmarkedOr_marked id x, h, unmarkedOr_marked]
  have hnames := (parameter_names_nodup hb).map hinjective
  rw [List.map_map] at hnames
  rw [marked, List.map_map]
  exact hnames

/-- The tables before any check, with the runtime library in another form. -/
def Tables.initialWith (f : Builtin → Builtin) : Tables :=
  ⟨.empty, (Builtin.catalogue.map f).foldl (fun table b => table.insert b.name b.toProcedure) .empty⟩

/-- The rows of a procedure in two tables, where the first ones call it `x`.  They have the runtime
library in the form `f`. -/
inductive Procedure.Renamed (r : String → String) (f : Builtin → Builtin) (x : String) :
    Procedure → Procedure → Prop
  | user (hx : ∀ b ∈ Builtin.catalogue, b.name ≠ x) (ty : Ty) {m m' : SymbolTable}
      (h : m.Renamed r m') : Renamed r f x ⟨ty, false, m⟩ ⟨ty, false, m'⟩
  | builtin {b : Builtin} (h : b ∈ Builtin.catalogue) (hx : b.name = x) :
      Renamed r f x (f b).toProcedure b.toProcedure

namespace Procedure.Renamed

variable {r : String → String} {f : Builtin → Builtin} {x : String} {p p' : Procedure}

theorem returnType (h : Renamed r f x p p') (huser : p.builtin = false) :
    p'.returnType = p.returnType := by
  cases h with
  | user => rfl
  | builtin => cases huser

theorem builtin_eq (h : Renamed r f x p p') : p'.builtin = p.builtin := by cases h <;> rfl

theorem symbols (h : Renamed r f x p p') (huser : p.builtin = false) :
    p.symbols.Renamed r p'.symbols := by
  cases h with
  | user _ _ h => exact h
  | builtin => cases huser

theorem insert (h : Renamed r f x p p') (huser : p.builtin = false) {y y' : String}
    {row : Register}
    (hsymbols : SymbolTable.Renamed r (p.symbols.insert y row) (p'.symbols.insert y' row)) :
    Renamed r f x { p with symbols := p.symbols.insert y row }
      { p' with symbols := p'.symbols.insert y' row } := by
  cases h with
  | user hx ty => exact .user hx ty hsymbols
  | builtin => cases huser

/-- Callers see the same procedure, with the names of its parameters changed or without marks. -/
theorem callable (h : Renamed r Builtin.marked x p p') : p.Callable (unmarkedOr r) p' := by
  refine ⟨by cases h <;> rfl, ?_⟩
  cases h with
  | @user _ ty m m' h =>
    refine h.parameters.trans (List.map_congr_left fun parameter hmem => ?_)
    obtain ⟨row, hrow, rfl⟩ := List.mem_map.1 hmem
    exact Prod.ext ((h.parameterNames row hrow).unmarkedOr r).symm rfl
  | @builtin b hb =>
    rw [(Builtin.parameters_toProcedure hb).2, Builtin.parameters_marked hb, List.map_map]
    refine (List.map_id _).symm.trans (List.map_congr_left fun parameter _ => ?_)
    exact Prod.ext (unmarkedOr_marked r parameter.1).symm rfl

end Procedure.Renamed

/-- Two states of the tables with the same rows under corresponding names. -/
structure Tables.Renamed (r : String → String) (f : Builtin → Builtin) (t t' : Tables) : Prop where
  globals : t.globals.Renamed r t'.globals
  procedures : ∀ {x}, IsName x →
    Option.Rel (Procedure.Renamed r f x) (t.procedures.get? x) (t'.procedures.get? (r x))
  library : ∀ b ∈ Builtin.catalogue, (t.procedures.get? b.name).isSome
  left : ∀ {x}, (t.procedures.get? x).isSome → IsName x
  right : ∀ {y}, (t'.procedures.get? y).isSome → ∃ x, IsName x ∧ y = r x

/-- Before any check, there is the runtime library only. -/
theorem Tables.renamed_initialWith {r : String → String} (hr : Renaming r)
    {f : Builtin → Builtin} (hf : ∀ b, (f b).name = b.name) :
    (initialWith f).Renamed r f initial := by
  have hfirst (x : String) : (initialWith f).procedures.get? x =
      (Builtin.catalogue.find? (·.name = x)).map (Builtin.toProcedure ∘ f) := by
    have hnames : (Builtin.catalogue.map f).map (·.name) = Builtin.catalogue.map (·.name) := by
      rw [List.map_map]
      exact List.map_congr_left fun b _ => hf b
    refine (NameMap.get?_foldl_insert (hnames ▸ Builtin.names_nodup) .empty x).trans ?_
    rw [NameMap.get?_empty, Option.or_none, List.find?_map, Option.map_map]
    simp only [Function.comp_def, hf]
  have hname {x : String} {b : Builtin} (h : Builtin.catalogue.find? (·.name = x) = some b) :
      b ∈ Builtin.catalogue ∧ b.name = x :=
    ⟨List.mem_of_find?_eq_some h, by simpa using List.find?_some h⟩
  refine ⟨.empty r, fun {x} hx => ?_, fun b hb => ?_, fun {x} h => ?_, fun {y} h => ?_⟩
  · have hsame : Builtin.catalogue.find? (·.name = r x) = Builtin.catalogue.find? (·.name = x) := by
      refine List.find?_congr fun b hb => ?_
      have hiff : b.name = r x ↔ b.name = x := by
        conv_lhs => rw [← hr.builtin b hb]
        refine ⟨hr.injective _ _ (Builtin.isName hb) hx, fun h => congrArg r h⟩
      simp only [hiff]
    rw [hfirst, get?_procedures_initial, hsame]
    cases hfind : Builtin.catalogue.find? (·.name = x) with
    | none => exact .none
    | some b => exact .some (.builtin (hname hfind).1 (hname hfind).2)
  · rw [hfirst, Option.isSome_map, List.find?_isSome]
    exact ⟨b, hb, by simp⟩
  · rw [hfirst, Option.isSome_map] at h
    obtain ⟨b, hb⟩ := Option.isSome_iff_exists.1 h
    obtain ⟨hmem, rfl⟩ := hname hb
    exact Builtin.isName hmem
  · rw [get?_procedures_initial, Option.isSome_map] at h
    obtain ⟨b, hb⟩ := Option.isSome_iff_exists.1 h
    obtain ⟨hmem, rfl⟩ := hname hb
    exact ⟨b.name, Builtin.isName hmem, (hr.builtin b hmem).symm⟩

/-- A place inside of a procedure of the program, or outside of all procedures. -/
def Tables.Stands (t : Tables) (procedure : Option String) : Prop :=
  ∀ x ∈ procedure, IsName x ∧ ∃ p, t.procedures.get? x = some p ∧ p.builtin = false

/-- The rows of a procedure of the program, by whatever name. -/
inductive Procedure.RenamedUser (r : String → String) (p p' : Procedure) : Prop
  | mk (returnType : p'.returnType = p.returnType) (symbols : p.symbols.Renamed r p'.symbols)

section

variable {r : String → String} {f : Builtin → Builtin} {t t' : Tables} {ctx : Context}

theorem Tables.Stands.rename (h : t.Stands ctx.procedure) :
    ctx.rename (unmarkedOr r) = ctx.rename r := by
  unfold Context.rename
  cases hc : ctx.procedure with
  | none => rfl
  | some x => rw [Option.map_some, Option.map_some, (h x hc).1.unmarkedOr r]

namespace Tables.Renamed

variable (h : t.Renamed r f t') (hctx : t.Stands ctx.procedure)

include h hctx

theorem current : Option.Rel (Procedure.RenamedUser r) (t.current? ctx)
    (t'.current? (ctx.rename r)) := by
  unfold current? Context.rename
  cases hc : ctx.procedure with
  | none => exact .none
  | some x =>
    obtain ⟨hx, p, hp, huser⟩ := hctx x hc
    have hrows := h.procedures hx
    rw [Option.map_some, Option.bind_some, Option.bind_some]
    rw [hp] at hrows ⊢
    generalize t'.procedures.get? (r x) = p?' at hrows ⊢
    cases hrows with
    | some hp => exact .some ⟨hp.returnType huser, hp.symbols huser⟩

theorem scope : (t.scope ctx).Renamed r (t'.scope (ctx.rename r)) := by
  have hcurrent := h.current hctx
  unfold Tables.scope
  generalize t.current? ctx = p?, t'.current? (ctx.rename r) = p?' at hcurrent ⊢
  cases hcurrent with
  | none => exact h.globals
  | some hp =>
    obtain ⟨-, hsymbols⟩ := hp
    exact hsymbols

theorem lookup? {x x' : String} (hx : RowNames r x x') :
    t'.lookup? (ctx.rename r) x' = t.lookup? ctx x := by
  have hcurrent := h.current hctx
  unfold Tables.lookup?
  rw [h.globals.rows hx]
  generalize t.current? ctx = p?, t'.current? (ctx.rename r) = p?' at hcurrent ⊢
  cases hcurrent with
  | none => rfl
  | some hp =>
    obtain ⟨-, hsymbols⟩ := hp
    rw [Option.bind_some, Option.bind_some, hsymbols.rows hx]

end Tables.Renamed

/-- A row for a procedure is put into both tables. -/
theorem Tables.Renamed.insert (hr : Renaming r) (h : t.Renamed r f t') {z : String} (hz : IsName z)
    {p p' : Procedure} (hp : p.Renamed r f z p') :
    Renamed r f { t with procedures := t.procedures.insert z p }
      { t' with procedures := t'.procedures.insert (r z) p' } := by
  refine ⟨h.globals, fun {y} hy => ?_, fun b hb => ?_, fun {y} hy => ?_, fun {y} hy => ?_⟩
  · have hiff : r y = r z ↔ y = z := ⟨hr.injective y z hy hz, congrArg r⟩
    simp only [NameMap.get?_insert, hiff]
    split
    next heq => exact heq ▸ .some hp
    next => exact h.procedures hy
  · simp only [NameMap.get?_insert]
    split
    · rfl
    · exact h.library b hb
  · simp only [NameMap.get?_insert] at hy
    split at hy
    next heq => exact heq ▸ hz
    next => exact h.left hy
  · simp only [NameMap.get?_insert] at hy
    split at hy
    next heq => exact ⟨z, hz, heq⟩
    next => exact h.right hy

/-- Rows that are declared in corresponding scopes correspond. -/
theorem Tables.Renamed.declare (hr : Renaming r) (h : t.Renamed r f t')
    (hctx : t.Stands ctx.procedure) {x x' : String} {row : Register}
    (hscope : SymbolTable.Renamed r ((t.scope ctx).insert x row)
      ((t'.scope (ctx.rename r)).insert x' row)) :
    (t.declare ctx x row).Renamed r f (t'.declare (ctx.rename r) x' row) ∧
      (t.declare ctx x row).Stands ctx.procedure := by
  obtain ⟨procedure, loop⟩ := ctx
  cases procedure with
  | none =>
    refine ⟨⟨hscope, h.procedures, h.library, h.left, h.right⟩, ?_⟩
    rintro y ⟨⟩
  | some z =>
    obtain ⟨hz, p, hp, huser⟩ := hctx z rfl
    have hrows := h.procedures hz
    rw [hp] at hrows
    cases hp' : t'.procedures.get? (r z) with
    | none => simp [hp'] at hrows
    | some p' =>
      obtain hsame : p.Renamed r f z p' := by simpa [hp'] using hrows
      have hdeclare : t.declare ⟨some z, loop⟩ x row = { t with
          procedures := t.procedures.insert z { p with symbols := p.symbols.insert x row } } := by
        simp [Tables.declare, current?, hp]
      have hdeclare' : t'.declare (Context.rename r ⟨some z, loop⟩) x' row = { t' with
          procedures :=
            t'.procedures.insert (r z) { p' with symbols := p'.symbols.insert x' row } } := by
        simp [Tables.declare, current?, Context.rename, hp']
      have hsymbols : SymbolTable.Renamed r (p.symbols.insert x row)
          (p'.symbols.insert x' row) := by
        simpa [Tables.scope, current?, Context.rename, hp, hp'] using hscope
      rw [hdeclare, hdeclare']
      refine ⟨h.insert hr hz (hsame.insert huser hsymbols), ?_⟩
      rintro y ⟨⟩
      exact ⟨hz, _, NameMap.get?_insert_self .., huser⟩

end

/-! Two tables that both correspond to a third one correspond to each other. -/

section

variable {r : String → String}

theorem RowNames.refl {y y' : String} (h : RowNames r y y') : RowNames id y y := by
  cases h with
  | name hx => exact .name hx
  | counter hx => exact .counter hx

theorem RowNames.of_id {y y' : String} (h : RowNames id y y') :
    y' = y ∧ ∃ z, RowNames r y z := by
  cases h with
  | name hx => exact ⟨rfl, _, .name hx⟩
  | counter hx => exact ⟨rfl, _, .counter hx⟩

theorem SymbolTable.Renamed.both {m m₁ m₂ : SymbolTable} (h₁ : Renamed id m m₁)
    (h₂ : Renamed r m m₂) : Renamed r m₁ m₂ := by
  have hrows : m₁.parameterRows = m.parameterRows := by
    rw [h₁.parameterRows, Prod.map_id, List.map_id]
  refine ⟨fun hy => ?_, fun hy => ?_, h₂.right, fun {x row} hrow => ?_, h₁.positioned', ?_, ?_⟩
  · rw [h₂.rows hy, h₁.rows hy.refl]
  · obtain ⟨y₀, hy₀⟩ := h₁.right hy
    obtain ⟨rfl, hz⟩ := hy₀.of_id (r := r)
    exact hz
  · obtain ⟨y₀, hy₀⟩ := h₁.right (Option.isSome_of_eq_some hrow)
    obtain ⟨hsame, -⟩ := hy₀.of_id (r := r)
    rw [h₁.rows hy₀, ← hsame] at hrow
    exact h₂.hidden hrow
  · rw [hrows]
    exact h₂.parameterNames
  · rw [hrows]
    exact h₂.parameterRows

theorem Procedure.Renamed.both {f : Builtin → Builtin} {x : String} {p p₁ p₂ : Procedure}
    (h₁ : Renamed id f x p p₁) (h₂ : Renamed r f x p p₂) : Renamed r id x p₁ p₂ := by
  cases h₁ with
  | user hx ty hm₁ =>
    generalize hp : Procedure.mk ty false _ = p at h₂
    cases h₂ with
    | user _ _ hm₂ =>
      cases hp
      exact .user hx ty (hm₁.both hm₂)
    | builtin hb hname => exact absurd hname (hx _ hb)
  | builtin hb hname =>
    generalize Builtin.toProcedure _ = p at h₂
    cases h₂ with
    | user hx => exact absurd hname (hx _ hb)
    | builtin hb' hname' =>
      obtain rfl := List.inj_on_of_nodup_map Builtin.names_nodup hb hb' (hname.trans hname'.symm)
      exact .builtin hb hname

theorem Tables.Renamed.both {f : Builtin → Builtin} {t t₁ t₂ : Tables} (h₁ : Renamed id f t t₁)
    (h₂ : Renamed r f t t₂) : Renamed r id t₁ t₂ := by
  refine ⟨h₁.globals.both h₂.globals, fun {x} hx => ?_, fun b hb => ?_, fun {x} hx => ?_, h₂.right⟩
  · have hrows₁ := h₁.procedures hx
    have hrows₂ := h₂.procedures hx
    rw [id] at hrows₁
    generalize t.procedures.get? x = p?, t₁.procedures.get? x = p₁?,
      t₂.procedures.get? (r x) = p₂? at hrows₁ hrows₂ ⊢
    cases hrows₁ with
    | none =>
      cases hrows₂ with
      | none => exact .none
    | some hp₁ =>
      cases hrows₂ with
      | some hp₂ => exact .some (hp₁.both hp₂)
  · have hrows := h₁.procedures (Builtin.isName hb)
    obtain ⟨p, hp⟩ := Option.isSome_iff_exists.1 (h₁.library b hb)
    rw [hp, id] at hrows
    generalize t₁.procedures.get? b.name = p? at hrows ⊢
    cases hrows with
    | some => rfl
  · obtain ⟨x₀, hx₀, rfl⟩ := h₁.right hx
    exact hx₀

end

/-- Checks of a program and of the same program with other names.  Violations tell the parameters
of the runtime library by their marks. -/
def ProgramLikeness.names {r : String → String} (hr : Renaming r) {g : Token → Token}
    (hg : Renames (unmarkedOr r) g) : ProgramLikeness where
  name := unmarkedOr r
  token := g
  alike procedure t t' := t.Renamed r Builtin.marked t' ∧ t.Stands procedure
  renames := hg
  lookup? := by
    rintro ctx t t' x ⟨h, hctx⟩ hx
    rw [hctx.rename, hx.unmarkedOr]
    exact h.lookup? hctx (.name hx)
  contains := by
    rintro ctx t t' x ⟨h, hctx⟩ hx
    rw [hctx.rename, hx.unmarkedOr, NameMap.contains, (h.scope hctx).rows (.name hx)]
    rfl
  callable := by
    rintro procedure t t' x ⟨h, -⟩ hx
    have hrows := h.procedures hx
    rw [hx.unmarkedOr]
    generalize t.procedures.get? x = p?, t'.procedures.get? (r x) = p?' at hrows ⊢
    cases hrows with
    | none => exact .none
    | some hp => exact .some hp.callable
  result := by
    rintro ctx t t' ⟨h, hctx⟩
    have hcurrent := h.current hctx
    rw [hctx.rename]
    generalize t.current? ctx = p?, t'.current? (ctx.rename r) = p?' at hcurrent ⊢
    cases hcurrent with
    | none => rfl
    | some hp =>
      obtain ⟨hty, -⟩ := hp
      exact congrArg some hty
  register := by
    rintro ctx t t' kind ty ⟨h, hctx⟩
    have hcurrent := h.current hctx
    rw [hctx.rename]
    unfold BindingKind.register
    generalize t.current? ctx = p?, t'.current? (ctx.rename r) = p?' at hcurrent ⊢
    cases hcurrent with
    | none => rfl
    | some hp =>
      obtain ⟨-, hsymbols⟩ := hp
      simp [Procedure.arity, Procedure.parameters, hsymbols.parameters]
  declare := by
    rintro ctx t t' x row ⟨h, hctx⟩ hx hnew hkind
    rw [hctx.rename, hx.unmarkedOr]
    refine h.declare hr hctx ((h.scope hctx).insert hr (.name hx) hkind ?_ ?_)
    · simp [hnew]
    · rintro ⟨item, heq⟩
      exact absurd heq (hx.ne_counterName item)
  parameter := by
    rintro ctx t t' x ty ⟨h, hctx⟩ hx hnew hinside
    rw [hctx.rename, hx.unmarkedOr]
    have hrow : BindingKind.param.register ctx t ty =
        .param ty (t.scope ctx).parameterRows.length := by
      obtain ⟨z, hz⟩ := Option.isSome_iff_exists.1 hinside
      obtain ⟨-, p, hp, -⟩ := hctx z hz
      have hcurrent : t.current? ctx = some p := by rw [Tables.current?, hz, Option.bind_some, hp]
      simp [BindingKind.register, Tables.scope, hcurrent, Procedure.arity, Procedure.parameters,
        SymbolTable.parameters]
    rw [hrow]
    exact h.declare hr hctx ((h.scope hctx).insert_param hr hx ty hnew)
  counter := by
    rintro ctx t t' x ⟨h, hctx⟩ hx
    rw [hctx.rename, hx.unmarkedOr]
    exact h.declare hr hctx ((h.scope hctx).insert_counter hr hx)
  builtin := by
    rintro t t' x ⟨h, -⟩ hx
    have hrows := h.procedures hx
    rw [hx.unmarkedOr]
    generalize t.procedures.get? x = p?, t'.procedures.get? (r x) = p?' at hrows ⊢
    cases hrows with
    | none => rfl
    | some hp => exact congrArg some hp.builtin_eq
  enter := by
    rintro t t' x ty ⟨h, -⟩ hx hnew
    rw [hx.unmarkedOr]
    have hprogram : ∀ b ∈ Builtin.catalogue, b.name ≠ x := by
      rintro b hb rfl
      have hlibrary := h.library b hb
      rw [hnew] at hlibrary
      cases hlibrary
    refine ⟨h.insert hr hx (.user hprogram ty (.empty r)), ?_⟩
    rintro y ⟨⟩
    exact ⟨hx, _, NameMap.get?_insert_self .., rfl⟩
  leave := by
    rintro t t' x ⟨h, -⟩
    exact ⟨h, by rintro y ⟨⟩⟩

end TeachLang
