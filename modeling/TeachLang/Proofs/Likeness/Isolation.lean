import TeachLang.Proofs.Check.Parsed
import TeachLang.Proofs.History.Frame
import TeachLang.Proofs.Likeness.Declaration

/-! # Isolation of scopes

The check of a procedure changes nothing but the row of the procedure.  In turn it reads of the
other procedures no more than their callers see: on tables that agree on this, and on the global
names, the check goes the same way and leaves the same row.
-/

namespace TeachLang

open TeachLang.Action

/-- Tables that a place in a procedure, or outside of all, cannot tell apart. -/
structure Tables.SeenAlike (procedure : Option String) (t t' : Tables) : Prop where
  globals : t'.globals = t.globals
  own : ∀ q ∈ procedure, t'.procedures.get? q = t.procedures.get? q
  callable : ∀ x, Option.Rel (Procedure.Callable id) (t.procedures.get? x) (t'.procedures.get? x)

namespace Tables.SeenAlike

variable {t t' : Tables} {ctx : Context}

theorem current? (h : t.SeenAlike ctx.procedure t') : t'.current? ctx = t.current? ctx := by
  unfold Tables.current?
  cases hc : ctx.procedure with
  | none => rfl
  | some q => exact h.own q hc

theorem scope (h : t.SeenAlike ctx.procedure t') : t'.scope ctx = t.scope ctx := by
  rw [Tables.scope, h.current?, h.globals, Tables.scope]

theorem declare (h : t.SeenAlike ctx.procedure t') (x : String) (r : Register) :
    (t.declare ctx x r).SeenAlike ctx.procedure (t'.declare ctx x r) := by
  refine ⟨?_, fun q hq => ?_, fun y => ?_⟩
  · unfold Tables.declare
    rw [h.current?]
    split <;> simp [h.globals]
  · rw [get?_procedures_declare, get?_procedures_declare, h.own q hq]
  · rw [get?_procedures_declare, get?_procedures_declare]
    split
    next hy =>
      rw [h.own y hy]
      cases t.procedures.get? y with
      | none => exact .none
      | some p => exact .some (Procedure.callable_id rfl rfl)
    next => exact h.callable y

end Tables.SeenAlike

/-- Checks of one item on tables that its place cannot tell apart. -/
def Likeness.isolated : Likeness where
  name := id
  token := id
  alike := Tables.SeenAlike
  renames := ⟨fun _ => rfl, fun _ _ _ => rfl, fun _ _ => rfl⟩
  lookup? := by
    rintro ctx t t' x h -
    rw [Context.rename_id, Tables.lookup?, h.current?, h.globals]
    rfl
  contains := by
    rintro ctx t t' x h -
    rw [Context.rename_id, h.scope]
    rfl
  callable := by
    rintro procedure t t' x h -
    exact h.callable x
  result := by
    rintro ctx t t' h
    rw [Context.rename_id, h.current?]
  register := by
    rintro ctx t t' kind ty h
    rw [Context.rename_id]
    unfold BindingKind.register
    rw [h.current?]
  declare := by
    rintro ctx t t' x r h - - -
    rw [Context.rename_id]
    exact h.declare x r
  parameter := by
    rintro ctx t t' x ty h - - -
    rw [Context.rename_id]
    exact h.declare x _
  counter := by
    rintro ctx t t' x h -
    rw [Context.rename_id]
    exact h.declare _ _

/-- What callers see of a procedure. -/
def Procedure.header (p : Procedure) : Ty × List (String × Ty) := (p.returnType, p.parameters)

/-- Tables that agree on the global names, on whether there is a procedure `q` and whether it is a
builtin, and on what callers see of all others. -/
structure Tables.AgreeBesides (q : String) (t t' : Tables) : Prop where
  globals : t'.globals = t.globals
  present : (t'.procedures.get? q).map (·.builtin) = (t.procedures.get? q).map (·.builtin)
  headers : ∀ x, x ≠ q →
    (t'.procedures.get? x).map Procedure.header = (t.procedures.get? x).map Procedure.header

section

variable {t t' : Tables} {d : ProcedureDecl}

/-- Where a procedure is new, the tables with its empty row cannot be told apart from inside. -/
theorem Tables.AgreeBesides.seenAlike (h : t.AgreeBesides d.name.text t') :
    (t.withProcedure d).SeenAlike (some d.name.text) (t'.withProcedure d) := by
  have hown : (t'.withProcedure d).procedures.get? d.name.text =
      (t.withProcedure d).procedures.get? d.name.text := by
    simp only [withProcedure, NameMap.get?_insert_self]
  refine ⟨h.globals, ?_, fun x => ?_⟩
  · rintro q ⟨⟩
    exact hown
  · by_cases hx : x = d.name.text
    · subst hx
      rw [hown]
      simp only [withProcedure, NameMap.get?_insert_self]
      exact .some (Procedure.callable_id rfl rfl)
    · have hheader := h.headers x hx
      simp only [withProcedure, NameMap.get?_insert_of_ne _ hx]
      generalize t.procedures.get? x = p?, t'.procedures.get? x = p?' at hheader ⊢
      cases p? with
      | none =>
        cases p?' with
        | none => exact .none
        | some p' => cases hheader
      | some p =>
        cases p?' with
        | none => cases hheader
        | some p' =>
          obtain ⟨hty, hparameters⟩ := Prod.mk.inj (Option.some.inj hheader)
          exact .some (Procedure.callable_id hty hparameters)

/-- The declaration of a procedure reads no more than these tables tell alike. -/
theorem ProcedureDecl.Grammatical.check_congr (hd : d.Grammatical)
    (h : t.AgreeBesides d.name.text t') :
    (d.check .root t').1 = (d.check .root t).1 ∧ (d.check .root t').2.2 = (d.check .root t).2.2 ∧
      (t'.procedures.get? d.name.text = t.procedures.get? d.name.text →
        (d.check .root t').2.1.procedures.get? d.name.text =
          (d.check .root t).2.1.procedures.get? d.name.text) := by
  have hpresent := h.present
  cases hp : t.procedures.get? d.name.text with
  | some p =>
    rw [hp] at hpresent
    obtain ⟨p', hp', hbuiltin⟩ := Option.map_eq_some_iff.1 hpresent
    rw [check, check, hp, hp']
    dsimp only
    rw [hbuiltin]
    refine ⟨rfl, rfl, fun hsame => ?_⟩
    rw [hp, hp', hsame]
  | none =>
    rw [hp] at hpresent
    have hp' := Option.map_eq_none_iff.1 hpresent
    set inner := d.withReturnSlot (some d.returnType.denoted) with hinner
    have hinside : Likeness.isolated.Leaves (some d.name.text) (ProcedureDecl.map id id)
        (inner.checkInside (Context.root.withProcedure d.name.text) (t.withProcedure d))
        ((inner.map id id).checkInside
          ((Context.root.withProcedure d.name.text).rename id) (t'.withProcedure d)) :=
      checkInside_follows (L := .isolated) (Context.root.withProcedure d.name.text) rfl h.seenAlike
        (hd.withReturnSlot _)
    rw [inner.map_id, Context.rename_id] at hinside
    rw [check_of_new hp, check_of_new hp', ← hinner]
    generalize inner.checkInside _ (t.withProcedure d) = c,
      inner.checkInside _ (t'.withProcedure d) = c' at hinside ⊢
    cases hinside with
    | ok d' ht =>
      rw [d'.map_id]
      exact ⟨rfl, rfl, fun _ => ht.own _ rfl⟩
    | @error d' _ _ e e' ht he =>
      obtain ⟨violation, token⟩ := e'
      obtain rfl : violation = e.violation := he.violation.trans e.violation.rename_id
      obtain rfl : token = e.token := he.token
      rw [d'.map_id]
      exact ⟨rfl, rfl, fun _ => ht.own _ rfl⟩

end

/-- The declaration of a procedure changes its own row only; what stands outside of procedures
changes no row of one; and of other procedures a declaration reads no more than callers see. -/
theorem check_isolated {source : String} {p : Program} (hp : (parseProgram source).1 = .ok p)
    (t : Tables) :
    (∀ d ∈ p.procedures.procedures, (d.check .root t).2.1.globals = t.globals ∧
      ∀ q, q ≠ d.name.text → (d.check .root t).2.1.procedures.get? q = t.procedures.get? q) ∧
    ((checkOption (ConstantList.check .root) t p.constants).2.1.procedures = t.procedures ∧
      (checkOption (VariableList.check .root) t p.vars).2.1.procedures = t.procedures ∧
      (p.statements.check .root t).2.1.procedures = t.procedures) ∧
    ∀ d ∈ p.procedures.procedures, ∀ t', t.AgreeBesides d.name.text t' →
      (d.check .root t').1 = (d.check .root t).1 ∧
      (d.check .root t').2.2 = (d.check .root t).2.2 ∧
      (t'.procedures.get? d.name.text = t.procedures.get? d.name.text →
        (d.check .root t').2.1.procedures.get? d.name.text =
          (d.check .root t).2.1.procedures.get? d.name.text) := by
  have hg := grammatical_of_parseProgram hp
  have hlocal := local_localActions .root hg.constants hg.vars
  rw [localActions, List.forall_mem_append] at hlocal
  have hbody := Block.local_actions .root p.statements
  refine ⟨fun d hd => (hg.procedures d hd).frame t, ⟨?_, ?_, ?_⟩, fun d hd t' h =>
    (hg.procedures d hd).check_congr h⟩
  · exact (ConstantList.performs .root).option.procedures_eq (fun a ha => (hlocal.1 a ha).at) t
  · exact (VariableList.performs .root).option.procedures_eq (fun a ha => (hlocal.2 a ha).at) t
  · have hperforms : Performs (Block.check .root) (Block.actions .root) := Block.performs .root
    exact hperforms.procedures_eq (fun a ha => (hbody a ha).at) t

def callingSource : String :=
  "procedure f(n:integer;) : integer; begin return n; end;
  procedure g(); begin f(1); end; program g(); end;"

def tablesWith (locals : List (String × Register)) : Tables :=
  { Tables.initial with
    procedures := Tables.initial.procedures.insert "f"
      ⟨.int, false, SymbolTable.insertAll (.insert .empty "n" (.param .int 0)) locals⟩ }

theorem check_isolated_locals : ∃ p d, (parseProgram callingSource).1 = .ok p ∧
    p.procedures.procedures[1]? = some d ∧
    (tablesWith []).AgreeBesides d.name.text (tablesWith [("m", .var .bool)]) ∧
    (d.check .root (tablesWith [("m", .var .bool)])).1 = (d.check .root (tablesWith [])).1 ∧
    (d.check .root (tablesWith [("m", .var .bool)])).2.2 = (d.check .root (tablesWith [])).2.2 := by
  have hparsed : ((parseProgram callingSource).1.toOption.bind fun p =>
      (p.procedures.procedures[1]?).map (·.name.text)) = some "g" := by decide +kernel
  obtain ⟨p, hp, hsecond⟩ := Option.bind_eq_some_iff.1 hparsed
  obtain ⟨d, hd, hname⟩ := Option.map_eq_some_iff.1 hsecond
  have hp : (parseProgram callingSource).1 = .ok p := by
    generalize (parseProgram callingSource).1 = result at hp
    cases result with
    | error => cases hp
    | ok => cases hp; rfl
  have hagree : (tablesWith []).AgreeBesides d.name.text (tablesWith [("m", .var .bool)]) := by
    rw [hname]
    refine ⟨rfl, by decide +kernel, fun x _ => ?_⟩
    simp only [tablesWith, NameMap.get?_insert]
    split
    · decide +kernel
    · rfl
  have hcongr := (check_isolated hp _).2.2 d (List.mem_of_getElem? hd) _ hagree
  exact ⟨p, d, hp, hd, hagree, hcongr.1, hcongr.2.1⟩

end TeachLang
