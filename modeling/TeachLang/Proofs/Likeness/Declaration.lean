import TeachLang.Proofs.Check.Procedure
import TeachLang.Proofs.Likeness.Statement

/-! # Likeness of declarations and programs

Declarations keep tables alike: a name is new in the scope of the second check exactly if its old
name is new in that of the first, and then it gets the same row.  From the checks of procedures and
of blocks the checks of whole programs are put together.
-/

namespace TeachLang

open Likeness

section

variable {L : Likeness}

theorem ConstantValue.check_alike {v : ConstantValue} (h : v.Grammatical) :
    L.Answers (ConstantValue.map L.token id) v.check (v.map L.token id).check := by
  cases v with
  | simple l =>
    have hl := Literal.check_alike (L := L) h
    rw [ConstantValue.map, check, check]
    generalize l.check = c, (l.map L.token id).check = c' at hl ⊢
    cases hl with
    | ok l ty => exact .ok (ConstantValue.simple l) ty
    | error l he => exact .error (ConstantValue.simple l) he
  | list l =>
    have hl := ListLiteral.check_alike (L := L) h.1
    rw [ConstantValue.map, check, check]
    generalize l.check = c, (l.map L.token id).check = c' at hl ⊢
    cases hl with
    | ok l ty => exact .ok (ConstantValue.list l) ty
    | error l he => exact .error (ConstantValue.list l) he

theorem ListLiteral.values?_map (g : Token → Token) (s : Slot → Slot) (l : ListLiteral) {α : Type}
    (variant? : Value → Option α) : (l.map g s).values? variant? = l.values? variant? := by
  unfold values?
  rw [ListLiteral.map]
  generalize l.elements = es
  induction es with
  | nil => rfl
  | cons e es ih =>
    rw [List.map_cons, List.mapM_cons, List.mapM_cons, ih]
    rfl

/-- The value of a constant depends on the values of its literals and on its slot only. -/
theorem ConstantValue.value?_map (g : Token → Token) (v : ConstantValue) :
    (v.map g id).value? = v.value? := by
  cases v with
  | simple l => rfl
  | list l =>
    rw [ConstantValue.map, value?, value?, ListLiteral.value?, ListLiteral.values?_map,
      ListLiteral.values?_map, ListLiteral.values?_map]
    rfl

theorem TypeExpr.denoted_map (g : Token → Token) (s : Slot → Slot) (e : TypeExpr) :
    (e.map g s).denoted = e.denoted := by
  cases e <;> rfl

theorem TypeExpr.withSlot_map (g : Token → Token) (e : TypeExpr) (slot : Slot) :
    (e.map g id).withSlot slot = (e.withSlot slot).map g id := by
  cases e <;> rfl

/-! The items of a list, and a part that may be missing. -/

namespace Likeness.Follows

variable {α : Type} {P : α → Prop} {procedure : Option String} {f : α → α}
  {check check' : Tables → α → Visited α}

theorem each (h : L.Follows procedure P f check check') :
    L.Follows procedure (fun as => ∀ a ∈ as, P a) (List.map f) (checkEach check)
      (checkEach check') := by
  intro t t' as ht has
  induction as generalizing t t' with
  | nil => exact .ok [] ht
  | cons a as ih =>
    obtain ⟨ha, has⟩ := List.forall_mem_cons.1 has
    have hhead := h ht ha
    rw [List.map_cons, checkEach, checkEach]
    generalize check t a = c, check' t' (f a) = c' at hhead ⊢
    cases hhead with
    | error a ht he => exact .error (a :: as) ht he
    | @ok a t t' ht =>
      have htail := ih ht has
      dsimp only
      generalize checkEach check t as = c, checkEach check' t' (as.map f) = c' at htail ⊢
      cases htail with
      | error as ht he => exact .error (a :: as) ht he
      | ok as ht => exact .ok (a :: as) ht

theorem option (h : L.Follows procedure P f check check') :
    L.Follows procedure (fun o => ∀ a ∈ o, P a) (Option.map f) (checkOption check)
      (checkOption check') := by
  intro t t' o ht ho
  cases o with
  | none => exact .ok none ht
  | some a =>
    have ha := h ht (ho a rfl)
    rw [Option.map_some, checkOption, checkOption]
    generalize check t a = c, check' t' (f a) = c' at ha ⊢
    cases ha with
    | error a ht he => exact .error (some a) ht he
    | ok a ht => exact .ok (some a) ht

end Likeness.Follows

variable (ctx : Context)

theorem ConstantDecl.check_follows :
    L.Follows ctx.procedure ConstantDecl.Grammatical (ConstantDecl.map L.token id)
      (ConstantDecl.check ctx) (ConstantDecl.check (ctx.rename L.name)) := by
  intro t t' d ht h
  have hvalue := ConstantValue.check_alike (L := L) h.2
  have hname : (d.map L.token id).name.text = L.name d.name.text := text_of_writes h.1
  rw [check, check, hname, L.contains ht h.1.isName]
  split
  next => exact .error d ht (fails rfl)
  next hnew =>
    rw [Bool.not_eq_true, NameMap.contains_eq_false_iff] at hnew
    rw [ConstantDecl.map]
    generalize d.value.check = c, (d.value.map L.token id).check = c' at hvalue ⊢
    cases hvalue with
    | error value he => exact .error { d with value } ht he
    | ok value ty =>
      dsimp only
      split
      · exact .error { d with value } ht (fails rfl)
      · rw [ConstantValue.value?_map]
        have hkind : (Register.const ty value.value?).kind ≠ .param := by simp
        exact .ok { d with value, slot := _ } (L.declare ht h.1.isName hnew hkind)

theorem ConstantList.check_follows :
    L.Follows ctx.procedure ConstantList.Grammatical (ConstantList.map L.token id)
      (ConstantList.check ctx) (ConstantList.check (ctx.rename L.name)) := by
  intro t t' l ht h
  have hall := (ConstantDecl.check_follows ctx).each ht h.declarations
  rw [ConstantList.map, check, check]
  generalize checkEach _ t l.declarations = c, checkEach _ t' _ = c' at hall ⊢
  cases hall with
  | error declarations ht he => exact .error { l with declarations } ht he
  | ok declarations ht => exact .ok { l with declarations, slot := _ } ht

variable {ctx}

/-- What a check of bindings needs of its place: parameters belong to a procedure. -/
def BindingKind.Fits (kind : BindingKind) (ctx : Context) : Prop :=
  kind = .param → ctx.procedure.isSome

theorem Identifier.declare_follows {kind : BindingKind} (hkind : kind.Fits ctx) (ty : Ty) :
    L.Follows ctx.procedure Identifier.Grammatical (Identifier.map L.token id)
      (fun t => Identifier.declare ctx t kind ty)
      (fun t => Identifier.declare (ctx.rename L.name) t kind ty) := by
  intro t t' i ht h
  have hname : (i.map L.token id).name = L.name i.name := text_of_writes h
  dsimp only
  rw [declare, declare, hname, L.contains ht h.isName, L.register kind ty ht]
  split
  next => exact .error i ht (fails (by cases kind <;> rfl))
  next hnew =>
    rw [Bool.not_eq_true, NameMap.contains_eq_false_iff] at hnew
    refine .ok { i with slot := some ty } ?_
    cases kind with
    | var => exact L.declare ht h.isName hnew (by simp [BindingKind.register])
    | param => exact L.parameter ty ht h.isName hnew (hkind rfl)

theorem BindingDecl.check_follows {kind : BindingKind} (hkind : kind.Fits ctx) :
    L.Follows ctx.procedure BindingDecl.Grammatical (BindingDecl.map L.token id)
      (fun t => BindingDecl.check ctx t kind)
      (fun t => BindingDecl.check (ctx.rename L.name) t kind) := by
  intro t t' d ht h
  have hall := (Identifier.declare_follows hkind d.type.denoted).each ht h.names
  dsimp only
  rw [BindingDecl.map, check, check]
  dsimp only
  rw [TypeExpr.denoted_map, TypeExpr.withSlot_map]
  generalize checkEach _ t d.names = c, checkEach _ t' _ = c' at hall ⊢
  cases hall with
  | error names ht he => exact .error (BindingDecl.mk names _ d.slot) ht he
  | ok names ht => exact .ok (BindingDecl.mk names _ _) ht

theorem VariableList.check_follows (ctx : Context) :
    L.Follows ctx.procedure VariableList.Grammatical (VariableList.map L.token id)
      (VariableList.check ctx) (VariableList.check (ctx.rename L.name)) := by
  intro t t' l ht h
  have hkind : BindingKind.var.Fits ctx := fun h => by cases h
  have hall := (BindingDecl.check_follows hkind).each ht h.declarations
  rw [VariableList.map, check, check]
  generalize checkEach _ t l.declarations = c, checkEach _ t' _ = c' at hall ⊢
  cases hall with
  | error declarations ht he => exact .error { l with declarations } ht he
  | ok declarations ht => exact .ok { l with declarations, slot := _ } ht

theorem ParameterList.check_follows (hctx : ctx.procedure.isSome) :
    L.Follows ctx.procedure (fun l => ∀ b ∈ l.declarations, b.Grammatical)
      (ParameterList.map L.token id) (ParameterList.check ctx)
      (ParameterList.check (ctx.rename L.name)) := by
  intro t t' l ht h
  have hkind : BindingKind.param.Fits ctx := fun _ => hctx
  have hall := (BindingDecl.check_follows hkind).each ht h
  rw [ParameterList.map, check, check]
  generalize checkEach _ t l.declarations = c, checkEach _ t' _ = c' at hall ⊢
  cases hall with
  | error declarations ht he => exact .error { l with declarations } ht he
  | ok declarations ht => exact .ok (ParameterList.mk declarations _) ht

/-- The checks inside of a procedure go alike. -/
theorem ProcedureDecl.checkInside_follows (ctx : Context) (hctx : ctx.procedure.isSome) :
    L.Follows ctx.procedure ProcedureDecl.Grammatical (ProcedureDecl.map L.token id)
      (ProcedureDecl.checkInside ctx) (ProcedureDecl.checkInside (ctx.rename L.name)) := by
  intro t t' d ht h
  have hparameters := ParameterList.check_follows hctx ht h.parameters
  rw [ProcedureDecl.map, checkInside, checkInside]
  generalize d.parameters.check ctx t = c, (d.parameters.map L.token id).check _ _ = c'
    at hparameters ⊢
  cases hparameters with
  | error parameters ht he => exact .error { d with parameters } ht he
  | @ok parameters t t' ht =>
    have hconstants := (ConstantList.check_follows ctx).option ht h.constants
    dsimp only
    generalize checkOption _ t d.constants = c, checkOption _ t' _ = c' at hconstants ⊢
    cases hconstants with
    | error constants ht he => exact .error { d with parameters, constants } ht he
    | @ok constants t t' ht =>
      have hvars := (VariableList.check_follows ctx).option ht h.vars
      dsimp only
      generalize checkOption _ t d.vars = c, checkOption _ t' _ = c' at hvars ⊢
      cases hvars with
      | error vars ht he => exact .error { d with parameters, constants, vars } ht he
      | @ok vars t t' ht =>
        have hbody := Block.check_alike ctx ht d.body h.body
        dsimp only
        generalize d.body.check ctx t = c, (d.body.map L.token id).check _ _ = c' at hbody ⊢
        cases hbody with
        | error body ht he => exact .error { d with parameters, constants, vars, body } ht he
        | ok body ht => exact .ok { d with parameters, constants, vars, body } ht

end

/-- A likeness that also tells what becomes of tables where a procedure is declared. -/
structure ProgramLikeness extends Likeness where
  builtin {t t' : Tables} {x : String} : alike none t t' → IsName x →
    (t'.procedures.get? (name x)).map (·.builtin) = (t.procedures.get? x).map (·.builtin)
  enter {t t' : Tables} {x : String} (ty : Ty) : alike none t t' → IsName x →
    t.procedures.get? x = none →
    alike (some x) { t with procedures := t.procedures.insert x (.user ty) }
      { t' with procedures := t'.procedures.insert (name x) (.user ty) }
  leave {t t' : Tables} {x : String} : alike (some x) t t' → alike none t t'

section

variable {L : ProgramLikeness}

theorem TypeExpr.grammatical_withSlot (e : TypeExpr) (slot : Slot) :
    (e.withSlot slot).Grammatical ↔ e.Grammatical := by
  cases e <;> rfl

theorem ProcedureDecl.Grammatical.withReturnSlot {d : ProcedureDecl} (h : d.Grammatical)
    (slot : Slot) : (d.withReturnSlot slot).Grammatical :=
  { h with returnType := (d.returnType.grammatical_withSlot slot).2 h.returnType }

theorem ProcedureDecl.withReturnSlot_map (g : Token → Token) (d : ProcedureDecl) (slot : Slot) :
    (d.map g id).withReturnSlot slot = (d.withReturnSlot slot).map g id := by
  rw [withReturnSlot, ProcedureDecl.map, TypeExpr.withSlot_map]
  rfl

theorem ProcedureDecl.check_follows :
    L.Follows none ProcedureDecl.Grammatical (ProcedureDecl.map L.token id)
      (ProcedureDecl.check .root) (ProcedureDecl.check .root) := by
  intro t t' d ht h
  have hname : (d.map L.token id).name.text = L.name d.name.text := text_of_writes h.name
  have hbuiltin := L.builtin ht h.name.isName
  cases hp : t.procedures.get? d.name.text with
  | some p =>
    rw [hp] at hbuiltin
    obtain ⟨p', hp', hsame⟩ := Option.map_eq_some_iff.1 hbuiltin
    rw [check, check, hname, hp, hp']
    dsimp only
    rw [hsame]
    refine .error d ht (fails ?_)
    split <;> rfl
  | none =>
    rw [hp] at hbuiltin
    have hp' : t'.procedures.get? (d.map L.token id).name.text = none := by
      rw [hname]
      exact Option.map_eq_none_iff.1 hbuiltin
    have hdenoted : (d.map L.token id).returnType.denoted = d.returnType.denoted :=
      TypeExpr.denoted_map ..
    have henter : L.alike (some d.name.text) (t.withProcedure d)
        (t'.withProcedure (d.map L.token id)) := by
      rw [Tables.withProcedure, Tables.withProcedure, hname, hdenoted]
      exact L.enter _ ht h.name.isName hp
    set inner := d.withReturnSlot (some d.returnType.denoted) with hinner
    have hinside : L.Leaves (some d.name.text) (ProcedureDecl.map L.token id)
        (inner.checkInside (Context.root.withProcedure d.name.text) (t.withProcedure d))
        ((inner.map L.token id).checkInside (Context.root.withProcedure (L.name d.name.text))
          (t'.withProcedure (d.map L.token id))) :=
      checkInside_follows (Context.root.withProcedure d.name.text) rfl henter (h.withReturnSlot _)
    rw [check_of_new hp, check_of_new hp', hdenoted, withReturnSlot_map, hname, ← hinner]
    generalize inner.checkInside _ _ = c, (inner.map L.token id).checkInside _ _ = c' at hinside ⊢
    cases hinside with
    | error d ht he => exact .error d (L.leave ht) he
    | ok d ht => exact .ok { d with slot := _ } (L.leave ht)

theorem ProcedureList.check_follows :
    L.Follows none (fun l => ∀ d ∈ l.procedures, d.Grammatical) (ProcedureList.map L.token id)
      (ProcedureList.check .root) (ProcedureList.check .root) := by
  intro t t' l ht h
  have hall := ProcedureDecl.check_follows.each ht h
  rw [ProcedureList.map, check, check]
  generalize checkEach _ t l.procedures = c, checkEach _ t' _ = c' at hall ⊢
  cases hall with
  | error procedures ht he => exact .error { l with procedures } ht he
  | ok procedures ht => exact .ok (ProcedureList.mk procedures _) ht

/-- The checks of a program and of the changed program go alike. -/
theorem Program.check_follows :
    L.Follows none Program.Grammatical (Program.map L.token id) Program.check Program.check := by
  intro t t' p ht h
  have hconstants := (ConstantList.check_follows .root).option ht h.constants
  rw [Context.rename_root] at hconstants
  rw [Program.map, check, check]
  dsimp only
  generalize checkOption _ t p.constants = c, checkOption _ t' _ = c' at hconstants ⊢
  cases hconstants with
  | error constants ht he => exact .error { p with constants } ht he
  | @ok constants t t' ht =>
    have hvars := (VariableList.check_follows .root).option ht h.vars
    rw [Context.rename_root] at hvars
    dsimp only
    generalize checkOption _ t p.vars = c, checkOption _ t' _ = c' at hvars ⊢
    cases hvars with
    | error vars ht he => exact .error { p with constants, vars } ht he
    | @ok vars t t' ht =>
      have hprocedures := ProcedureList.check_follows ht h.procedures
      dsimp only
      generalize p.procedures.check .root t = c, ProcedureList.check .root t' _ = c'
        at hprocedures ⊢
      cases hprocedures with
      | error procedures ht he => exact .error { p with constants, vars, procedures } ht he
      | @ok procedures t t' ht =>
        have hstatements := Block.check_alike .root ht p.statements h.statements
        rw [Context.rename_root] at hstatements
        dsimp only
        generalize p.statements.check .root t = c, Block.check _ t' _ = c' at hstatements ⊢
        cases hstatements with
        | error statements ht he =>
          exact .error { p with constants, vars, procedures, statements } ht he
        | ok statements ht =>
          exact .ok (Program.mk p.keyword constants vars procedures statements _) ht

end
end TeachLang
