import TeachLang.Check.Declaration
import TeachLang.Proofs.Grammar.Simulation
import TeachLang.Proofs.Tree.Grammatical

/-! # Likeness of checks

Two checks of one tree, the second one with other tokens and other names and on other tables.  A
likeness tells how the names and the tokens of the second check are found from those of the first,
and which tables are alike: as far as a check can see, the second ones hold under the new names what
the first ones hold under the old ones, and what a check declares keeps them alike.  Two such checks
fill the slots with the same types and stop at the same token for the same reason.
-/

namespace TeachLang

theorem Token.Writes.isName {t : Token} (h : t.Writes .identifier) : IsName t.text := h.2

theorem Identifier.Grammatical.isName {i : Identifier} (h : i.Grammatical) : IsName i.name := h.2

def Violation.rename (r : String → String) : Violation → Violation
  | duplicatedConstant name => duplicatedConstant (r name)
  | duplicatedVariable name => duplicatedVariable (r name)
  | duplicatedParameter name => duplicatedParameter (r name)
  | duplicateProcedure name => duplicateProcedure (r name)
  | builtinRedefinition name => builtinRedefinition (r name)
  | undeclaredVariable name => undeclaredVariable (r name)
  | undeclaredProcedure name => undeclaredProcedure (r name)
  | incompatibleArgument parameter expected found =>
    incompatibleArgument (r parameter) expected found
  | assignmentToConstant name => assignmentToConstant (r name)
  | v => v

theorem Violation.rename_id (v : Violation) : v.rename id = v := by cases v <;> rfl

/-- Two procedures that callers cannot tell apart, but for the names of the parameters. -/
structure Procedure.Callable (r : String → String) (p p' : Procedure) : Prop where
  returnType : p'.returnType = p.returnType
  parameters : p'.parameters = p.parameters.map (Prod.map r id)

theorem Procedure.callable_id {p p' : Procedure} (hty : p'.returnType = p.returnType)
    (hparameters : p'.parameters = p.parameters) : p.Callable id p' :=
  ⟨hty, by rw [hparameters, Prod.map_id, List.map_id]⟩

theorem Procedure.Callable.arity {r : String → String} {p p' : Procedure} (h : p.Callable r p') :
    p'.arity = p.arity := by
  rw [Procedure.arity, h.parameters, List.length_map, Procedure.arity]

def Context.rename (r : String → String) (ctx : Context) : Context :=
  { ctx with procedure := ctx.procedure.map r }

theorem Context.rename_id (ctx : Context) : ctx.rename id = ctx := by
  rw [rename, Option.map_id]
  rfl

theorem Context.rename_root (r : String → String) : root.rename r = root := rfl

theorem Context.withLoop_rename (r : String → String) (ctx : Context) :
    (ctx.rename r).withLoop = ctx.withLoop.rename r := rfl

/-- How the second of two checks of one tree is found from the first. -/
structure Likeness where
  name : String → String
  token : Token → Token
  /-- Which tables are alike inside of a procedure, or outside of all. -/
  alike : Option String → Tables → Tables → Prop
  renames : Renames name token
  lookup? {ctx : Context} {t t' : Tables} {x : String} : alike ctx.procedure t t' → IsName x →
    t'.lookup? (ctx.rename name) (name x) = t.lookup? ctx x
  contains {ctx : Context} {t t' : Tables} {x : String} : alike ctx.procedure t t' → IsName x →
    (t'.scope (ctx.rename name)).contains (name x) = (t.scope ctx).contains x
  callable {procedure : Option String} {t t' : Tables} {x : String} : alike procedure t t' →
    IsName x → Option.Rel (Procedure.Callable name) (t.procedures.get? x)
      (t'.procedures.get? (name x))
  result {ctx : Context} {t t' : Tables} : alike ctx.procedure t t' →
    (t'.current? (ctx.rename name)).map (·.returnType) = (t.current? ctx).map (·.returnType)
  register {ctx : Context} {t t' : Tables} (kind : BindingKind) (ty : Ty) :
    alike ctx.procedure t t' → kind.register (ctx.rename name) t' ty = kind.register ctx t ty
  declare {ctx : Context} {t t' : Tables} {x : String} {r : Register} : alike ctx.procedure t t' →
    IsName x → (t.scope ctx).get? x = none → r.kind ≠ .param →
    alike ctx.procedure (t.declare ctx x r) (t'.declare (ctx.rename name) (name x) r)
  parameter {ctx : Context} {t t' : Tables} {x : String} (ty : Ty) : alike ctx.procedure t t' →
    IsName x → (t.scope ctx).get? x = none → ctx.procedure.isSome →
    alike ctx.procedure (t.declare ctx x (BindingKind.param.register ctx t ty))
      (t'.declare (ctx.rename name) (name x) (BindingKind.param.register ctx t ty))
  counter {ctx : Context} {t t' : Tables} {x : String} : alike ctx.procedure t t' → IsName x →
    alike ctx.procedure (t.declare ctx (counterName x) (.var .int))
      (t'.declare (ctx.rename name) (counterName (name x)) (.var .int))

namespace Likeness

variable (L : Likeness) {α β : Type}

/-- The same violation with the changed names, at the changed token. -/
structure Fails (e e' : SemanticError) : Prop where
  violation : e'.violation = e.violation.rename L.name
  token : e'.token = L.token e.token

/-- Two results that go alike: what they hold is related, or they fail alike. -/
inductive Yields (R : β → β → Prop) : Except SemanticError β → Except SemanticError β → Prop
  | ok {b b' : β} (h : R b b') : Yields R (.ok b) (.ok b')
  | error {e e' : SemanticError} (h : L.Fails e e') : Yields R (.error e) (.error e')

/-- Two checks that read the tables go alike: the second one leaves the changed tree. -/
inductive Answers (f : α → α) : Checked α β → Checked α β → Prop
  | ok (a : α) (b : β) : Answers f (a, .ok b) (f a, .ok b)
  | error (a : α) {e e' : SemanticError} (h : L.Fails e e') : Answers f (a, .error e) (f a, .error e')

/-- Two checks that declare names go alike: the second one leaves the changed tree and tables that
are alike. -/
inductive Leaves (procedure : Option String) (f : α → α) : Visited α → Visited α → Prop
  | ok (a : α) {t t' : Tables} (h : L.alike procedure t t') :
      Leaves procedure f (a, t, .ok ()) (f a, t', .ok ())
  | error (a : α) {t t' : Tables} {e e' : SemanticError} (h : L.alike procedure t t')
      (he : L.Fails e e') : Leaves procedure f (a, t, .error e) (f a, t', .error e')

/-- Two checks of an item and of the changed item go alike on all tables that are alike. -/
def Follows (procedure : Option String) (P : α → Prop) (f : α → α)
    (check check' : Tables → α → Visited α) : Prop :=
  ∀ ⦃t t' : Tables⦄ ⦃a : α⦄, L.alike procedure t t' → P a →
    L.Leaves procedure f (check t a) (check' t' (f a))

variable {L}

variable {t : Token}

/-- The same violation, with its name changed, at a token of the tree. -/
theorem fails {v v' : Violation} (h : v' = v.rename L.name) :
    L.Fails ⟨v, t⟩ ⟨v', L.token t⟩ :=
  ⟨h, rfl⟩

theorem text_of_writes (h : t.Writes .identifier) : (L.token t).text = L.name t.text :=
  L.renames.name t h.1 h.isName

theorem text_of_ne {kind : TokenKind} (h : t.kind = kind) (hkind : kind ≠ .identifier) :
    (L.token t).text = t.text :=
  L.renames.text t (h ▸ hkind)

end Likeness
end TeachLang
