import TeachLang.Proofs.Check.Stores
import TeachLang.Proofs.Flow.Typed
import TeachLang.Proofs.Recheck.Declaration
import TeachLang.Proofs.Slots.Program
import TeachLang.Proofs.Tree.Untyped

/-! # Flow of types in accepted programs

An accepted program is well formed with its slots as well, and whatever its scopes declare is found
in the tables that are returned.  So the expressions in all of its bodies are typed.
-/

namespace TeachLang

def Program.scope (p : Program) : Scope :=
  ⟨[], p.bindings, builtinSignatures ++ p.procedures.procedures.map (·.signature), none⟩

/-- The declarations that the body of a procedure can use, which stands behind some others. -/
def ProcedureDecl.scope (d : ProcedureDecl) (p : Program) (before : List ProcedureDecl) : Scope :=
  ⟨d.bindings, p.bindings, builtinSignatures ++ (before ++ [d]).map (·.signature),
    some d.returnType.denoted⟩

section

variable {p : Program} {d : ProcedureDecl} {before after : List ProcedureDecl}

theorem Program.concrete_bindings (hp : p.Grammatical) (hwell : p.WellFormed) :
    ∀ b ∈ p.bindings, b.ty.Concrete := concrete_of_mem_locals hwell.constants hp.vars

/-- The builtin procedures and some of a program. -/
theorem Program.Grammatical.concrete_signatures (hp : p.Grammatical) {ds : List ProcedureDecl}
    (hds : ds ⊆ p.procedures.procedures) :
    ∀ s ∈ builtinSignatures ++ ds.map (·.signature),
      (∀ ty ∈ s.parameters, ty.Concrete) ∧ s.returnType ≠ .list := by
  rw [List.forall_mem_append, List.forall_mem_map]
  exact ⟨builtinSignatures_concrete, fun d hd => (hp.procedures d (hds hd)).concrete_signature⟩

theorem Program.concrete_scope (hp : p.Grammatical) (hwell : p.WellFormed) : p.scope.Concrete where
  locals := by simp [scope]
  globals := concrete_bindings hp hwell
  parameters s hs := (hp.concrete_signatures (List.Subset.refl _) s hs).1
  results s hs := (hp.concrete_signatures (List.Subset.refl _) s hs).2
  result := nofun

theorem ProcedureDecl.concrete_scope (hp : p.Grammatical) (hwell : p.WellFormed)
    (hsplit : p.procedures.procedures = before ++ d :: after) : (d.scope p before).Concrete := by
  have hd : d.Grammatical := hp.procedures d (by simp [hsplit])
  have hcallable : before ++ [d] ⊆ p.procedures.procedures := by simp [hsplit]
  refine ⟨?_, Program.concrete_bindings hp hwell,
    fun s hs => (hp.concrete_signatures hcallable s hs).1,
    fun s hs => (hp.concrete_signatures hcallable s hs).2, ?_⟩
  · have hconstants := (hwell.procedures before d after hsplit).constants
    exact List.forall_mem_append.2 ⟨hd.concrete_parameters,
      concrete_of_mem_locals hconstants hd.vars⟩
  · exact fun h => d.returnType.denoted_ne_list (Option.some.inj h)

/-- The tables that a program leaves tell of the procedures what their declarations do. -/
theorem Program.signatures_of_check (hp : p.Grammatical) (hok : (p.check .initial).2.2 = .ok ())
    (x : String) :
    ((p.check .initial).2.1.procedures.get? x).map (Procedure.signature x) =
      (builtinSignatures ++ p.procedures.procedures.map (·.signature)).find? (·.name = x) := by
  obtain ⟨⟨-, hdistinct⟩, hwell, -⟩ := p.wellFormed_iff.1 ((p.check_eq_ok_iff hp).1 hok)
  have hlocals := reflects_locals hp hdistinct
  have hprocedures := (checkEach_procedures_eq_ok_iff hlocals hp.procedures).2 hwell
  have hreflects := (reflects_checkEach_procedures hlocals hp.procedures hprocedures).procedures x
  rw [checkEach_procedures_eq_withChecked _ hprocedures, Tables.declareAll_root] at hreflects
  rw [check_eq_insertAll hok]
  exact hreflects

/-- Names and procedures are found with their types where the tables tell the same of them. -/
theorem Scope.FoundIn.of_lookup {Γ : Scope} {T : Tables} {procedure : Option String}
    (hnames : ∀ x, ¬ IsCounter x →
      (T.lookup? ⟨procedure, false⟩ x).map (Register.binding x) = Γ.resolve? x)
    (hreturns : ∀ x s, Γ.procedure? x = some s →
      (T.procedures.get? x).map (Procedure.signature x) = some s) : Γ.FoundIn T procedure where
  names x b hx hb := by
    rw [← hnames x hx] at hb
    obtain ⟨r, hr, rfl⟩ := Option.map_eq_some_iff.1 hb
    exact congrArg (Option.map (·.ty)) hr
  returns x s hs := by
    obtain ⟨row, hrow, rfl⟩ := Option.map_eq_some_iff.1 (hreturns x s hs)
    exact congrArg (Option.map (·.returnType)) hrow

theorem Program.foundIn_scope (hp : p.Grammatical) (hok : (p.check .initial).2.2 = .ok ()) :
    p.scope.FoundIn (p.check .initial).2.1 none := by
  refine .of_lookup (fun x hx => names_of_check hp hok hx) fun x s hs => ?_
  rw [signatures_of_check hp hok]
  exact hs

theorem ProcedureDecl.foundIn_scope (hp : p.Grammatical) (hok : (p.check .initial).2.2 = .ok ())
    (hsplit : p.procedures.procedures = before ++ d :: after) :
    (d.scope p before).FoundIn (p.check .initial).2.1 (some d.name.text) := by
  have hd : d ∈ p.procedures.procedures := by simp [hsplit]
  obtain ⟨row, hrow, hlocals⟩ := (Program.hasRow_of_check hp hok d hd).names
  refine .of_lookup (fun x hx => ?_) fun x s hs => ?_
  · simp only [Tables.lookup?, Tables.current?, Option.bind_some, hrow, Option.map_or]
    rw [hlocals x hx, Program.names_of_check hp hok hx]
    rfl
  · -- The procedures behind this one come last, so that they are not found in its stead.
    have hmore : p.procedures.procedures = (before ++ [d]) ++ after := by simp [hsplit]
    rw [Program.signatures_of_check hp hok, hmore, List.map_append, ← List.append_assoc,
      List.find?_append]
    exact Option.or_eq_some_iff.2 (.inl hs)

end

/-- The tree of an accepted source can be written, slots aside, and its check comes out at it. -/
theorem compile_check {source : String} {result : TypedProgram}
    (h : compile source = .ok result) : result.program.Grammatical ∧
      result.program.check .initial = (result.program, result.tables, .ok ()) := by
  obtain ⟨p, hp, hcheck⟩ := compile_eq_ok_iff.1 h
  have huntyped : p.untyped = p := ((parseProgram_eq_ok_iff source p).1 hp).untyped
  have hsame : result.program.untyped = p := by
    have hagrees := p.check_agrees .initial
    rw [huntyped, hcheck] at hagrees
    cases hagrees with
    | ok same => exact same.trans huntyped
  constructor
  · have hparsed := grammatical_of_parseProgram hp
    rw [← hsame] at hparsed
    exact .of_map hparsed
  · have hagrees := result.program.check_agrees .initial
    rw [hsame, hcheck] at hagrees
    generalize result.program.check .initial = again at hagrees ⊢
    cases hagrees
    rfl

/-- Whatever expression stands in an accepted source, the generic list type and the type of no
value are in its slot only where they may be, and a value that flows into a declared context has
the type of the context otherwise. -/
theorem compile_uses_typed {source : String} {result : TypedProgram}
    (h : compile source = .ok result) :
    (∀ u ∈ result.program.statements.uses, ∃ ty, u.Typed result.program.scope ty) ∧
      ∀ before d after, result.program.procedures.procedures = before ++ d :: after →
        ∀ u ∈ d.body.uses, ∃ ty, u.Typed (d.scope result.program before) ty := by
  obtain ⟨hp, hcheck⟩ := compile_check h
  have hok : (result.program.check .initial).2.2 = .ok () := by rw [hcheck]
  have hwell := (result.program.check_eq_ok_iff hp).1 hok
  have hsettled := Program.settled hp hcheck
  constructor
  · have hfound := Program.foundIn_scope hp hok
    rw [hcheck] at hfound
    exact Block.uses_typed (Program.concrete_scope hp hwell) hfound _ hp.statements
      hwell.statements (hsettled.child (by simp [Program.toNode]))
  · intro before d after hsplit
    have hd : d ∈ result.program.procedures.procedures := by simp [hsplit]
    have hfound := ProcedureDecl.foundIn_scope hp hok hsplit
    rw [hcheck] at hfound
    have hlist : result.program.procedures.toNode.Settled result.tables none :=
      hsettled.child (by simp [Program.toNode])
    have hnode : d.toNode.Settled result.tables none :=
      hlist.child (List.mem_map_of_mem hd)
    have hbody : d.body.toNode.Settled result.tables (some d.name.text) :=
      hnode.child (by simp [ProcedureDecl.toNode])
    exact Block.uses_typed (ProcedureDecl.concrete_scope hp hwell hsplit) hfound _
      (hp.procedures d hd).body (hwell.procedures before d after hsplit).body hbody

def emptyListsSource : String :=
  "var l : list of integer;
  procedure put(x : list of integer;) : list of integer; begin return \x7b\x7d; end;
  procedure skip(); begin return skip(); end;
  program l := \x7b\x7d; l := put(\x7b\x7d); end;"

theorem compile_uses_typed_emptyLists : ∃ result, compile emptyListsSource = .ok result ∧
    result.program.statements.uses.map (·.expr.slot) =
      [some .intList, some .list, some .intList, some .intList, some .list] ∧
    result.program.procedures.procedures.map (·.body.uses.map (·.expr.slot)) =
      [[some .list], [some .void]] ∧
    (∀ u ∈ result.program.statements.uses, ∃ ty, u.Typed result.program.scope ty) ∧
      ∀ before d after, result.program.procedures.procedures = before ++ d :: after →
        ∀ u ∈ d.body.uses, ∃ ty, u.Typed (d.scope result.program before) ty := by
  have hslots : (compile emptyListsSource).toOption.map (fun result =>
      (result.program.statements.uses.map (·.expr.slot),
        result.program.procedures.procedures.map (·.body.uses.map (·.expr.slot)))) =
      some ([some .intList, some .list, some .intList, some .intList, some .list],
        [[some .list], [some .void]]) := by
    decide +kernel
  cases hresult : compile emptyListsSource with
  | error e => simp [hresult, Except.toOption] at hslots
  | ok result =>
    rw [hresult] at hslots
    obtain ⟨hmain, hbodies⟩ := Prod.mk.inj (Option.some.inj hslots)
    exact ⟨result, rfl, hmain, hbodies, compile_uses_typed hresult⟩

end TeachLang
