import TeachLang.Proofs.Termination.Statement

/-! # Declarations and programs come to an end

Every part of a declaration begins behind a token of it.  The parts in front of a program's keyword
may all be missing; the first one that is not takes a token.
-/

namespace TeachLang.Metered

open TokenStream (Ends)

/-- The list of no procedures is what a list of procedures comes to that cannot begin. -/
def IdleProcedures (result : Except SyntaxError ProcedureList) : Prop := result = .ok ⟨[], none⟩

variable {σ : Type} [TokenStream σ] {n fuel more : Nat} {s : σ}

theorem constantValue_halts (hfuel : n < fuel) (hmore : n < more) (h : Ends n s) :
    Halts n (constantValue fuel) (Grammar.constantValue more) s := by
  refine .has_bind fun curly _ => ?_
  cases curly with
  | true => exact ((listLiteral_settles hfuel hmore h).halts h).map _
  | false =>
    refine .hasAny_bind fun simple _ => ?_
    cases simple with
    | true => exact ((literal_settles h).halts h).map _
    | false => exact .fail h _

theorem constantDecl_settles (hfuel : n < fuel) (hmore : n < more) (h : Ends n s) :
    Settles First.name Failed n (constantDecl fuel) (Grammar.constantDecl more) s := by
  refine (Settles.expect h (by decide)).bind fun name m left hm hleft => ?_
  refine (Halts.expect hleft _).bind fun _ left hleft => ?_
  refine (constantValue_halts (by omega) (by omega) hleft).bind fun value left hleft => ?_
  exact (Halts.expect hleft _).bind fun _ left hleft => .pure hleft _

theorem constantList_settles (hfuel : n < fuel) (hmore : n < more) (h : Ends n s) :
    Settles First.constantList Failed n (constantList fuel) (Grammar.constantList more) s := by
  refine (Settles.expect h (by decide)).bind fun keyword m left hm hleft => ?_
  have hitem : SettlesBelow (m + 1) First.name Failed (constantDecl fuel : Metered σ ConstantDecl)
      (Grammar.constantDecl more) :=
    fun _ _ hk hends => constantDecl_settles (by omega) (by omega) hends
  refine (hitem.halts (Nat.lt_succ_self m) hleft).bind fun declaration left hleft => ?_
  exact ((Settles.many (by omega) (by omega) hitem hleft).halts hleft).map _

theorem typeExpr_settles (h : Ends n s) :
    Settles First.type Failed n (lift Grammar.typeExpr) Grammar.typeExpr s := by
  have hfirst (k : TokenKind) : k ∈ First.type ↔ k ∈ [.kwList] ∨ k ∈ First.type := by
    cases k <;> decide
  rw [Grammar.typeExpr, Parser.take?_eq_takeAny?, lift_bind]
  refine .takeAny?_bind hfirst h (by decide) (fun keyword m left hm hleft => ?_) ?_
  · dsimp only
    rw [lift_bind]
    refine (Halts.expect hleft _).bind fun _ left hleft => ?_
    rw [lift_bind]
    refine ((Settles.expectAny hleft (by decide)).halts hleft).bind fun token left hleft => ?_
    rw [lift_bind]
    exact (Halts.standsFor hleft _ _ _).bind fun type left hleft => .lift hleft
  · dsimp only
    rw [lift_bind]
    refine (Settles.expectAny h (by decide)).bind fun token m left _ hleft => ?_
    rw [lift_bind]
    exact (Halts.standsFor hleft _ _ _).bind fun type left hleft => .lift hleft

theorem identifier_settles (h : Ends n s) :
    Settles First.name Failed n (lift Grammar.identifier) Grammar.identifier s := by
  rw [Grammar.identifier, lift_bind]
  exact (Settles.expect h (by decide)).bind fun name m left _ hleft => .lift hleft

theorem bindingDecl_settles (hfuel : n < fuel) (hmore : n < more) (h : Ends n s) :
    Settles First.name Failed n (bindingDecl fuel) (Grammar.bindingDecl more) s := by
  refine (identifier_settles h).bind fun name m left hm hleft => ?_
  have hnames := Halts.afterCommas (by omega : m < fuel) (by omega : m < more)
    (fun _ _ _ hends => identifier_settles hends) hleft
  refine hnames.bind fun names left hleft => ?_
  refine (Halts.expect hleft _).bind fun _ left hleft => ?_
  exact ((typeExpr_settles hleft).halts hleft).map _

theorem closedBinding_settles (hfuel : n < fuel) (hmore : n < more) (h : Ends n s) :
    Settles First.name Failed n (closedBinding fuel) (Grammar.closedBinding more) s := by
  refine (bindingDecl_settles hfuel hmore h).bind fun binding m left _ hleft => ?_
  exact (Halts.expect hleft _).bind fun _ left hleft => .pure hleft _

theorem variableList_settles (hfuel : n < fuel) (hmore : n < more) (h : Ends n s) :
    Settles First.variableList Failed n (variableList fuel) (Grammar.variableList more) s := by
  refine (Settles.expect h (by decide)).bind fun keyword m left hm hleft => ?_
  have hitem : SettlesBelow (m + 1) First.name Failed (closedBinding fuel : Metered σ BindingDecl)
      (Grammar.closedBinding more) :=
    fun _ _ hk hends => closedBinding_settles (by omega) (by omega) hends
  refine (hitem.halts (Nat.lt_succ_self m) hleft).bind fun declaration left hleft => ?_
  exact ((Settles.many (by omega) (by omega) hitem hleft).halts hleft).map _

theorem returnType_halts (h : Ends n s) :
    Halts n (lift Grammar.returnType) Grammar.returnType s := by
  rw [Grammar.returnType, lift_bind]
  exact .take?_bind h (by decide) (fun _ m left _ hleft => (typeExpr_settles hleft).halts hleft)
    (.lift h)

theorem procedureDecl_settles (hfuel : n < fuel) (hmore : n < more) (h : Ends n s) :
    Settles First.procedure Failed n (procedureDecl fuel) (Grammar.procedureDecl more) s := by
  refine (Settles.expect h (by decide)).bind fun keyword m left hm hleft => ?_
  refine (Halts.expect hleft _).bind fun name left hleft => ?_
  refine (Halts.expect hleft _).bind fun _ left hleft => ?_
  have hitem : SettlesBelow (m + 1) First.name Failed (closedBinding fuel : Metered σ BindingDecl)
      (Grammar.closedBinding more) :=
    fun _ _ hk hends => closedBinding_settles (by omega) (by omega) hends
  have hparameters := Settles.many (by omega : m < fuel) (by omega : m < more) hitem hleft
  refine (hparameters.halts hleft).bind fun parameters left hleft => ?_
  refine (Halts.expect hleft _).bind fun _ left hleft => ?_
  refine (returnType_halts hleft).bind fun type left hleft => ?_
  refine (Halts.expect hleft _).bind fun _ left hleft => ?_
  have hconstants := constantList_settles (by omega : m < fuel) (by omega : m < more) hleft
  refine (hconstants.opt.halts hleft).bind fun constants left hleft => ?_
  have hvars := variableList_settles (by omega : m < fuel) (by omega : m < more) hleft
  refine (hvars.opt.halts hleft).bind fun vars left hleft => ?_
  refine (Halts.expect hleft _).bind fun _ left hleft => ?_
  refine ((block_settles (by omega) (by omega) hleft).halts hleft).bind fun body left hleft => ?_
  refine (Halts.expect hleft _).bind fun _ left hleft => ?_
  exact (Halts.expect hleft _).bind fun _ left hleft => .pure hleft _

theorem procedureList_settles (hfuel : n < fuel) (hmore : n < more) (h : Ends n s) :
    Settles First.procedure IdleProcedures n (procedureList fuel) (Grammar.procedureList more)
      s := by
  refine (Settles.many hfuel hmore (fun _ _ _ hends => procedureDecl_settles (by omega) (by omega)
    hends) h).map _ ?_
  rintro _ rfl
  rfl

theorem programKeyword_settles (h : Ends n s) :
    Settles [.kwProgram] Failed n (lift Grammar.programKeyword) Grammar.programKeyword s := by
  have hfirst (k : TokenKind) : k ∈ [.kwProgram] ↔ k ∈ [.kwProgram] ∨ k ∈ [] := by simp
  rw [Grammar.programKeyword, Parser.take?_eq_takeAny?, lift_bind]
  exact .takeAny?_bind hfirst h (by decide) (fun keyword m left _ hleft => .lift hleft)
    (.fail _ List.not_mem_nil)

theorem program_settles (hfuel : n < fuel) (hmore : n < more) (h : Ends n s) :
    Settles First.program Failed n (program fuel) (Grammar.program more) s := by
  refine .before [.kwVar, .kwProcedure, .kwProgram] (by intro k; cases k <;> decide) h
    (constantList_settles hfuel hmore h).opt fun constants m left hm hleft => ?_
  refine .before [.kwProcedure, .kwProgram] (by intro k; cases k <;> decide) hleft
    (variableList_settles (by omega) (by omega) hleft).opt fun vars k left hk hleft => ?_
  refine .before [.kwProgram] (by intro k; cases k <;> decide) hleft
    (procedureList_settles (by omega) (by omega) hleft) fun procedures l left hl hleft => ?_
  refine (programKeyword_settles hleft).bind fun keyword l left hl hleft => ?_
  refine ((block_settles (by omega) (by omega) hleft).halts hleft).bind
    fun statements left hleft => ?_
  refine (Halts.expect hleft _).bind fun _ left hleft => ?_
  refine (Halts.expect hleft _).bind fun _ left hleft => ?_
  exact (Halts.expect hleft _).bind fun _ left hleft => .pure hleft _

end TeachLang.Metered
