import TeachLang.Grammar.Declaration
import TeachLang.Proofs.Grammar.Reading

/-! # Tokens that stand for something

An operator or a simple type is taken if its kind is in a set, and what it stands for is found out
behind it.  As every kind of such a set stands for something, this is to take what stands for
something at once, and the errors behind a token do not come up.
-/

namespace TeachLang

def Level.operator? (level : Level) (kind : TokenKind) : Option BinaryOp :=
  (BinaryOp.ofKind? kind).filter (·.level = level)

namespace Parser

variable {σ β γ : Type}

theorem standsFor_eq_pure {meaning? : TokenKind → Option β} {token : Token} {b : β}
    (h : meaning? token.kind = some b) (expected : Expected) :
    (standsFor meaning? expected token : Parser σ β) = pure b := by
  rw [standsFor, h]

variable [TokenStream σ] {kinds : List TokenKind} {meaning? total? : TokenKind → Option β}

/-- To take one of some kinds and then what it stands for is to take what stands for something. -/
theorem takeAny?_standsFor (hkinds : ∀ k, (meaning? k).isSome ↔ k ∈ kinds)
    (htotal : ∀ k b, meaning? k = some b → total? k = some b) {expected : Expected}
    {f : Option Token → Parser σ γ} {g : Option (β × Token) → Parser σ γ}
    (hsome : ∀ token,
      f (some token) = standsFor total? expected token >>= fun b => g (some (b, token)))
    (hnone : f none = g none) : takeAny? kinds >>= f = takeAs? meaning? >>= g := by
  funext s
  rw [takeAs?_bind, bind_apply, takeAny?_apply]
  cases hs : meaning? (TokenStream.current s).kind with
  | some b =>
    rw [if_pos ((hkinds _).1 (Option.isSome_of_eq_some hs))]
    dsimp only
    rw [hsome, standsFor_eq_pure (htotal _ b hs)]
    rfl
  | none =>
    rw [if_neg (mt (hkinds _).2 (Option.not_isSome_iff_eq_none.2 hs))]
    exact congrFun hnone s

end Parser

namespace Grammar

open TeachLang.Parser

variable {σ : Type} [TokenStream σ]

theorem unary_succ (operand : Parser σ Expr) (fuel : Nat) :
    unary operand (fuel + 1) = (do
      match ← takeAs? UnaryOp.ofKind? with
      | some (op, symbol) => return .unary op symbol (← unary operand fuel) none
      | none => operand) := by
  have hkinds : ∀ k, (UnaryOp.ofKind? k).isSome ↔ k ∈ First.unaryOperator := by
    intro k
    cases k <;> decide
  rw [unary]
  exact takeAny?_standsFor hkinds (fun _ _ h => h) (fun _ => rfl) rfl

theorem moreOperands_succ (level : Level) (operand : Parser σ Expr) (fuel : Nat) (lhs : Expr) :
    moreOperands level operand (fuel + 1) lhs = (do
      match ← takeAs? level.operator? with
      | some (op, symbol) =>
        let rhs ← operand
        moreOperands level operand fuel (.binary op symbol lhs rhs none)
      | none => return lhs) := by
  have hkinds : ∀ k, (level.operator? k).isSome ↔ k ∈ level.operators := by
    intro k
    cases level <;> cases k <;> decide
  rw [moreOperands]
  exact takeAny?_standsFor hkinds (fun _ _ h => (Option.filter_eq_some_iff.1 h).1) (fun _ => rfl)
    rfl

/-- The name of a simple type where one of the expected kinds has to stand. -/
def simpleTypeName (expected : List TokenKind) : Parser σ (SimpleType × Token) := do
  match ← takeAs? SimpleType.ofKind? with
  | some found => return found
  | none => fail (.anyOf expected)

/-- Where every kind that is expected names a simple type, if it is in sight, no token is read for
nothing. -/
theorem expectAny_simpleType {γ : Type} {expected : List TokenKind}
    (hexpected : ∀ k, (SimpleType.ofKind? k).isSome → k ∈ expected) {s : σ}
    (hs : (TokenStream.current s).kind ∈ expected →
      (SimpleType.ofKind? (TokenStream.current s).kind).isSome)
    (f : SimpleType → Token → Parser σ γ) :
    (do
      let token ← expectAny expected
      f (← simpleType token) token) s =
    (do
      let (type, token) ← simpleTypeName expected
      f type token) s := by
  rw [simpleTypeName, expectAny, bind_apply, bind_apply, bind_apply, bind_apply, takeAny?_apply,
    takeAs?_apply]
  by_cases hmem : (TokenStream.current s).kind ∈ expected
  · obtain ⟨type, htype⟩ := Option.isSome_iff_exists.1 (hs hmem)
    rw [if_pos hmem, htype]
    change (simpleType (TokenStream.current s) >>= _) _ = _
    rw [simpleType, standsFor_eq_pure htype]
    rfl
  · have hnone := Option.not_isSome_iff_eq_none.1 fun hsome => hmem (hexpected _ hsome)
    rw [if_neg hmem, hnone]
    rfl

theorem typeExpr_eq :
    (typeExpr : Parser σ TypeExpr) = (do
      match ← take? .kwList with
      | some keyword =>
        let _ ← expect .kwOf
        let (element, token) ← simpleTypeName First.simpleType
        return .list keyword token element none
      | none =>
        let (type, token) ← simpleTypeName First.type
        return .simple token type none) := by
  have hsimple : ∀ k, (SimpleType.ofKind? k).isSome ↔ k ∈ First.simpleType := by
    intro k
    cases k <;> decide
  have htype : ∀ k, k ∈ First.type ↔ k ∈ First.simpleType ∨ k = .kwList := by
    intro k
    cases k <;> decide
  funext s
  rw [typeExpr, take?_bind, take?_bind]
  by_cases hs : (TokenStream.current s).kind = .kwList
  · rw [if_pos hs, if_pos hs]
    refine congrFun (congrArg (expect .kwOf >>= ·) (funext fun _ => funext fun m => ?_)) _
    exact expectAny_simpleType (fun k => (hsimple k).1) (hsimple _).2 fun element token =>
      pure (TypeExpr.list _ token element none)
  · rw [if_neg hs, if_neg hs]
    refine expectAny_simpleType (fun k hk => (htype k).2 (.inl ((hsimple k).1 hk))) ?_
      fun type token => pure (TypeExpr.simple token type none)
    exact fun hmem => (hsimple _).2 (((htype _).1 hmem).resolve_right hs)

end Grammar
end TeachLang
