import TeachLang.Grammar.Expr
import TeachLang.Tree.Statement

/-! # Grammar of statements

    block     := [statement]…
    statement := name := expr ; | name [ expr ] := expr ; | name ( [expr [, expr]…] ) ;
               | if expr then block [elseif expr then block]… [else block] end ;
               | loop block end ;
               | for name in expr do block end ;
               | return [expr] ;
               | exit ;
-/

namespace TeachLang.Grammar

open TeachLang.Parser

variable {σ : Type} [TokenStream σ]

def nameStatement (fuel : Nat) : Parser σ Statement := do
  let name ← expect .identifier
  match (← current).kind with
  | .colonEqual =>
    let symbol ← advance
    let value ← expr fuel
    return .assignment (.name ⟨name, none⟩) symbol value none
  | .bracketOpen =>
    let opening ← advance
    let position ← expr fuel
    let _ ← expect .bracketClose
    let symbol ← expect .colonEqual
    let value ← expr fuel
    return .assignment (.element (.name ⟨name, none⟩) opening position none) symbol value none
  | .parenthesisOpen => return .call name (← arguments (expr fuel) fuel) none
  | _ => fail (.anyOf First.afterName)

def elseIfs (expr : Parser σ Expr) (block : Parser σ Block) : Nat → Parser σ ElseIfs
  | 0 => return .nil
  | fuel + 1 => do
    match ← take? .kwElseif with
    | some keyword =>
      let condition ← expr
      let _ ← expect .kwThen
      let body ← block
      return .cons keyword condition body none (← elseIfs expr block fuel)
    | none => return .nil

def otherwise (block : Parser σ Block) : Parser σ Else := do
  match ← take? .kwElse with
  | some keyword => return .present keyword (← block) none
  | none => return .absent

def conditional (block : Parser σ Block) (fuel : Nat) : Parser σ Statement := do
  let keyword ← expect .kwIf
  let condition ← expr fuel
  let _ ← expect .kwThen
  let body ← block
  let branches ← elseIfs (expr fuel) block fuel
  let last ← otherwise block
  let _ ← expect .kwEnd
  return .conditional keyword condition body branches none last none

def loop (block : Parser σ Block) : Parser σ Statement := do
  let keyword ← advance
  let body ← block
  let _ ← expect .kwEnd
  return .loop keyword body none

def forEach (block : Parser σ Block) (fuel : Nat) : Parser σ Statement := do
  let keyword ← advance
  let item ← expect .identifier
  let _ ← expect .kwIn
  let iterable ← expr fuel
  let _ ← expect .kwDo
  let body ← block
  let _ ← expect .kwEnd
  return .forEach keyword ⟨item, none⟩ iterable body none

def statementBody (block : Parser σ Block) (fuel : Nat) : Parser σ Statement := do
  match (← current).kind with
  | .identifier => nameStatement fuel
  | .kwIf => conditional block fuel
  | .kwLoop => loop block
  | .kwFor => forEach block fuel
  | .kwReturn =>
    let keyword ← advance
    return .returning keyword (← opt First.expr (expr fuel)) none
  | .kwExit => return .exit (← advance) none
  | _ => fail (.anyOf First.statement)

def blockOf (statement : Parser σ Statement) (fuel : Nat) : Parser σ Block := do
  return .mk (← many First.statement statement fuel) none

def statement : Nat → Parser σ Statement
  | 0 => fail (.anyOf First.statement)
  | fuel + 1 => do
    let s ← statementBody (blockOf (statement fuel) fuel) (fuel + 1)
    let _ ← expect .semicolon
    return s

def block (fuel : Nat) : Parser σ Block := blockOf (statement fuel) fuel

end TeachLang.Grammar
