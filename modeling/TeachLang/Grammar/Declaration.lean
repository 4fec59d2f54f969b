import TeachLang.Grammar.Statement
import TeachLang.Tree.Declaration

/-! # Grammar of declarations and programs

    program   := [constants] [variables] [procedure]… program block end ; eof
    constants := const constant [constant]…
    constant  := name := (literal | curly list) ;
    variables := var binding ; [binding ;]…
    binding   := name [, name]… : type
    type      := simple type | list of simple type
    procedure := procedure name ( [binding ;]… ) [: type] ; [constants] [variables]
                 begin block end ;
-/

namespace TeachLang.Grammar

open TeachLang.Parser

variable {σ : Type} [TokenStream σ]

def constantValue (fuel : Nat) : Parser σ ConstantValue := do
  if ← has .curlyOpen then return .list (← listLiteral fuel)
  else if ← hasAny First.simpleLiteral then return .simple (← literal)
  else fail (.anyOf First.constantValue)

def constantDecl (fuel : Nat) : Parser σ ConstantDecl := do
  let name ← expect .identifier
  let _ ← expect .colonEqual
  let value ← constantValue fuel
  let _ ← expect .semicolon
  return ⟨name, value, none⟩

def constantList (fuel : Nat) : Parser σ ConstantList := do
  let keyword ← expect .kwConst
  let declaration ← constantDecl fuel
  let declarations ← many First.name (constantDecl fuel) fuel
  return ⟨keyword, declaration :: declarations, none⟩

def simpleType (token : Token) : Parser σ SimpleType :=
  standsFor SimpleType.ofKind? (.anyOf First.simpleType) token

def typeExpr : Parser σ TypeExpr := do
  match ← take? .kwList with
  | some keyword =>
    let _ ← expect .kwOf
    let token ← expectAny First.simpleType
    return .list keyword token (← simpleType token) none
  | none =>
    let token ← expectAny First.type
    return .simple token (← simpleType token) none

def identifier : Parser σ Identifier := do return ⟨← expect .identifier, none⟩

def bindingDecl (fuel : Nat) : Parser σ BindingDecl := do
  let name ← identifier
  let names ← afterCommas identifier fuel
  let _ ← expect .colon
  let type ← typeExpr
  return ⟨name :: names, type, none⟩

def closedBinding (fuel : Nat) : Parser σ BindingDecl := do
  let binding ← bindingDecl fuel
  let _ ← expect .semicolon
  return binding

def variableList (fuel : Nat) : Parser σ VariableList := do
  let keyword ← expect .kwVar
  let declaration ← closedBinding fuel
  let declarations ← many First.name (closedBinding fuel) fuel
  return ⟨keyword, declaration :: declarations, none⟩

def returnType : Parser σ TypeExpr := do
  match ← take? .colon with
  | some _ => typeExpr
  | none => return .void none

def procedureDecl (fuel : Nat) : Parser σ ProcedureDecl := do
  let keyword ← expect .kwProcedure
  let name ← expect .identifier
  let _ ← expect .parenthesisOpen
  let parameters ← many First.name (closedBinding fuel) fuel
  let _ ← expect .parenthesisClose
  let returnType ← returnType
  let _ ← expect .semicolon
  let constants ← opt First.constantList (constantList fuel)
  let vars ← opt First.variableList (variableList fuel)
  let _ ← expect .kwBegin
  let body ← block fuel
  let _ ← expect .kwEnd
  let _ ← expect .semicolon
  return ⟨keyword, name, ⟨parameters, none⟩, returnType, constants, vars, body, none⟩

def procedureList (fuel : Nat) : Parser σ ProcedureList := do
  return ⟨← many First.procedure (procedureDecl fuel) fuel, none⟩

def programKeyword : Parser σ Token := do
  match ← take? .kwProgram with
  | some keyword => return keyword
  | none => fail (.anyOf (First.declaration ++ [.kwProgram]))

def program (fuel : Nat) : Parser σ Program := do
  let constants ← opt First.constantList (constantList fuel)
  let vars ← opt First.variableList (variableList fuel)
  let procedures ← procedureList fuel
  let keyword ← programKeyword
  let statements ← block fuel
  let _ ← expect .kwEnd
  let _ ← expect .semicolon
  let _ ← expect .eof
  return ⟨keyword, constants, vars, procedures, statements, none⟩

end TeachLang.Grammar

namespace TeachLang.Production

def expr : Production Expr := ⟨First.expr, Grammar.expr⟩

def literal : Production Literal := ⟨First.simpleLiteral, fun _ => Grammar.literal⟩

def listLiteral : Production ListLiteral := ⟨First.listLiteral, Grammar.listLiteral⟩

def statement : Production Statement := ⟨First.statement, Grammar.statement⟩

def block : Production Block := ⟨First.statement, Grammar.block⟩

def typeExpr : Production TypeExpr := ⟨First.type, fun _ => Grammar.typeExpr⟩

def constantDecl : Production ConstantDecl := ⟨First.name, Grammar.constantDecl⟩

def constantList : Production ConstantList := ⟨First.constantList, Grammar.constantList⟩

def bindingDecl : Production BindingDecl := ⟨First.name, Grammar.bindingDecl⟩

def variableList : Production VariableList := ⟨First.variableList, Grammar.variableList⟩

def procedureDecl : Production ProcedureDecl := ⟨First.procedure, Grammar.procedureDecl⟩

def procedureList : Production ProcedureList := ⟨First.procedure, Grammar.procedureList⟩

def program : Production Program := ⟨First.program, Grammar.program⟩

end TeachLang.Production

namespace TeachLang

/-- Reads a whole program, and tells how far the source was scanned for it. -/
def parseProgram (source : String) : Except SyntaxError Program × Cursor :=
  Production.program.parse (Cursor.ofSource source)

end TeachLang
