import TeachLang.Proofs.Grammar.Meaning
import TeachLang.Proofs.Grammar.Repetition
import TeachLang.Proofs.Tree.Grammatical

/-! # Written trees

Which tokens write which tree.  The levels of expressions are one relation over the
relation of whole expressions, which come up again between brackets, and statements are
one over the relation of blocks; both are then closed.  Every tree stands in the relation
with empty type slots only.
-/

namespace TeachLang

inductive Literal.Written : Writing Literal
  | mk {t : Token} (kind : t.kind ∈ First.simpleLiteral) (legible : t.isLegible) :
      Literal.Written [t] ⟨t, .ofToken t, none⟩

inductive ListLiteral.Written : Writing ListLiteral
  | mk {opening closing : Token} {w : List Token} {elements : List Literal}
      (opening_kind : opening.kind ∈ First.listLiteral) (elements_ok : Separated Literal.Written w elements)
      (closing_kind : closing.kind = Grammar.closing opening.kind) :
      ListLiteral.Written (opening :: (w ++ [closing])) ⟨opening, elements, none⟩

/-- The parts of an expression by how tightly they bind. -/
inductive Rank where
  | level (level : Level)
  | unary
  | primary
  | atom

def Level.operand : Level → Rank
  | logic => .level .relational
  | relational => .level .sum
  | sum => .level .mul
  | mul => .unary

theorem Level.operator?_eq_some_iff (level : Level) (kind : TokenKind) (op : BinaryOp) :
    level.operator? kind = some op ↔ kind = op.kind ∧ op.level = level := by
  simp [Level.operator?, Option.filter_eq_some_iff, BinaryOp.ofKind?_eq_some_iff]

inductive Expr.Arguments (E : Writing Expr) : Writing (List Expr)
  | mk {opening closing : Token} {w : List Token} {args : List Expr}
      (opening_kind : opening.kind = .parenthesisOpen) (args_ok : Separated E w args)
      (closing_kind : closing.kind = .parenthesisClose) :
      Expr.Arguments E (opening :: (w ++ [closing])) args

/-- Expressions of every rank, where `E` tells which tokens write an expression between brackets. -/
inductive Expr.Layer (E : Writing Expr) : Rank → Writing Expr
  | name {t : Token} (kind : t.kind = .identifier) : Expr.Layer E .atom [t] (.name ⟨t, none⟩)
  | call {callee : Token} {w : List Token} {args : List Expr}
      (callee_kind : callee.kind = .identifier) (args_ok : Expr.Arguments E w args) :
      Expr.Layer E .atom (callee :: w) (.call callee args none)
  | parentheses {opening closing : Token} {w : List Token} {e : Expr}
      (opening_kind : opening.kind = .parenthesisOpen) (inner : E w e)
      (closing_kind : closing.kind = .parenthesisClose) :
      Expr.Layer E .atom (opening :: (w ++ [closing])) e
  | literal {w : List Token} {l : Literal} (literal_ok : Literal.Written w l) :
      Expr.Layer E .atom w (.literal l)
  | list {w : List Token} {l : ListLiteral} (list_ok : ListLiteral.Written w l) :
      Expr.Layer E .atom w (.list l)
  | atom {w : List Token} {e : Expr} (atom_ok : Expr.Layer E .atom w e) : Expr.Layer E .primary w e
  | index {v w : List Token} {opening closing : Token} {target position : Expr}
      (target_ok : Expr.Layer E .atom v target) (opening_kind : opening.kind = .bracketOpen)
      (position_ok : E w position) (closing_kind : closing.kind = .bracketClose) :
      Expr.Layer E .primary (v ++ opening :: (w ++ [closing])) (.index target opening position none)
  | primary {w : List Token} {e : Expr} (primary_ok : Expr.Layer E .primary w e) :
      Expr.Layer E .unary w e
  | unary {symbol : Token} {op : UnaryOp} {w : List Token} {operand : Expr}
      (symbol_kind : symbol.kind = op.kind) (operand_ok : Expr.Layer E .unary w operand) :
      Expr.Layer E .unary (symbol :: w) (.unary op symbol operand none)
  | operand {level : Level} {w : List Token} {e : Expr}
      (operand_ok : Expr.Layer E level.operand w e) : Expr.Layer E (.level level) w e
  | binary {v w : List Token} {symbol : Token} {op : BinaryOp} {lhs rhs : Expr}
      (lhs_ok : Expr.Layer E (.level op.level) v lhs) (symbol_kind : symbol.kind = op.kind)
      (rhs_ok : Expr.Layer E op.level.operand w rhs) :
      Expr.Layer E (.level op.level) (v ++ symbol :: w) (.binary op symbol lhs rhs none)

inductive Expr.Written : Writing Expr
  | mk {w : List Token} {e : Expr} (layer : Expr.Layer Expr.Written (.level .logic) w e) :
      Expr.Written w e

section

variable {E F : Writing Expr}

theorem Expr.Arguments.imp {w : List Token} {args : List Expr} (h : Expr.Arguments E w args)
    (hEF : ∀ v e, v.length < w.length → E v e → F v e) : Expr.Arguments F w args := by
  cases h with | mk hopening hargs hclosing =>
  refine .mk hopening (hargs.imp fun v e hv => hEF v e ?_) hclosing
  simp only [List.length_cons, List.length_append]
  omega

/-- Whole expressions come up in a layer between brackets only, and are shorter there. -/
theorem Expr.Layer.imp {r : Rank} {w : List Token} {e : Expr} (h : Expr.Layer E r w e)
    (hEF : ∀ v e, v.length < w.length → E v e → F v e) : Expr.Layer F r w e := by
  induction h with
  | name hkind => exact .name hkind
  | call hcallee hargs =>
    exact .call hcallee (hargs.imp fun v e hv => hEF v e (Nat.lt_succ_of_lt hv))
  | parentheses hopening hinner hclosing =>
    refine .parentheses hopening (hEF _ _ ?_ hinner) hclosing
    simp only [List.length_cons, List.length_append]
    omega
  | literal hliteral => exact .literal hliteral
  | list hlist => exact .list hlist
  | atom _ ih => exact .atom (ih hEF)
  | index _ hopening hposition hclosing ih =>
    simp only [List.length_append, List.length_cons] at hEF
    refine .index (ih fun v e hv => hEF v e (by omega)) hopening (hEF _ _ ?_ hposition) hclosing
    omega
  | primary _ ih => exact .primary (ih hEF)
  | unary hsymbol _ ih => exact .unary hsymbol (ih fun v e hv => hEF v e (Nat.lt_succ_of_lt hv))
  | operand _ ih => exact .operand (ih hEF)
  | binary _ hsymbol _ ihl ihr =>
    simp only [List.length_append, List.length_cons] at hEF
    exact .binary (ihl fun v e hv => hEF v e (by omega)) hsymbol
      (ihr fun v e hv => hEF v e (by omega))

end

/-- What layers keep holds of every expression. -/
theorem Expr.Written.lift {P : Writing Expr}
    (step : ∀ w e, Expr.Layer P (.level .logic) w e → P w e) {w : List Token} {e : Expr}
    (h : e.Written w) : P w e := by
  induction hn : w.length using Nat.strongRecOn generalizing w e with
  | ind n ih =>
    subst hn
    cases h with | mk hlayer =>
    exact step w e (hlayer.imp fun v e hv hE => ih v.length hv hE rfl)

inductive Target.Written : Writing Target
  | name {t : Token} (kind : t.kind = .identifier) : Target.Written [t] (.name ⟨t, none⟩)
  | element {base opening closing : Token} {w : List Token} {position : Expr}
      (base_kind : base.kind = .identifier) (opening_kind : opening.kind = .bracketOpen)
      (position_ok : position.Written w) (closing_kind : closing.kind = .bracketClose) :
      Target.Written (base :: opening :: (w ++ [closing]))
        (.element (.name ⟨base, none⟩) opening position none)

/-- The branches behind the first one of a conditional, where `B` tells which tokens write a block. -/
inductive ElseIfs.Layer (B : Writing Block) : Writing ElseIfs
  | nil : ElseIfs.Layer B [] .nil
  | cons {keyword thenWord : Token} {u v w : List Token} {condition : Expr} {body : Block}
      {rest : ElseIfs} (keyword_kind : keyword.kind = .kwElseif) (condition_ok : condition.Written u)
      (then_kind : thenWord.kind = .kwThen) (body_ok : B v body) (rest_ok : ElseIfs.Layer B w rest) :
      ElseIfs.Layer B (keyword :: (u ++ thenWord :: (v ++ w)))
        (.cons keyword condition body none rest)

inductive Else.Layer (B : Writing Block) : Writing Else
  | absent : Else.Layer B [] .absent
  | present {keyword : Token} {w : List Token} {body : Block} (keyword_kind : keyword.kind = .kwElse)
      (body_ok : B w body) : Else.Layer B (keyword :: w) (.present keyword body none)

inductive Statement.Layer (B : Writing Block) : Writing Statement
  | assignment {v w : List Token} {target : Target} {symbol : Token} {value : Expr}
      (target_ok : target.Written v) (symbol_kind : symbol.kind = .colonEqual)
      (value_ok : value.Written w) :
      Statement.Layer B (v ++ symbol :: w) (.assignment target symbol value none)
  | call {callee : Token} {w : List Token} {args : List Expr}
      (callee_kind : callee.kind = .identifier) (args_ok : Expr.Arguments Expr.Written w args) :
      Statement.Layer B (callee :: w) (.call callee args none)
  | conditional {keyword thenWord endWord : Token} {u v w x : List Token} {condition : Expr}
      {body : Block} {elseIfs : ElseIfs} {otherwise : Else} (keyword_kind : keyword.kind = .kwIf)
      (condition_ok : condition.Written u) (then_kind : thenWord.kind = .kwThen)
      (body_ok : B v body) (elseIfs_ok : ElseIfs.Layer B w elseIfs)
      (otherwise_ok : Else.Layer B x otherwise) (end_kind : endWord.kind = .kwEnd) :
      Statement.Layer B (keyword :: (u ++ thenWord :: (v ++ (w ++ (x ++ [endWord])))))
        (.conditional keyword condition body elseIfs none otherwise none)
  | loop {keyword endWord : Token} {w : List Token} {body : Block}
      (keyword_kind : keyword.kind = .kwLoop) (body_ok : B w body)
      (end_kind : endWord.kind = .kwEnd) :
      Statement.Layer B (keyword :: (w ++ [endWord])) (.loop keyword body none)
  | forEach {keyword item inWord doWord endWord : Token} {v w : List Token} {iterable : Expr}
      {body : Block} (keyword_kind : keyword.kind = .kwFor) (item_kind : item.kind = .identifier)
      (in_kind : inWord.kind = .kwIn) (iterable_ok : iterable.Written v)
      (do_kind : doWord.kind = .kwDo) (body_ok : B w body) (end_kind : endWord.kind = .kwEnd) :
      Statement.Layer B (keyword :: item :: inWord :: (v ++ doWord :: (w ++ [endWord])))
        (.forEach keyword ⟨item, none⟩ iterable body none)
  | returning {keyword : Token} {w : List Token} {value : Option Expr}
      (keyword_kind : keyword.kind = .kwReturn) (value_ok : Optional Expr.Written w value) :
      Statement.Layer B (keyword :: w) (.returning keyword value none)
  | exit {keyword : Token} (keyword_kind : keyword.kind = .kwExit) :
      Statement.Layer B [keyword] (.exit keyword none)

inductive Block.Written : Writing Block
  | mk {w : List Token} {statements : List Statement}
      (layer : Repeated (Closed (Statement.Layer Block.Written)) w statements) :
      Block.Written w (.mk statements none)

section

variable {B C : Writing Block}

theorem ElseIfs.Layer.imp {w : List Token} {b : ElseIfs} (h : ElseIfs.Layer B w b)
    (hBC : ∀ v b, v.length < w.length → B v b → C v b) : ElseIfs.Layer C w b := by
  induction h with
  | nil => exact .nil
  | cons hkeyword hcondition hthen hbody _ ih =>
    simp only [List.length_cons, List.length_append] at hBC
    exact .cons hkeyword hcondition hthen (hBC _ _ (by omega) hbody)
      (ih fun v b hv => hBC v b (by omega))

theorem Else.Layer.imp {w : List Token} {b : Else} (h : Else.Layer B w b)
    (hBC : ∀ v b, v.length < w.length → B v b → C v b) : Else.Layer C w b := by
  cases h with
  | absent => exact .absent
  | present hkeyword hbody => exact .present hkeyword (hBC _ _ (Nat.lt_succ_self _) hbody)

theorem Statement.Layer.imp {w : List Token} {s : Statement} (h : Statement.Layer B w s)
    (hBC : ∀ v b, v.length < w.length → B v b → C v b) : Statement.Layer C w s := by
  cases h with
  | assignment htarget hsymbol hvalue => exact .assignment htarget hsymbol hvalue
  | call hcallee hargs => exact .call hcallee hargs
  | conditional hkeyword hcondition hthen hbody helseIfs hotherwise hend =>
    simp only [List.length_cons, List.length_append] at hBC
    exact .conditional hkeyword hcondition hthen (hBC _ _ (by omega) hbody)
      (helseIfs.imp fun v b hv => hBC v b (by omega))
      (hotherwise.imp fun v b hv => hBC v b (by omega)) hend
  | loop hkeyword hbody hend =>
    simp only [List.length_cons, List.length_append] at hBC
    exact .loop hkeyword (hBC _ _ (by omega) hbody) hend
  | forEach hkeyword hitem hin hiterable hdo hbody hend =>
    simp only [List.length_cons, List.length_append] at hBC
    exact .forEach hkeyword hitem hin hiterable hdo (hBC _ _ (by omega) hbody) hend
  | returning hkeyword hvalue => exact .returning hkeyword hvalue
  | exit hkeyword => exact .exit hkeyword

end

/-- What layers keep holds of every block. -/
theorem Block.Written.lift {P : Writing Block}
    (step : ∀ w statements, Repeated (Closed (Statement.Layer P)) w statements →
      P w (.mk statements none)) {w : List Token} {b : Block} (h : b.Written w) : P w b := by
  induction hn : w.length using Nat.strongRecOn generalizing w b with
  | ind n ih =>
    subst hn
    cases h with | mk hlayer =>
    refine step w _ (hlayer.imp fun v s hv hclosed => hclosed.imp fun u s hu hs => ?_)
    exact hs.imp fun x b hx hB => ih x.length (by omega) hB rfl

def Statement.Written : Writing Statement := Closed (Statement.Layer Block.Written)

inductive ConstantValue.Written : Writing ConstantValue
  | simple {w : List Token} {l : Literal} (literal_ok : l.Written w) :
      ConstantValue.Written w (.simple l)
  | list {w : List Token} {l : ListLiteral} (list_ok : l.Written w)
      (opening_kind : l.opening.kind = .curlyOpen) : ConstantValue.Written w (.list l)

inductive ConstantDecl.Body : Writing ConstantDecl
  | mk {name symbol : Token} {w : List Token} {value : ConstantValue}
      (name_kind : name.kind = .identifier) (symbol_kind : symbol.kind = .colonEqual)
      (value_ok : value.Written w) : ConstantDecl.Body (name :: symbol :: w) ⟨name, value, none⟩

inductive ConstantList.Written : Writing ConstantList
  | mk {keyword : Token} {v w : List Token} {d : ConstantDecl} {ds : List ConstantDecl}
      (keyword_kind : keyword.kind = .kwConst) (head : Closed ConstantDecl.Body v d)
      (tail : Repeated (Closed ConstantDecl.Body) w ds) :
      ConstantList.Written (keyword :: (v ++ w)) ⟨keyword, d :: ds, none⟩

inductive TypeExpr.Written : Writing TypeExpr
  | simple {t : Token} {s : SimpleType} (kind : t.kind = s.kind) :
      TypeExpr.Written [t] (.simple t s none)
  | list {keyword ofWord t : Token} {s : SimpleType} (keyword_kind : keyword.kind = .kwList)
      (of_kind : ofWord.kind = .kwOf) (kind : t.kind = s.kind) :
      TypeExpr.Written [keyword, ofWord, t] (.list keyword t s none)

inductive Identifier.Written : Writing Identifier
  | mk {t : Token} (kind : t.kind = .identifier) : Identifier.Written [t] ⟨t, none⟩

inductive BindingDecl.Body : Writing BindingDecl
  | mk {colon : Token} {u v w : List Token} {i : Identifier} {is : List Identifier} {type : TypeExpr}
      (head : i.Written u) (tail : Repeated (After .comma Identifier.Written) v is)
      (colon_kind : colon.kind = .colon) (type_ok : type.Written w) :
      BindingDecl.Body (u ++ (v ++ colon :: w)) ⟨i :: is, type, none⟩

inductive VariableList.Written : Writing VariableList
  | mk {keyword : Token} {v w : List Token} {d : BindingDecl} {ds : List BindingDecl}
      (keyword_kind : keyword.kind = .kwVar) (head : Closed BindingDecl.Body v d)
      (tail : Repeated (Closed BindingDecl.Body) w ds) :
      VariableList.Written (keyword :: (v ++ w)) ⟨keyword, d :: ds, none⟩

inductive TypeExpr.ReturnWritten : Writing TypeExpr
  | none : TypeExpr.ReturnWritten [] (.void none)
  | some {w : List Token} {type : TypeExpr} (type_ok : After .colon TypeExpr.Written w type) :
      TypeExpr.ReturnWritten w type

inductive ProcedureDecl.Body : Writing ProcedureDecl
  | mk {keyword name opening closing semicolon beginWord endWord : Token}
      {u v w x y : List Token} {parameters : List BindingDecl} {returnType : TypeExpr}
      {constants : Option ConstantList} {vars : Option VariableList} {body : Block}
      (keyword_kind : keyword.kind = .kwProcedure) (name_kind : name.kind = .identifier)
      (opening_kind : opening.kind = .parenthesisOpen)
      (parameters_ok : Repeated (Closed BindingDecl.Body) u parameters)
      (closing_kind : closing.kind = .parenthesisClose) (return_ok : returnType.ReturnWritten v)
      (semicolon_kind : semicolon.kind = .semicolon)
      (constants_ok : Optional ConstantList.Written w constants)
      (vars_ok : Optional VariableList.Written x vars) (begin_kind : beginWord.kind = .kwBegin)
      (body_ok : body.Written y) (end_kind : endWord.kind = .kwEnd) :
      ProcedureDecl.Body
        (keyword :: name :: opening :: (u ++ closing :: (v ++ semicolon :: (w ++ (x ++ beginWord ::
          (y ++ [endWord]))))))
        ⟨keyword, name, ⟨parameters, none⟩, returnType, constants, vars, body, none⟩

inductive Program.Written : Writing Program
  | mk {keyword endWord semicolon eof : Token} {u v w x : List Token}
      {constants : Option ConstantList} {vars : Option VariableList}
      {procedures : List ProcedureDecl} {body : Block}
      (constants_ok : Optional ConstantList.Written u constants)
      (vars_ok : Optional VariableList.Written v vars)
      (procedures_ok : Repeated (Closed ProcedureDecl.Body) w procedures)
      (keyword_kind : keyword.kind = .kwProgram) (body_ok : body.Written x)
      (end_kind : endWord.kind = .kwEnd) (semicolon_kind : semicolon.kind = .semicolon)
      (eof_kind : eof.kind = .eof) :
      Program.Written (u ++ (v ++ (w ++ keyword :: (x ++ [endWord, semicolon, eof]))))
        ⟨keyword, constants, vars, ⟨procedures, none⟩, body, none⟩

end TeachLang
