import TeachLang.Token.Basic

/-! # The documented grammar

The grammar of the language as it is documented, as data: extended Backus–Naur form over
kinds of tokens, one rule for each part of the grammar, and which kinds in a row the rules
derive.
-/

namespace TeachLang

inductive Nonterminal where
  | program | constBlock | varBlock | procedure | binding | type | simpleType
  | constantValue | simpleLiteral | statement
  | expr | rel | sum | mul | unary | primary | atom
deriving DecidableEq

inductive Ebnf where
  | empty
  | oneOf (kinds : List TokenKind)
  | part (n : Nonterminal)
  | andThen (x y : Ebnf)
  | either (x y : Ebnf)
  | repeated (x : Ebnf)

namespace Ebnf

def token (kind : TokenKind) : Ebnf := oneOf [kind]

def seq : List Ebnf → Ebnf
  | [] => empty
  | x :: xs => andThen x (seq xs)

def anyOf : List Ebnf → Ebnf
  | [] => oneOf []
  | x :: xs => either x (anyOf xs)

def optional (x : Ebnf) : Ebnf := either empty x

def atLeastOne (x : Ebnf) : Ebnf := andThen x (repeated x)

def commas (x : Ebnf) : Ebnf := andThen x (repeated (andThen (token .comma) x))

end Ebnf

open Ebnf in
def Nonterminal.rule : Nonterminal → Ebnf
  | program =>
    seq [optional (part constBlock), optional (part varBlock), repeated (part procedure),
      token .kwProgram, repeated (part statement), token .kwEnd, token .semicolon, token .eof]
  | constBlock =>
    seq [token .kwConst, atLeastOne
      (seq [token .identifier, token .colonEqual, part constantValue, token .semicolon])]
  | varBlock => seq [token .kwVar, atLeastOne (part binding)]
  | procedure =>
    seq [token .kwProcedure, token .identifier, token .parenthesisOpen, repeated (part binding),
      token .parenthesisClose, optional (seq [token .colon, part type]), token .semicolon,
      optional (part constBlock), optional (part varBlock), token .kwBegin,
      repeated (part statement), token .kwEnd, token .semicolon]
  | binding => seq [commas (token .identifier), token .colon, part type, token .semicolon]
  | type => anyOf [part simpleType, seq [token .kwList, token .kwOf, part simpleType]]
  | simpleType => oneOf [.kwInteger, .kwString, .kwBoolean]
  | constantValue =>
    anyOf [part simpleLiteral,
      seq [token .curlyOpen, optional (commas (part simpleLiteral)), token .curlyClose]]
  | simpleLiteral => oneOf [.intLiteral, .stringLiteral, .kwTrue, .kwFalse]
  | statement =>
    anyOf [
      seq [token .identifier, token .colonEqual, part expr, token .semicolon],
      seq [token .identifier, token .bracketOpen, part expr, token .bracketClose,
        token .colonEqual, part expr, token .semicolon],
      seq [token .identifier, token .parenthesisOpen, optional (commas (part expr)),
        token .parenthesisClose, token .semicolon],
      seq [token .kwIf, part expr, token .kwThen, repeated (part statement),
        repeated (seq [token .kwElseif, part expr, token .kwThen, repeated (part statement)]),
        optional (seq [token .kwElse, repeated (part statement)]), token .kwEnd,
        token .semicolon],
      seq [token .kwLoop, repeated (part statement), token .kwEnd, token .semicolon],
      seq [token .kwFor, token .identifier, token .kwIn, part expr, token .kwDo,
        repeated (part statement), token .kwEnd, token .semicolon],
      seq [token .kwReturn, optional (part expr), token .semicolon],
      seq [token .kwExit, token .semicolon]]
  | expr => seq [part rel, repeated (seq [oneOf [.kwAnd, .kwOr, .kwXor], part rel])]
  | rel =>
    seq [part sum, repeated (seq [oneOf [.equal, .unequal, .lessThan, .moreThan, .lessThanEqual,
      .moreThanEqual], part sum])]
  | sum => seq [part mul, repeated (seq [oneOf [.plus, .minus], part mul])]
  | mul => seq [part unary, repeated (seq [oneOf [.times, .kwDiv, .kwRem], part unary])]
  | unary => anyOf [seq [oneOf [.kwNot, .minus], part unary], part primary]
  | primary =>
    seq [part atom, optional (seq [token .bracketOpen, part expr, token .bracketClose])]
  | atom =>
    anyOf [
      seq [token .parenthesisOpen, part expr, token .parenthesisClose],
      token .identifier,
      seq [token .identifier, token .parenthesisOpen, optional (commas (part expr)),
        token .parenthesisClose],
      part simpleLiteral,
      seq [token .curlyOpen, optional (commas (part simpleLiteral)), token .curlyClose],
      seq [token .bracketOpen, optional (commas (part simpleLiteral)), token .bracketClose]]

/-- Which kinds in a row are sentences of a form. -/
inductive Derives : Ebnf → List TokenKind → Prop
  | empty : Derives .empty []
  | oneOf {kinds : List TokenKind} {k : TokenKind} (mem : k ∈ kinds) : Derives (.oneOf kinds) [k]
  | part {n : Nonterminal} {ks : List TokenKind} (rule : Derives n.rule ks) : Derives (.part n) ks
  | andThen {x y : Ebnf} {js ks : List TokenKind} (left : Derives x js) (right : Derives y ks) :
      Derives (.andThen x y) (js ++ ks)
  | left {x y : Ebnf} {ks : List TokenKind} (h : Derives x ks) : Derives (.either x y) ks
  | right {x y : Ebnf} {ks : List TokenKind} (h : Derives y ks) : Derives (.either x y) ks
  | stop {x : Ebnf} : Derives (.repeated x) []
  | again {x : Ebnf} {js ks : List TokenKind} (head : Derives x js)
      (tail : Derives (.repeated x) ks) : Derives (.repeated x) (js ++ ks)

namespace Derives

theorem token (kind : TokenKind) : Derives (.token kind) [kind] :=
  oneOf (List.mem_singleton.2 rfl)

theorem done : Derives (.seq []) [] := empty

theorem next {x : Ebnf} {xs : List Ebnf} {js ks : List TokenKind} (h : Derives x js)
    (hrest : Derives (.seq xs) ks) : Derives (.seq (x :: xs)) (js ++ ks) :=
  andThen h hrest

theorem last {x : Ebnf} {ks : List TokenKind} (h : Derives x ks) : Derives (.seq [x]) ks := by
  simpa using next h done

theorem cons {kind : TokenKind} {xs : List Ebnf} {ks : List TokenKind} (h : Derives (.seq xs) ks) :
    Derives (.seq (.token kind :: xs)) (kind :: ks) :=
  next (token kind) h

theorem seq_cons {x : Ebnf} {xs : List Ebnf} {ks : List TokenKind}
    (h : Derives (.seq (x :: xs)) ks) :
    ∃ ls ms, ks = ls ++ ms ∧ Derives x ls ∧ Derives (.seq xs) ms := by
  cases h with | andThen hx hxs =>
  exact ⟨_, _, rfl, hx, hxs⟩

theorem seq_token {kind : TokenKind} {xs : List Ebnf} {ks : List TokenKind}
    (h : Derives (.seq (.token kind :: xs)) ks) : ∃ ms, ks = kind :: ms ∧ Derives (.seq xs) ms := by
  obtain ⟨ls, ms, rfl, hkind, hxs⟩ := seq_cons h
  cases hkind with | oneOf hmem =>
  obtain rfl := List.mem_singleton.1 hmem
  exact ⟨ms, rfl, hxs⟩

theorem seq_singleton {x : Ebnf} {ks : List TokenKind} (h : Derives (.seq [x]) ks) :
    Derives x ks := by
  obtain ⟨ls, ms, rfl, hx, hdone⟩ := seq_cons h
  cases hdone
  rwa [List.append_nil]

theorem seq_append_iff {xs ys : List Ebnf} {ks : List TokenKind} : Derives (.seq (xs ++ ys)) ks ↔
    ∃ ls ms, ks = ls ++ ms ∧ Derives (.seq xs) ls ∧ Derives (.seq ys) ms := by
  induction xs generalizing ks with
  | nil =>
    constructor
    · exact fun h => ⟨[], ks, rfl, done, h⟩
    · rintro ⟨_, ms, rfl, ⟨⟩, hms⟩
      exact hms
  | cons x xs ih =>
    constructor
    · intro h
      obtain ⟨js, _, rfl, hjs, hrest⟩ := seq_cons h
      obtain ⟨ls, ms, rfl, hls, hms⟩ := ih.1 hrest
      exact ⟨js ++ ls, ms, (List.append_assoc js ls ms).symm, next hjs hls, hms⟩
    · rintro ⟨_, ms, rfl, hls, hms⟩
      obtain ⟨js, ls, rfl, hjs, hls⟩ := seq_cons hls
      rw [List.append_assoc]
      exact next hjs (ih.2 ⟨ls, ms, rfl, hls, hms⟩)

/-- A repetition goes on at its end. -/
theorem snoc {x : Ebnf} {js ks : List TokenKind} (h : Derives (.repeated x) js) (hx : Derives x ks) :
    Derives (.repeated x) (js ++ ks) := by
  generalize hy : Ebnf.repeated x = y at h
  induction h with
  | stop =>
    cases hy
    simpa using again hx stop
  | again hhead _ _ ih =>
    cases hy
    rw [List.append_assoc]
    exact again hhead (ih rfl)
  | _ => cases hy

end Derives

/-- Whether a form mentions a kind of tokens or one of some parts of the grammar. -/
def Ebnf.Mentions (x : Ebnf) (kind : TokenKind) (parts : List Nonterminal) : Bool :=
  match x with
  | empty => false
  | oneOf kinds => kinds.contains kind
  | part n => parts.contains n
  | andThen x y => x.Mentions kind parts || y.Mentions kind parts
  | either x y => x.Mentions kind parts || y.Mentions kind parts
  | repeated x => x.Mentions kind parts

/-- A kind that no rule mentions stands in no sentence, where the rules of parts that no other rule
mentions do not count. -/
theorem Derives.not_mem {kind : TokenKind} {parts : List Nonterminal}
    (hrule : ∀ n : Nonterminal, n ∉ parts → n.rule.Mentions kind parts = false) {x : Ebnf}
    {ks : List TokenKind} (h : Derives x ks) (hx : x.Mentions kind parts = false) : kind ∉ ks := by
  induction h with
  | empty => simp
  | oneOf hmem =>
    rintro hk
    obtain rfl := List.mem_singleton.1 hk
    simp [Ebnf.Mentions, hmem] at hx
  | part _ ih => exact ih (hrule _ (by simpa [Ebnf.Mentions] using hx))
  | andThen _ _ ihl ihr =>
    simp only [Ebnf.Mentions, Bool.or_eq_false_iff] at hx
    simp [ihl hx.1, ihr hx.2]
  | left _ ih => exact ih (Bool.or_eq_false_iff.1 hx).1
  | right _ ih => exact ih (Bool.or_eq_false_iff.1 hx).2
  | stop => simp
  | again _ _ ihl ihr => simp [ihl hx, ihr hx]

/-- The end of input stands behind whole programs only. -/
theorem Derives.eof_not_mem {x : Ebnf} {ks : List TokenKind} (h : Derives x ks)
    (hx : x.Mentions .eof [.program] = false) : .eof ∉ ks :=
  h.not_mem (by intro n; cases n <;> decide) hx

/-- Characters that begin no token stand in no program. -/
theorem Derives.illegalChar_not_mem {ks : List TokenKind} (h : Derives (.part .program) ks) :
    .illegalChar ∉ ks := by
  have hprogram : (Ebnf.part .program).Mentions .illegalChar [] = false := rfl
  exact h.not_mem (by intro n; cases n <;> decide) hprogram

/-- A form that ends with a token. -/
theorem Derives.seq_concat {xs : List Ebnf} {kind : TokenKind} {ks : List TokenKind}
    (h : Derives (.seq (xs ++ [.token kind])) ks) :
    ∃ js, ks = js ++ [kind] ∧ Derives (.seq xs) js := by
  induction xs generalizing ks with
  | nil =>
    cases seq_singleton h with | oneOf hmem =>
    obtain rfl := List.mem_singleton.1 hmem
    exact ⟨[], rfl, done⟩
  | cons x xs ih =>
    obtain ⟨ls, ms, rfl, hx, hxs⟩ := seq_cons h
    obtain ⟨js, rfl, hjs⟩ := ih hxs
    exact ⟨ls ++ js, (List.append_assoc ls js [kind]).symm, next hx hjs⟩

/-- A program ends with the end of input, which comes up nowhere else. -/
theorem Derives.program_eq {ks : List TokenKind} (h : Derives (.part .program) ks) :
    ∃ js, ks = js ++ [.eof] ∧ .eof ∉ js := by
  cases h with | part hrule =>
  change Derives (.seq ([_, _, _, _, _, _, _] ++ [.token .eof])) ks at hrule
  obtain ⟨js, rfl, hjs⟩ := seq_concat hrule
  exact ⟨js, rfl, hjs.eof_not_mem (by decide)⟩

/-- What some tokens have to be split into for a form to hold of them, where `Q` tells what holds of
the parts of the grammar. -/
def Ebnf.Holds (Q : Nonterminal → List Token → Prop) : Ebnf → List Token → Prop
  | empty, w => w = []
  | oneOf kinds, w => ∃ t : Token, w = [t] ∧ t.kind ∈ kinds
  | part n, w => Q n w
  | andThen x y, w => ∃ u v, w = u ++ v ∧ x.Holds Q u ∧ y.Holds Q v
  | either x y, w => x.Holds Q w ∨ y.Holds Q w
  | repeated x, w => ∃ ws : List (List Token), w = ws.flatten ∧ ∀ v ∈ ws, x.Holds Q v

/-- What the rules keep holds of everything that is derived, in tokens that all have some
property. -/
theorem Derives.holds {P : Token → Prop} {Q : Nonterminal → List Token → Prop}
    (step : ∀ n w, (∀ t ∈ w, P t) → n.rule.Holds Q w → Q n w) {x : Ebnf} {ks : List TokenKind}
    (h : Derives x ks) {w : List Token} (hw : w.map (·.kind) = ks) (hP : ∀ t ∈ w, P t) :
    x.Holds Q w := by
  induction h generalizing w with
  | empty => exact List.map_eq_nil_iff.1 hw
  | @oneOf kinds k hmem =>
    obtain ⟨t, rfl, rfl⟩ := List.map_eq_singleton_iff.1 hw
    exact ⟨t, rfl, hmem⟩
  | part _ ih => exact step _ _ hP (ih hw hP)
  | andThen _ _ ihl ihr =>
    obtain ⟨u, v, rfl, hu, hv⟩ := List.map_eq_append_iff.1 hw
    obtain ⟨hleft, hright⟩ := List.forall_mem_append.1 hP
    exact ⟨u, v, rfl, ihl hu hleft, ihr hv hright⟩
  | left _ ih => exact .inl (ih hw hP)
  | right _ ih => exact .inr (ih hw hP)
  | stop => exact ⟨[], List.map_eq_nil_iff.1 hw, by simp⟩
  | again _ _ ihl ihr =>
    obtain ⟨u, v, rfl, hu, hv⟩ := List.map_eq_append_iff.1 hw
    obtain ⟨hhead, htail⟩ := List.forall_mem_append.1 hP
    obtain ⟨vs, rfl, hvs⟩ := ihr hv htail
    exact ⟨u :: vs, rfl, List.forall_mem_cons.2 ⟨ihl hu hhead, hvs⟩⟩

end TeachLang
