import TeachLang.Proofs.Token.Spaced
import TeachLang.Proofs.Token.Tiling

/-! # Maximal munch

Every token is as long as it can be.  What a lexeme is, and what may not stand behind it, is
said for each kind of token, and an illegal character is one that begins nothing at all.
-/

namespace TeachLang

/-- Nothing that a kind of token admits begins a text, strings that go on behind their quote
apart. -/
def BeginsNoLexeme (cs : List Char) : Prop :=
  ∀ ⦃kind : TokenKind⦄ ⦃text after : List Char⦄, cs = text ++ after → kind.Admits text →
    kind = .stringLiteral ∧ after.head? = some '"'

/-- The lexemes of each kind of token in front of what may follow them.  The words of the table are
the reserved ones and no others.  A slash among the illegal characters opens no comment, and a quote
no string. -/
inductive Munched : TokenKind → List Char → List Char → Prop
  | name {text rest : List Char} (word : IsWord text)
      (unreserved : String.ofList text ∉ TokenKind.keywords.map (·.1))
      (ends : ∀ c ∈ rest.head?, Unicode.isXidContinue c = false) : Munched .identifier text rest
  | reserved {kind : TokenKind} {text rest : List Char} (word : IsWord text)
      (mem : (String.ofList text, kind) ∈ TokenKind.keywords)
      (ends : ∀ c ∈ rest.head?, Unicode.isXidContinue c = false) : Munched kind text rest
  | digits {text rest : List Char} (ne_nil : text ≠ []) (digits : ∀ c ∈ text, c.isDigit)
      (ends : ∀ c ∈ rest.head?, c.isDigit = false) : Munched .intLiteral text rest
  | string {body rest : List Char} (body_ok : StringBody body) (ends : rest.head? ≠ some '"') :
      Munched .stringLiteral ('"' :: (body ++ ['"'])) rest
  | symbol {kind : TokenKind} {text rest : List Char}
      (mem : (String.ofList text, kind) ∈ TokenKind.symbols)
      (colon : kind = .colon → rest.head? ≠ some '=')
      (lessThan : kind = .lessThan → rest.head? ≠ some '=' ∧ rest.head? ≠ some '>')
      (moreThan : kind = .moreThan → rest.head? ≠ some '=') : Munched kind text rest
  | illegal {c : Char} {rest : List Char} (blank : Unicode.isBlank c = false)
      (nothing : BeginsNoLexeme (c :: rest))
      (slash : c = '/' →
        rest.head? ≠ some '/' ∧ ∀ more, rest = '*' :: more → ¬ ['*', '/'] <:+: more)
      (quote : c = '"' → ∀ body after, StringBody body → rest = body ++ '"' :: after →
        after.head? = some '"') : Munched .illegalChar [c] rest
  | eof : Munched .eof [] []

namespace Trivia

theorem not_isBlank_of_piece? {c : Char} {cs : List Char} (h : piece? (c :: cs) = none) :
    Unicode.isBlank c = false := by
  unfold piece? at h
  split at h
  next => cases h
  next heq =>
    cases heq
    decide
  next heq =>
    cases heq
    simpa using h
  next heq => cases heq

/-- A slash in front of which no trivia begins opens no comment. -/
theorem slash_of_piece? {cs : List Char} (h : piece? ('/' :: cs) = none) :
    cs.head? ≠ some '/' ∧ ∀ more, cs = '*' :: more → ¬ ['*', '/'] <:+: more := by
  constructor
  · intro hhead
    obtain ⟨more, rfl⟩ := List.head?_eq_some_iff.1 hhead
    simp [piece?] at h
  · rintro more rfl
    refine not_closing_of_closeComment? ?_
    simpa [piece?] using h

end Trivia

theorem TokenKind.mem_keywords_of_ofKeyword? {word : String} {kind : TokenKind}
    (h : ofKeyword? word = some kind) : (word, kind) ∈ keywords := by
  obtain ⟨before, after, hsplit, -⟩ := List.lookup_eq_some_iff.1 h
  rw [hsplit]
  simp

theorem TokenKind.not_mem_keywords_of_ofKeyword? {word : String} (h : ofKeyword? word = none) :
    word ∉ keywords.map (·.1) := by
  intro hmem
  obtain ⟨e, he, rfl⟩ := List.mem_map.1 hmem
  have hne := List.lookup_eq_none_iff.1 h e he
  simp at hne

/-- The characters that lexemes begin with. -/
theorem TokenKind.Admits.head {kind : TokenKind} {c : Char} {body : List Char}
    (h : kind.Admits (c :: body)) : Unicode.isXidStart c ∨ c.isDigit ∨
      (kind = .stringLiteral ∧ c = '"') ∨ ∃ e ∈ symbols, e.1.toList.head? = some c := by
  unfold Admits at h
  split at h
  · obtain ⟨⟨_, _, heq, hc, -⟩, -⟩ := h
    cases heq
    exact .inl hc
  · exact .inr (.inl (h.2 c List.mem_cons_self))
  · obtain ⟨_, heq, -⟩ := h
    cases heq
    exact .inr (.inr (.inl ⟨rfl, rfl⟩))
  · exact h.elim
  · exact h.elim
  · obtain ⟨spelling, hspelling, hcs⟩ := Option.map_eq_some_iff.1 h
    obtain ⟨e, he, rfl⟩ := Option.map_eq_some_iff.1 hspelling
    rcases List.mem_append.1 (List.mem_of_find?_eq_some he) with hmem | hmem
    · obtain ⟨⟨_, _, heq, hc, -⟩, -⟩ := Lexeme.isWord_of_mem_keywords hmem
      rw [hcs] at heq
      cases heq
      exact .inl hc
    · exact .inr (.inr (.inr ⟨e, hmem, by rw [hcs, List.head?_cons]⟩))

namespace Lexeme

/-- What may have been read: a slash, a string or an open quote, a word, digits or a symbol. -/
inductive Taken (c : Char) (cs : List Char) : TokenKind → List Char → List Char → Prop
  | slash (hc : c = '/') : Taken c cs .illegalChar [] cs
  | string {body rest : List Char} (hc : c = '"') (close : closeString? cs = some (body, rest)) :
      Taken c cs .stringLiteral body rest
  | quote (hc : c = '"') (close : closeString? cs = none) : Taken c cs .illegalChar [] cs
  | word (hc : Unicode.isXidStart c) :
      Taken c cs (wordKind (c :: cs.takeWhile Unicode.isXidContinue))
        (cs.takeWhile Unicode.isXidContinue) (cs.dropWhile Unicode.isXidContinue)
  | digits (hc : c.isDigit) :
      Taken c cs .intLiteral (cs.takeWhile Char.isDigit) (cs.dropWhile Char.isDigit)
  | symbol (slash : c ≠ '/') (quote : c ≠ '"') (word : Unicode.isXidStart c = false)
      (digit : c.isDigit = false) :
      Taken c cs (symbol c cs).1 (cs.take (symbol c cs).2) (cs.drop (symbol c cs).2)

theorem taken_of_read {c : Char} {cs body rest : List Char} {kind : TokenKind}
    (h : read c cs = (kind, body, rest)) : Taken c cs kind body rest := by
  unfold read at h
  split at h
  next hslash =>
    cases h
    exact .slash hslash
  next hslash =>
    split at h
    next hquote =>
      split at h
      next hclose =>
        cases h
        exact .string hquote hclose
      next hclose =>
        cases h
        exact .quote hquote hclose
    next hquote =>
      split at h
      next hword =>
        cases h
        exact .word hword
      next hword =>
        split at h
        next hdigit =>
          cases h
          exact .digits hdigit
        next hdigit =>
          cases h
          exact .symbol hslash hquote (by simpa using hword) (by simpa using hdigit)

theorem head?_dropWhile_eq_false (p : Char → Bool) (cs : List Char) :
    ∀ c ∈ (cs.dropWhile p).head?, p c = false := by
  intro c hc
  have hhead := List.head?_dropWhile_not p cs
  rwa [Option.mem_def.1 hc] at hhead

theorem munched_word {c : Char} (hc : Unicode.isXidStart c) (cs : List Char) :
    Munched (wordKind (c :: cs.takeWhile Unicode.isXidContinue))
      (c :: cs.takeWhile Unicode.isXidContinue) (cs.dropWhile Unicode.isXidContinue) := by
  have hends := head?_dropWhile_eq_false Unicode.isXidContinue cs
  have hword : IsWord (c :: cs.takeWhile Unicode.isXidContinue) :=
    ⟨c, _, rfl, hc, fun d hd => List.mem_takeWhile_imp hd⟩
  rw [wordKind]
  cases hkind : TokenKind.ofKeyword? (String.ofList (c :: cs.takeWhile Unicode.isXidContinue)) with
  | none => exact .name hword (TokenKind.not_mem_keywords_of_ofKeyword? hkind) hends
  | some kind => exact .reserved hword (TokenKind.mem_keywords_of_ofKeyword? hkind) hends

theorem munched_digits {c : Char} (hc : c.isDigit) (cs : List Char) :
    Munched .intLiteral (c :: cs.takeWhile Char.isDigit) (cs.dropWhile Char.isDigit) := by
  refine .digits (List.cons_ne_nil _ _) ?_ (head?_dropWhile_eq_false Char.isDigit cs)
  exact List.forall_mem_cons.2 ⟨hc, fun d hd => List.mem_takeWhile_imp hd⟩

/-- Behind the quote that closes a string there is no other quote. -/
theorem head?_ne_of_closeString? {cs body rest : List Char}
    (h : closeString? cs = some (body, rest)) : rest.head? ≠ some '"' := by
  fun_induction closeString? cs generalizing body rest with
  | case1 cs ih =>
    obtain ⟨⟨b, r⟩, hb, heq⟩ := Option.map_eq_some_iff.1 h
    cases heq
    exact ih hb
  | case2 cs hpair =>
    cases h
    intro hhead
    obtain ⟨more, rfl⟩ := List.head?_eq_some_iff.1 hhead
    exact hpair _ rfl
  | case3 => simp at h
  | case4 c cs _ _ _ ih =>
    obtain ⟨⟨b, r⟩, hb, heq⟩ := Option.map_eq_some_iff.1 h
    cases heq
    exact ih hb
  | case5 => simp at h

/-- Where no string closes, every quote that could close one is followed by another. -/
theorem head?_eq_of_closeString? {cs : List Char} (h : closeString? cs = none)
    {body after : List Char} (hbody : StringBody body) (hcs : cs = body ++ '"' :: after) :
    after.head? = some '"' := by
  by_contra hhead
  rw [hcs, closeString?_append_quote hbody hhead] at h
  cases h

theorem munched_string {cs body rest : List Char} (h : closeString? cs = some (body, rest)) :
    Munched .stringLiteral ('"' :: body) rest := by
  obtain ⟨inner, rfl, hinner⟩ := stringBody_of_closeString? h
  exact .string hinner (head?_ne_of_closeString? h)

theorem symbol_mem (c : Char) (cs : List Char) (h : (symbol c cs).1 ≠ .illegalChar) :
    (String.ofList (c :: cs.take (symbol c cs).2), (symbol c cs).1) ∈ TokenKind.symbols := by
  revert h
  unfold symbol
  split
  case h_8 =>
    unfold punctuation?
    split <;> simp <;> decide
  all_goals
    intro _
    simp
    decide

theorem head?_ne {c : Char} {cs : List Char} (h : ∀ rest, cs = c :: rest → False) :
    cs.head? ≠ some c := by
  intro hhead
  obtain ⟨rest, hrest⟩ := List.head?_eq_some_iff.1 hhead
  exact h rest hrest

/-- The symbols that begin a longer one do not stand in front of the rest of it. -/
theorem symbol_ends (c : Char) (cs : List Char) :
    ((symbol c cs).1 = .colon → (cs.drop (symbol c cs).2).head? ≠ some '=') ∧
    ((symbol c cs).1 = .lessThan → (cs.drop (symbol c cs).2).head? ≠ some '=' ∧
      (cs.drop (symbol c cs).2).head? ≠ some '>') ∧
    ((symbol c cs).1 = .moreThan → (cs.drop (symbol c cs).2).head? ≠ some '=') := by
  unfold symbol
  split
  case h_2 hequal => exact ⟨fun _ => head?_ne hequal, nofun, nofun⟩
  case h_5 hequal hmore => exact ⟨nofun, fun _ => ⟨head?_ne hequal, head?_ne hmore⟩, nofun⟩
  case h_7 hequal => exact ⟨nofun, nofun, fun _ => head?_ne hequal⟩
  case h_8 =>
    unfold punctuation?
    split <;> exact ⟨nofun, nofun, nofun⟩
  all_goals exact ⟨nofun, nofun, nofun⟩

/-- What begins a symbol is no illegal character. -/
theorem symbol_legal {e : String × TokenKind} (he : e ∈ TokenKind.symbols) {c : Char}
    (hc : e.1.toList.head? = some c) (cs : List Char) : (symbol c cs).1 ≠ .illegalChar := by
  have hstart : ∀ e ∈ TokenKind.symbols, e.1.toList.head?.all fun c =>
      c ∈ [':', '<', '>'] || (punctuation? c).any (· ≠ .illegalChar) := by decide
  have hlegal : c ∈ [':', '<', '>'] ∨ (punctuation? c).any (· ≠ .illegalChar) := by
    simpa [hc] using hstart e he
  unfold symbol
  split
  case h_8 hcolon hless hmore _ _ _ _ =>
    rcases hlegal with hmem | hkind
    · simp only [List.mem_cons, List.not_mem_nil, or_false] at hmem
      rcases hmem with rfl | rfl | rfl
      · exact (hcolon rfl).elim
      · exact (hless rfl).elim
      · exact (hmore rfl).elim
    · cases hp : punctuation? c with
      | none => simp [hp] at hkind
      | some kind => simpa [hp] using hkind
  all_goals nofun

theorem length_symbol_of_illegal {c : Char} {cs : List Char} (h : (symbol c cs).1 = .illegalChar) :
    (symbol c cs).2 = 0 := by
  revert h
  unfold symbol
  split <;> first | exact fun _ => rfl | nofun

/-- A character that begins neither a word nor digits nor a symbol nor a string begins nothing. -/
theorem beginsNoLexeme {c : Char} {cs : List Char} (hword : Unicode.isXidStart c = false)
    (hdigit : c.isDigit = false) (hsymbol : ∀ e ∈ TokenKind.symbols, e.1.toList.head? ≠ some c)
    (hquote : c = '"' → closeString? cs = none) : BeginsNoLexeme (c :: cs) := by
  intro kind text after hcs hadmits
  obtain ⟨d, body, rfl, -, -⟩ := hadmits.exists_cons
  cases hcs
  rcases hadmits.head with h | h | ⟨rfl, rfl⟩ | ⟨e, he, hhead⟩
  · simp [hword] at h
  · simp [hdigit] at h
  · obtain ⟨inner, heq, hinner⟩ := hadmits
    cases heq
    exact ⟨rfl, head?_eq_of_closeString? (hquote rfl) hinner (by simp)⟩
  · exact absurd hhead (hsymbol e he)

theorem munched_symbol {c : Char} {cs : List Char} (htrivia : Trivia.piece? (c :: cs) = none)
    (hslash : c ≠ '/') (hquote : c ≠ '"') (hword : Unicode.isXidStart c = false)
    (hdigit : c.isDigit = false) :
    Munched (symbol c cs).1 (c :: cs.take (symbol c cs).2) (cs.drop (symbol c cs).2) := by
  by_cases hillegal : (symbol c cs).1 = .illegalChar
  · rw [length_symbol_of_illegal hillegal, hillegal]
    refine .illegal (Trivia.not_isBlank_of_piece? htrivia) ?_ (fun h => absurd h hslash)
      (fun h => absurd h hquote)
    exact beginsNoLexeme hword hdigit (fun e he hhead => symbol_legal he hhead cs hillegal)
      (fun h => absurd h hquote)
  · obtain ⟨hcolon, hless, hmore⟩ := symbol_ends c cs
    exact .symbol (symbol_mem c cs hillegal) hcolon hless hmore

theorem munched_slash {cs : List Char} (htrivia : Trivia.piece? ('/' :: cs) = none) :
    Munched .illegalChar ['/'] cs := by
  have hsymbol : ∀ e ∈ TokenKind.symbols, e.1.toList.head? ≠ some '/' := by decide
  refine .illegal (by decide) ?_ (fun _ => Trivia.slash_of_piece? htrivia) (by simp)
  exact beginsNoLexeme (by decide +kernel) (by decide) hsymbol (by simp)

theorem munched_quote {cs : List Char} (hclose : closeString? cs = none) :
    Munched .illegalChar ['"'] cs := by
  have hsymbol : ∀ e ∈ TokenKind.symbols, e.1.toList.head? ≠ some '"' := by decide
  refine .illegal (by decide) ?_ (by simp) fun _ _ _ => head?_eq_of_closeString? hclose
  exact beginsNoLexeme (by decide +kernel) (by decide) hsymbol fun _ => hclose

theorem munched_of_read {c : Char} {body rest : List Char} {kind : TokenKind}
    (htrivia : Trivia.piece? (c :: (body ++ rest)) = none)
    (hread : read c (body ++ rest) = (kind, body, rest)) : Munched kind (c :: body) rest := by
  have htaken := taken_of_read hread
  generalize body ++ rest = cs at htrivia htaken
  cases htaken with
  | slash hc =>
    subst hc
    exact munched_slash htrivia
  | string hc hclose =>
    subst hc
    exact munched_string hclose
  | quote hc hclose =>
    subst hc
    exact munched_quote hclose
  | word hc => exact munched_word hc cs
  | digits hc => exact munched_digits hc cs
  | symbol hslash hquote hword hdigit => exact munched_symbol htrivia hslash hquote hword hdigit

end Lexeme

/-- A lexeme stays on its line. -/
theorem Munched.newline_not_mem {kind : TokenKind} {text rest : List Char}
    (h : Munched kind text rest) : '\n' ∉ text := by
  have hblank : Unicode.isBlank '\n' := by decide +kernel
  have hword {text : List Char} (h : IsWord text) : '\n' ∉ text := by
    have hcontinue := Unicode.not_isXidContinue_of_isBlank hblank
    obtain ⟨c, cs, rfl, hc, hcs⟩ := h
    rintro hmem
    rcases List.mem_cons.1 hmem with rfl | hmem
    · simp [Unicode.isXidContinue, hc] at hcontinue
    · simp [hcs _ hmem] at hcontinue
  cases h with
  | name hname _ _ => exact hword hname
  | reserved hname _ _ => exact hword hname
  | digits _ hdigits _ => exact fun hmem => absurd (hdigits _ hmem) (by decide)
  | string hbody _ => simpa using hbody.newline_not_mem
  | symbol hmem _ _ _ =>
    have hsymbols : ∀ e ∈ TokenKind.symbols, '\n' ∉ e.1.toList := by decide
    simpa using hsymbols _ hmem
  | illegal hc _ _ _ =>
    rintro hmem
    obtain rfl := List.mem_singleton.1 hmem
    rw [hblank] at hc
    cases hc
  | eof => exact List.not_mem_nil

theorem Token.Scanned.newline_not_mem {t : Token} {text after : List Char}
    (h : t.Scanned text after) : '\n' ∉ text := by
  cases h with
  | eof _ => exact List.not_mem_nil
  | lexeme htrivia hread => exact (Lexeme.munched_of_read htrivia hread).newline_not_mem

/-- Every token of a source is as long as it can be in front of what follows it. -/
theorem munched_of_mem_lex {source : String} {t : Token} (h : t ∈ lex source) :
    t.text = t.span.text ∧
      Munched t.kind t.span.chars (dropBytes t.span.stop source.toList) := by
  obtain ⟨before, text, after, hstands, hscanned⟩ := exists_stands_of_mem_lex h
  rw [hstands.text_eq, Span.text, hstands.chars_span, hstands.dropBytes_stop]
  refine ⟨rfl, ?_⟩
  cases hscanned with
  | eof hkind =>
    rw [hkind]
    exact .eof
  | lexeme htrivia hread => exact Lexeme.munched_of_read htrivia hread

/-- A slash in front of a comment that is opened and never closed. -/
theorem munched_open_comment :
    let source := "/*/ \"\"\"\nx"
    let t : Token := ⟨.illegalChar, "/", ⟨source, 0, 1⟩, 1, 1⟩
    t ∈ lex source ∧ t.text = t.span.text ∧
      Munched t.kind t.span.chars (dropBytes t.span.stop source.toList) := by
  intro source t
  have ht : t ∈ lex source := by decide +kernel
  exact ⟨ht, munched_of_mem_lex ht⟩

end TeachLang
