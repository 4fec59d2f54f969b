import Mathlib.Data.List.TakeWhile
import TeachLang.Token.Scanner

/-! # Spelling of tokens

Which texts the tokens of each kind can have, stated without the scanner.  A lexeme
read off the front of a text is one that its kind admits, and an admitted lexeme is
read back whole when a blank, a slash or the end of the text follows it.
-/

namespace TeachLang

/-- A character that begins a name, and characters that go on with one. -/
def IsWord (text : List Char) : Prop :=
  ∃ c cs, text = c :: cs ∧ Unicode.isXidStart c ∧ ∀ d ∈ cs, Unicode.isXidContinue d

/-- What stands between the quotes of a string literal: no newline, and quotes in pairs. -/
inductive StringBody : List Char → Prop
  | nil : StringBody []
  | char {c : Char} {cs : List Char} (quote : c ≠ '"') (newline : c ≠ '\n') (rest : StringBody cs) :
      StringBody (c :: cs)
  | quotes {cs : List Char} (rest : StringBody cs) : StringBody ('"' :: '"' :: cs)

theorem StringBody.newline_not_mem {body : List Char} (h : StringBody body) : '\n' ∉ body := by
  induction h with
  | nil => exact List.not_mem_nil
  | char _ hnewline _ ih => exact mt List.mem_cons.1 (not_or.2 ⟨Ne.symm hnewline, ih⟩)
  | quotes _ ih => simpa using ih

namespace TokenKind

def symbols : List (String × TokenKind) :=
  [(":", colon), (",", comma), (";", semicolon), (":=", colonEqual), ("\x7b", curlyOpen),
   ("\x7d", curlyClose), ("(", parenthesisOpen), (")", parenthesisClose), ("[", bracketOpen),
   ("]", bracketClose), ("=", equal), ("<>", unequal), ("<", lessThan), (">", moreThan),
   ("<=", lessThanEqual), (">=", moreThanEqual), ("+", plus), ("-", minus), ("*", times)]

/-- The text of a kind that is always written in the same way. -/
def spelling? (kind : TokenKind) : Option String :=
  ((keywords ++ symbols).find? (·.2 == kind)).map (·.1)

/-- The texts that the tokens of a kind can have. -/
def Admits (kind : TokenKind) (text : List Char) : Prop :=
  match kind with
  | identifier => IsWord text ∧ ofKeyword? (String.ofList text) = none
  | intLiteral => text ≠ [] ∧ ∀ c ∈ text, c.isDigit
  | stringLiteral => ∃ body, text = '"' :: (body ++ ['"']) ∧ StringBody body
  | illegalChar | eof => False
  | kind => kind.spelling?.map String.toList = some text

theorem spelling?_of_mem_keywords {e : String × TokenKind} (h : e ∈ keywords) :
    e.2.spelling? = some e.1 := by
  revert e
  decide

theorem spelling?_of_ofKeyword? {word : String} {kind : TokenKind}
    (h : ofKeyword? word = some kind) : kind.spelling? = some word := by
  obtain ⟨before, after, hsplit, -⟩ := List.lookup_eq_some_iff.1 h
  have hmem : (word, kind) ∈ keywords := by
    rw [hsplit]
    simp
  exact spelling?_of_mem_keywords hmem

theorem admits_of_spelling? {kind : TokenKind} {text : String} (h : kind.spelling? = some text) :
    kind.Admits text.toList := by
  have hnone : ∀ k ∈ [identifier, intLiteral, stringLiteral, illegalChar, eof],
      k.spelling? = none := by decide
  unfold Admits
  split
  · simp [hnone] at h
  · simp [hnone] at h
  · simp [hnone] at h
  · simp [hnone] at h
  · simp [hnone] at h
  · rw [h, Option.map_some]

end TokenKind

namespace Unicode

def Ranges.points (rs : Ranges) : List Nat := rs.flatMap fun (low, high) => List.range' low (high + 1 - low)

theorem Ranges.mem_points {rs : Ranges} {n : Nat} (h : rs.has n) : n ∈ rs.points := by
  induction rs with
  | nil => simp [Ranges.has] at h
  | cons r rs ih =>
    obtain ⟨low, high⟩ := r
    simp only [Ranges.has, Bool.and_eq_true, decide_eq_true_eq, Bool.or_eq_true] at h
    simp only [Ranges.points, List.flatMap_cons, List.mem_append, List.mem_range'_1]
    obtain ⟨hlow, hhigh | hrest⟩ := h
    · left
      omega
    · exact .inr (ih hrest)

theorem not_isXidContinue_of_isBlank {c : Char} (h : isBlank c) : isXidContinue c = false := by
  have hpoint : ∀ n ∈ whiteSpace.points, xidStart.has n = false ∧ xidContinueOnly.has n = false := by
    decide +kernel
  obtain ⟨hs, hc⟩ := hpoint _ (Ranges.mem_points h)
  simp [isXidContinue, isXidStart, hs, hc]

end Unicode

namespace Lexeme

theorem stringBody_of_closeString? {cs body rest : List Char}
    (h : closeString? cs = some (body, rest)) : ∃ b, body = b ++ ['"'] ∧ StringBody b := by
  fun_induction closeString? cs generalizing body rest with
  | case1 cs ih =>
    obtain ⟨⟨b, r⟩, hb, heq⟩ := Option.map_eq_some_iff.1 h
    obtain ⟨inner, rfl, hinner⟩ := ih hb
    cases heq
    exact ⟨'"' :: '"' :: inner, rfl, .quotes hinner⟩
  | case2 =>
    cases h
    exact ⟨[], rfl, .nil⟩
  | case3 => simp at h
  | case4 c cs hpair hquote hnewline ih =>
    obtain ⟨⟨b, r⟩, hb, heq⟩ := Option.map_eq_some_iff.1 h
    obtain ⟨inner, rfl, hinner⟩ := ih hb
    cases heq
    exact ⟨c :: inner, rfl, .char hquote hnewline hinner⟩
  | case5 => simp at h

theorem closeString?_append_quote {b rest : List Char} (hb : StringBody b)
    (hrest : rest.head? ≠ some '"') :
    closeString? (b ++ '"' :: rest) = some (b ++ ['"'], rest) := by
  induction hb with
  | nil =>
    cases rest with
    | nil => rfl
    | cons c rest =>
      have hc : c ≠ '"' := by simpa using hrest
      simp [closeString?, hc]
  | @char c cs hquote hnewline _ ih =>
    have hstep : closeString? (c :: (cs ++ '"' :: rest)) =
        (closeString? (cs ++ '"' :: rest)).map fun p => (c :: p.1, p.2) := by
      rw [closeString?.eq_def]
      split <;> simp_all
    simp [hstep, ih]
  | quotes _ ih => simp [closeString?, ih]

theorem admits_wordKind {c : Char} {body : List Char} (hc : Unicode.isXidStart c)
    (hbody : ∀ d ∈ body, Unicode.isXidContinue d) : (wordKind (c :: body)).Admits (c :: body) := by
  cases hk : TokenKind.ofKeyword? (String.ofList (c :: body)) with
  | none =>
    rw [wordKind, hk, Option.getD_none]
    exact ⟨⟨c, body, rfl, hc, hbody⟩, hk⟩
  | some kind =>
    have h := TokenKind.admits_of_spelling? (TokenKind.spelling?_of_ofKeyword? hk)
    rw [wordKind, hk, Option.getD_some]
    rwa [String.toList_ofList] at h

theorem admits_symbol (c : Char) (cs : List Char) (h : (symbol c cs).1 ≠ .illegalChar) :
    (symbol c cs).1.Admits (c :: cs.take (symbol c cs).2) := by
  revert h
  unfold symbol
  split
  case h_8 =>
    unfold punctuation?
    split <;> simp [TokenKind.Admits] <;> decide
  all_goals
    intro _
    rfl

/-- The kind of a lexeme admits its text. -/
theorem admits_read (c : Char) (cs : List Char) (h : (read c cs).1 ≠ .illegalChar) :
    (read c cs).1.Admits (c :: (read c cs).2.1) := by
  revert h
  unfold read
  split
  · simp
  split
  · split
    next body rest hclose =>
      rintro -
      obtain ⟨b, rfl, hb⟩ := stringBody_of_closeString? hclose
      subst c
      exact ⟨b, rfl, hb⟩
    next => simp
  split
  · rintro -
    exact admits_wordKind ‹_› fun d hd => List.mem_takeWhile_imp hd
  split
  · rintro -
    refine ⟨by simp, fun d hd => ?_⟩
    rcases List.mem_cons.1 hd with rfl | hd
    · assumption
    · exact List.mem_takeWhile_imp hd
  · exact admits_symbol c cs

/-- A text that a lexeme can stand in front of: it is empty, or begins with a blank or a slash. -/
def Stops (rest : List Char) : Prop := ∀ c ∈ rest.head?, Unicode.isBlank c ∨ c = '/'

theorem stops_nil : Stops [] := by simp [Stops]

theorem stops_cons {c : Char} {rest : List Char} (h : Unicode.isBlank c ∨ c = '/') :
    Stops (c :: rest) := by simpa [Stops] using h

theorem Stops.head?_ne {rest : List Char} (h : Stops rest) {c : Char}
    (hblank : Unicode.isBlank c = false) (hslash : c ≠ '/') : rest.head? ≠ some c := by
  intro hc
  rcases h c hc with hb | hs
  · simp [hb] at hblank
  · exact hslash hs

theorem Stops.takeWhile_append {p : Char → Bool} (hslash : p '/' = false)
    (hblank : ∀ c, Unicode.isBlank c → p c = false) {body rest : List Char}
    (hbody : ∀ d ∈ body, p d) (hrest : Stops rest) :
    (body ++ rest).takeWhile p = body ∧ (body ++ rest).dropWhile p = rest := by
  have hstop : rest.takeWhile p = [] ∧ rest.dropWhile p = rest := by
    cases rest with
    | nil => exact ⟨rfl, rfl⟩
    | cons c rest =>
      have hc : p c = false := by
        rcases hrest c rfl with hb | rfl
        · exact hblank c hb
        · exact hslash
      simp [hc]
  rw [List.takeWhile_append_of_pos hbody, List.dropWhile_append_of_pos hbody, hstop.1, hstop.2]
  exact ⟨List.append_nil body, rfl⟩

theorem read_word {c : Char} {body rest : List Char} (hc : Unicode.isXidStart c)
    (hbody : ∀ d ∈ body, Unicode.isXidContinue d) (hrest : Stops rest) :
    read c (body ++ rest) = (wordKind (c :: body), body, rest) := by
  have hslash : c ≠ '/' := by
    rintro rfl
    revert hc
    decide +kernel
  have hquote : c ≠ '"' := by
    rintro rfl
    revert hc
    decide +kernel
  obtain ⟨htake, hdrop⟩ := Stops.takeWhile_append (p := Unicode.isXidContinue) (by decide +kernel)
    (fun d hd => Unicode.not_isXidContinue_of_isBlank hd) hbody hrest
  simp only [read, if_neg hslash, if_neg hquote, if_pos hc, htake, hdrop]

theorem toNat_of_isDigit {c : Char} (h : c.isDigit) : c.toNat ∈ List.range' 48 10 := by
  obtain ⟨hlow, hhigh⟩ := Char.isDigit_iff_toNat.1 h
  exact List.mem_range'_1.2 ⟨hlow, Nat.lt_succ_of_le hhigh⟩

theorem not_isDigit_of_isBlank {c : Char} (h : Unicode.isBlank c) : c.isDigit = false := by
  have hpoint : ∀ n ∈ Unicode.whiteSpace.points, n ∉ List.range' 48 10 := by decide +kernel
  have hc := hpoint _ (Unicode.Ranges.mem_points h)
  exact Bool.eq_false_iff.2 fun hdigit => hc (toNat_of_isDigit hdigit)

theorem not_isXidStart_of_isDigit {c : Char} (h : c.isDigit) : Unicode.isXidStart c = false := by
  have hpoint : ∀ n ∈ List.range' 48 10, Unicode.xidStart.has n = false := by decide +kernel
  exact hpoint _ (toNat_of_isDigit h)

theorem read_digits {c : Char} {body rest : List Char} (hc : c.isDigit)
    (hbody : ∀ d ∈ body, d.isDigit) (hrest : Stops rest) :
    read c (body ++ rest) = (.intLiteral, body, rest) := by
  have hslash : c ≠ '/' := by
    rintro rfl
    exact absurd hc (by decide)
  have hquote : c ≠ '"' := by
    rintro rfl
    exact absurd hc (by decide)
  obtain ⟨htake, hdrop⟩ := Stops.takeWhile_append (p := Char.isDigit) (by decide)
    (fun d hd => not_isDigit_of_isBlank hd) hbody hrest
  simp [read, hslash, hquote, not_isXidStart_of_isDigit hc, hc, htake, hdrop]

/-- The words among the fixed spellings are names as the scanner reads them. -/
theorem isWord_of_mem_keywords {e : String × TokenKind} (h : e ∈ TokenKind.keywords) :
    IsWord e.1.toList ∧ TokenKind.ofKeyword? e.1 = some e.2 := by
  have hall : ∀ e ∈ TokenKind.keywords, e.1.toList.head?.any Unicode.isXidStart ∧
      e.1.toList.tail.all Unicode.isXidContinue ∧ TokenKind.ofKeyword? e.1 = some e.2 := by
    decide +kernel
  obtain ⟨hhead, htail, hkind⟩ := hall e h
  refine ⟨?_, hkind⟩
  cases hcs : e.1.toList with
  | nil => simp [hcs] at hhead
  | cons c cs =>
    rw [hcs] at hhead htail
    exact ⟨c, cs, rfl, by simpa using hhead, by simpa using htail⟩

/-- What has to hold of the text behind a symbol for the symbol to end there. -/
theorem read_symbol {e : String × TokenKind} (he : e ∈ TokenKind.symbols) {c : Char}
    {body rest : List Char} (hcs : e.1.toList = c :: body) (hrest : Stops rest) :
    read c (body ++ rest) = (e.2, body, rest) := by
  have hstart : ∀ e ∈ TokenKind.symbols, e.1.toList.head?.all fun c =>
      c ≠ '/' && (c ≠ '"' && (!Unicode.isXidStart c && !c.isDigit)) := by decide +kernel
  obtain ⟨hslash, hquote, hword, hdigit⟩ : c ≠ '/' ∧ c ≠ '"' ∧ Unicode.isXidStart c = false ∧
      c.isDigit = false := by simpa [hcs] using hstart e he
  have hread : read c (body ++ rest) =
      ((symbol c (body ++ rest)).1, (body ++ rest).take (symbol c (body ++ rest)).2,
        (body ++ rest).drop (symbol c (body ++ rest)).2) := by
    simp [read, hslash, hquote, hword, hdigit]
  suffices hsymbol : symbol c (body ++ rest) = (e.2, body.length) by
    rw [hread, hsymbol]
    simp
  simp only [TokenKind.symbols, List.mem_cons, List.not_mem_nil, or_false] at he
  rcases he with rfl | rfl | rfl | rfl | rfl | rfl | rfl | rfl | rfl | rfl | rfl | rfl | rfl |
    rfl | rfl | rfl | rfl | rfl | rfl <;>
    obtain ⟨rfl, rfl⟩ := by simpa using hcs
  all_goals first | rfl | skip
  -- What is left are the symbols that begin a longer one.
  all_goals
    cases rest with
    | nil => rfl
    | cons d rest =>
      have hequal : d ≠ '=' := by
        simpa using hrest.head?_ne (c := '=') (by decide) (by decide)
      have hmore : d ≠ '>' := by
        simpa using hrest.head?_ne (c := '>') (by decide) (by decide)
      simp [symbol, hequal, hmore]

/-- A text that a kind admits is read back whole where the text behind it stops it. -/
theorem read_of_admits {kind : TokenKind} {c : Char} {body rest : List Char}
    (h : kind.Admits (c :: body)) (hrest : Stops rest) :
    read c (body ++ rest) = (kind, body, rest) := by
  unfold TokenKind.Admits at h
  split at h
  · obtain ⟨⟨c, cs, heq, hc, hcs⟩, hkind⟩ := h
    cases heq
    rw [read_word hc hcs hrest, wordKind, hkind, Option.getD_none]
  · exact read_digits (h.2 c (by simp)) (fun d hd => h.2 d (by simp [hd])) hrest
  · obtain ⟨b, heq, hb⟩ := h
    cases heq
    have hclose := closeString?_append_quote hb (hrest.head?_ne (by decide) (by decide))
    simp [read, hclose]
  · exact h.elim
  · exact h.elim
  · obtain ⟨text, htext, hcs⟩ := Option.map_eq_some_iff.1 h
    obtain ⟨e, he, rfl⟩ := Option.map_eq_some_iff.1 htext
    have hkind : e.2 = kind := by simpa using List.find?_some he
    rcases List.mem_append.1 (List.mem_of_find?_eq_some he) with hmem | hmem
    · obtain ⟨⟨c, cs, heq, hc, hbody⟩, hword⟩ := isWord_of_mem_keywords hmem
      rw [hcs] at heq
      cases heq
      rw [read_word hc hbody hrest, wordKind, ← hcs, String.ofList_toList, hword, ← hkind,
        Option.getD_some]
    · rw [read_symbol hmem hcs hrest, hkind]

end Lexeme
end TeachLang
