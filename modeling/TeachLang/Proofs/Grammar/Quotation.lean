import TeachLang.Proofs.Check.Denoted
import TeachLang.Proofs.Grammar.Completeness.Expr
import TeachLang.Proofs.Token.Spaced

/-! # Quotations

A text on one line is quoted by doubling its quotes and putting a quote at both ends.  The
scanner takes a quotation as one string literal, the parser gives the text back, and every
string literal of a source is the quotation of the text that the parser reads off it.
-/

namespace TeachLang

theorem doubleQuotes_quote (cs : List Char) :
    doubleQuotes ('"' :: cs) = '"' :: '"' :: doubleQuotes cs := rfl

theorem doubleQuotes_char {c : Char} (h : c ≠ '"') (cs : List Char) :
    doubleQuotes (c :: cs) = c :: doubleQuotes cs := by
  simp [doubleQuotes, h]

theorem mem_doubleQuotes {c : Char} {cs : List Char} : c ∈ doubleQuotes cs ↔ c ∈ cs := by
  induction cs with
  | nil => rfl
  | cons d cs ih =>
    by_cases hd : d = '"'
    · rw [hd, doubleQuotes_quote]
      simp [ih]
    · rw [doubleQuotes_char hd, List.mem_cons, List.mem_cons, ih]

/-- With its quotes doubled, a text on one line can stand between the quotes of a literal, also if
it begins or ends with a quote. -/
theorem stringBody_doubleQuotes {cs : List Char} (h : '\n' ∉ cs) :
    StringBody (doubleQuotes cs) := by
  induction cs with
  | nil => exact .nil
  | cons c cs ih =>
    rw [List.mem_cons, not_or] at h
    obtain ⟨hnewline, hcs⟩ := h
    by_cases hc : c = '"'
    · rw [hc, doubleQuotes_quote]
      exact .quotes (ih hcs)
    · rw [doubleQuotes_char hc]
      exact .char hc (Ne.symm hnewline) (ih hcs)

theorem collapseQuotes_char {c : Char} (h : c ≠ '"') (cs : List Char) :
    collapseQuotes (c :: cs) = c :: collapseQuotes cs := by
  rw [collapseQuotes]
  rintro _ rfl -
  exact h rfl

/-- To pair the quotes from the left undoes their doubling. -/
theorem collapseQuotes_doubleQuotes (cs : List Char) : collapseQuotes (doubleQuotes cs) = cs := by
  induction cs with
  | nil => rfl
  | cons c cs ih =>
    by_cases hc : c = '"'
    · rw [hc, doubleQuotes_quote, collapseQuotes, ih]
    · rw [doubleQuotes_char hc, collapseQuotes_char hc, ih]

/-- A text between double quotes, with its own quotes doubled. -/
def quotation (text : String) : String :=
  String.ofList ('"' :: (doubleQuotes text.toList ++ ['"']))

@[simp]
theorem toList_quotation (text : String) :
    (quotation text).toList = '"' :: (doubleQuotes text.toList ++ ['"']) := String.toList_ofList

theorem newline_mem_quotation {text : String} :
    '\n' ∈ (quotation text).toList ↔ '\n' ∈ text.toList := by
  simp [mem_doubleQuotes]

theorem unquote_quotation (text : String) : unquote (quotation text) = text := by
  simp [unquote, collapseQuotes_doubleQuotes]

theorem admits_quotation {text : String} (h : '\n' ∉ text.toList) :
    TokenKind.stringLiteral.Admits (quotation text).toList :=
  ⟨doubleQuotes text.toList, toList_quotation text, stringBody_doubleQuotes h⟩

/-- String literals are quotations of texts on one line. -/
theorem exists_quotation_eq {lexeme : String} (h : TokenKind.stringLiteral.Admits lexeme.toList) :
    ∃ text, '\n' ∉ text.toList ∧ quotation text = lexeme := by
  obtain ⟨body, hlexeme, hbody⟩ := h
  have hdoubled := doubleQuotes_collapseQuotes hbody
  refine ⟨String.ofList (collapseQuotes body), ?_, ?_⟩
  · rw [String.toList_ofList, ← mem_doubleQuotes, hdoubled]
    exact hbody.newline_not_mem
  · rw [quotation, String.toList_ofList, hdoubled, ← hlexeme, String.ofList_toList]

namespace Position

/-- Without a newline in front, the column counts the characters. -/
theorem advanceAll_start_of_newline_not_mem {cs : List Char} (h : '\n' ∉ cs) :
    start.advanceAll cs = ⟨byteCount cs, 1, 1 + cs.length⟩ := by
  have hall : cs.rtakeWhile (· != '\n') = cs := by
    rw [List.rtakeWhile_eq_self_iff]
    intro c hc
    rw [bne_iff_ne]
    rintro rfl
    exact h hc
  have hoffset : (start.advanceAll cs).offset = byteCount cs := by
    rw [offset_advanceAll]
    exact Nat.zero_add _
  have hline : (start.advanceAll cs).line = 1 := by
    rw [line_advanceAll, List.count_eq_zero_of_not_mem h]
    rfl
  have hcolumn : (start.advanceAll cs).column = 1 + cs.length := by
    rw [column_advanceAll_start, hall]
  rcases hposition : start.advanceAll cs with ⟨offset, line, column⟩
  rw [hposition] at hoffset hline hcolumn
  exact Position.mk.injEq .. ▸ ⟨hoffset, hline, hcolumn⟩

end Position

def quotationToken (text : String) : Token :=
  ⟨.stringLiteral, quotation text, ⟨quotation text, 0, (quotation text).utf8ByteSize⟩, 1, 1⟩

def quotationEnd (text : String) : Token :=
  ⟨.eof, "", .endOf (quotation text), 1, 1 + (quotation text).length⟩

def Scanner.behindQuotation (text : String) : Scanner :=
  ⟨quotation text,
    ⟨(quotation text).utf8ByteSize, 1, 1 + (quotation text).length⟩, [], false⟩

theorem Scanner.unread_ofSource (source : String) : (ofSource source).unread = source.toList := rfl

theorem Scanner.step_quotation {text : String} (h : '\n' ∉ text.toList) :
    (ofSource (quotation text)).step = (quotationToken text, behindQuotation text) := by
  have hpiece : Trivia.piece? (quotation text).toList = none := by
    rw [toList_quotation]
    exact Trivia.piece?_eq_none (by decide +kernel) (by decide)
  have hsplit : Trivia.split (ofSource (quotation text)).unread =
      ([], (quotation text).toList ++ []) := by
    rw [unread_ofSource, List.append_nil, ← Trivia.split_of_gap .nil hpiece, List.nil_append]
  have hposition := Position.advanceAll_start_of_newline_not_mem (mt newline_mem_quotation.1 h)
  rw [byteCount_toList, String.length_toList] at hposition
  rw [step_eq_of_admits hsplit (admits_quotation h) Lexeme.stops_nil]
  simp only [ofSource, Position.advanceAll_nil, Token.covering, String.ofList_toList, hposition]
  rfl

theorem Scanner.step_behindQuotation (text : String) :
    (behindQuotation text).step.1 = quotationEnd text ∧
      (behindQuotation text).step.2.finished := by
  have hsplit : Trivia.split [] = ([], []) := by rw [Trivia.split]; rfl
  simp only [step, behindQuotation, hsplit]
  exact ⟨rfl, trivial⟩

theorem lex_quotation {text : String} (h : '\n' ∉ text.toList) :
    lex (quotation text) = [quotationToken text, quotationEnd text] := by
  obtain ⟨hend, hfinished⟩ := Scanner.step_behindQuotation text
  rw [lex_eq_cons, Scanner.step_quotation h, Scanner.tokens_of_unfinished rfl, hend,
    Scanner.tokens_of_finished hfinished]

/-- Wherever a quotation comes into sight, the parser gives its text back. -/
theorem parse_literal_of_quotation {σ : Type} [TokenStream σ] {s : σ} {t : Token} {text : String}
    (hsight : TokenStream.current s = t) (hkind : t.kind = .stringLiteral)
    (htext : quotation text = t.text) :
    Production.literal.parse s = (.ok ⟨t, .string text, none⟩, TokenStream.advance s) := by
  have hmem : t.kind ∈ First.simpleLiteral := by
    rw [hkind]
    decide
  have hlegible : t.isLegible := by simp [Token.isLegible, hkind]
  have hvalue : LiteralValue.ofToken t = .string text := by
    rw [LiteralValue.ofToken, hkind, ← htext, unquote_quotation]
  rw [← hvalue]
  exact Grammar.literal_complete 1 (.mk hmem hlegible) (Nat.le_refl 1) ⟨hsight, rfl⟩
    List.not_mem_nil

theorem exists_quotation_of_mem_lex {source : String} {t : Token} (ht : t ∈ lex source)
    (hkind : t.kind = .stringLiteral) : ∃ text, '\n' ∉ text.toList ∧ quotation text = t.text := by
  obtain ⟨w, eof, hlex, heof, hproduces⟩ := exists_lex_eq source
  refine exists_quotation_eq ?_
  rw [hlex] at ht
  rcases List.mem_append.1 ht with hmem | hmem
  · rw [← hkind]
    exact (hproduces t hmem).2 (by simp [hkind])
  · obtain rfl := List.mem_singleton.1 hmem
    rw [heof] at hkind
    cases hkind

/-- To quote a text and to read a string literal are inverse to each other.  The quotation of a text
on one line is scanned as one string literal that covers it, with the end of input behind, and
parses to the text.  The text that a string literal of any source parses to, in any stream that has
it in sight, has the literal as its quotation. -/
theorem quotation_round_trip :
    (∀ text : String, '\n' ∉ text.toList →
      lex (quotation text) = [quotationToken text, quotationEnd text] ∧
      ∃ left : Cursor, Production.literal.parse (Cursor.ofSource (quotation text)) =
          (.ok ⟨quotationToken text, .string text, none⟩, left) ∧
        left.current = quotationEnd text) ∧
    ∀ source : String, ∀ t ∈ lex source, t.kind = .stringLiteral →
      ∀ (σ : Type) [TokenStream σ] (s : σ), TokenStream.current s = t →
        ∃ text : String, Production.literal.parse s =
            (.ok ⟨t, .string text, none⟩, TokenStream.advance s) ∧
          '\n' ∉ text.toList ∧ quotation text = t.text := by
  refine ⟨fun text htext => ⟨lex_quotation htext, ?_⟩, fun source t ht hkind σ _ s hsight => ?_⟩
  · have hcursor : Cursor.ofSource (quotation text) =
        ⟨.behindQuotation text, quotationToken text⟩ := by
      rw [Cursor.ofSource, Scanner.step_quotation htext]
    rw [hcursor]
    exact ⟨_, parse_literal_of_quotation rfl rfl rfl, (Scanner.step_behindQuotation text).1⟩
  · obtain ⟨text, hnewline, htext⟩ := exists_quotation_of_mem_lex ht hkind
    exact ⟨text, parse_literal_of_quotation hsight hkind htext, hnewline, htext⟩

/-- Quotes at both ends of a text and next to each other, and a literal in front of another one. -/
theorem quotation_round_trip_quotes :
    let text := "\"\"a\""
    let source := "\"\"\"\" \"\""
    let t : Token := ⟨.stringLiteral, "\"\"\"\"", ⟨source, 0, 4⟩, 1, 1⟩
    let c := Cursor.ofSource source
    '\n' ∉ text.toList ∧ t ∈ lex source ∧ TokenStream.current c = t ∧
      lex (quotation text) = [quotationToken text, quotationEnd text] ∧
      ∃ content, Production.literal.parse c =
          (.ok ⟨t, .string content, none⟩, TokenStream.advance c) ∧
        '\n' ∉ content.toList ∧ quotation content = t.text := by
  intro text source t c
  have htext : '\n' ∉ text.toList := by decide
  have ht : t ∈ lex source := by decide +kernel
  have hsight : TokenStream.current c = t := by decide +kernel
  exact ⟨htext, ht, hsight, (quotation_round_trip.1 text htext).1,
    quotation_round_trip.2 source t ht rfl Cursor c hsight⟩

end TeachLang
