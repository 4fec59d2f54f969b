import TeachLang.Proofs.Grammar.Simulation
import TeachLang.Proofs.Likeness.Declaration
import TeachLang.Proofs.Token.Tiling
import TeachLang.Proofs.Token.Spaced

/-! # Corresponding tokens

Two rows of tokens with the same kinds and corresponding texts, the tokens of the first one all
different: then the second row is found from the first one by a change of tokens, and what a check
of the first tree says of a token, the check of the second one says of the token at the same place.
-/

namespace TeachLang

def Token.renamed (r : String → String) (t : Token) : Token :=
  if t.kind = .identifier then { t with text := r t.text } else t

theorem Token.renamed_id (t : Token) : t.renamed id = t := by
  unfold renamed
  split <;> rfl

/-- A change of tokens that changes kinds and texts as a change of names does. -/
def Respells (r : String → String) (g : Token → Token) : Prop :=
  ∀ t, (g t).label = (t.renamed r).label

section

variable {r : String → String} {g : Token → Token}

theorem Respells.kind (h : Respells r g) (t : Token) : (g t).kind = t.kind := by
  refine (congrArg Prod.fst (h t)).trans ?_
  unfold Token.label Token.renamed
  split <;> rfl

theorem Respells.text (h : Respells r g) (t : Token) :
    (g t).text = if t.kind = .identifier then r t.text else t.text := by
  refine (congrArg Prod.snd (h t)).trans ?_
  unfold Token.label Token.renamed
  split <;> rfl

theorem Respells.renames (h : Respells r g) : Renames r g where
  kind := h.kind
  name t ht _ := by rw [h.text, if_pos ht]
  text t ht := by rw [h.text, if_neg ht]

theorem Respells.relabels (h : Respells id g) : Relabels g where
  kind := h.kind
  text t := by
    rw [h.text]
    exact ite_self _

theorem Respells.recasts (h : Respells r g) (heof : g (.fixed .eof) = .fixed .eof) :
    Recasts r g id :=
  ⟨h.renames, heof, rfl⟩

/-- Tokens that are all different can be changed into any tokens with corresponding labels. -/
theorem exists_respells {v w : List Token} (hv : v.Nodup) (hend : Token.fixed .eof ∉ v)
    (h : w.map Token.label = v.map fun t => (t.renamed r).label) :
    ∃ g, Respells r g ∧ g (.fixed .eof) = .fixed .eof ∧ v.map g = w := by
  have hlength : w.length = v.length := by simpa using congrArg List.length h
  let g (t : Token) : Token := w[v.idxOf t]?.getD (t.renamed r)
  have hat (i : Nat) (hi : i < v.length) : g v[i] = w[i] := by
    simp only [g, hv.idxOf_getElem i hi]
    rw [List.getElem?_eq_getElem (hlength ▸ hi), Option.getD_some]
  have houtside (t : Token) (ht : t ∉ v) : g t = t.renamed r := by
    have hnone : w[v.idxOf t]? = none := by
      rw [List.getElem?_eq_none_iff, List.idxOf_of_notMem ht, hlength]
    simp only [g, hnone, Option.getD_none]
  refine ⟨g, fun t => ?_, houtside _ hend, ?_⟩
  · by_cases ht : t ∈ v
    · obtain ⟨i, hi, rfl⟩ := List.getElem_of_mem ht
      rw [hat i hi]
      simpa [hi, hlength] using congrArg (·[i]?) h
    · rw [houtside t ht]
  · refine List.ext_getElem (by rw [List.length_map, hlength]) fun i hi hi' => ?_
    rw [List.getElem_map, hat]

end

theorem nodup_lex (source : String) : (lex source).Nodup :=
  (tiles_lex source).pairwise.imp fun h heq => by
    rw [heq] at h
    exact Nat.lt_irrefl _ h.1

/-- No token of a source is the end of input without a place. -/
theorem fixed_eof_not_mem_lex (source : String) : Token.fixed .eof ∉ lex source := by
  intro hmem
  obtain ⟨before, text, after, hstands, -⟩ := exists_stands_of_mem_lex hmem
  have hline := congrArg Token.line hstands.eq_covering
  rw [Token.covering, Position.line_advanceAll] at hline
  simp [Token.fixed, Position.start] at hline
  omega

/-- Checks on the same tables of trees that differ in the places of tokens. -/
def ProgramLikeness.places {g : Token → Token} (hg : Relabels g) : ProgramLikeness where
  name := id
  token := g
  alike _ t t' := t = t'
  renames := hg.renames
  lookup? := by
    rintro ctx t _ x rfl -
    rw [Context.rename_id]
    rfl
  contains := by
    rintro ctx t _ x rfl -
    rw [Context.rename_id]
    rfl
  callable := by
    rintro _ t _ x rfl -
    change Option.Rel _ _ (t.procedures.get? x)
    cases t.procedures.get? x with
    | none => exact .none
    | some p => exact .some (Procedure.callable_id rfl rfl)
  result := by
    rintro ctx t _ rfl
    rw [Context.rename_id]
  register := by
    rintro ctx t _ kind ty rfl
    rw [Context.rename_id]
  declare := by
    rintro ctx t _ x r rfl - - -
    rw [Context.rename_id]
    rfl
  parameter := by
    rintro ctx t _ x ty rfl - - -
    rw [Context.rename_id]
    rfl
  counter := by
    rintro ctx t _ x rfl -
    rw [Context.rename_id]
    rfl
  builtin := by
    rintro t _ x rfl -
    rfl
  enter := by
    rintro t _ x ty rfl - -
    rfl
  leave := id

def SemanticError.map (g : Token → Token) (e : SemanticError) : SemanticError :=
  ⟨e.violation, g e.token⟩

section

variable {p : Program}

/-- The check of a program with its tokens at other places differs in the places of tokens only. -/
theorem Program.Grammatical.check_map (h : p.Grammatical) {g : Token → Token} (hg : Relabels g)
    (t : Tables) : (p.map g id).check t =
      ((p.check t).1.map g id, (p.check t).2.1, (p.check t).2.2.mapError (SemanticError.map g)) := by
  have hfollows : (ProgramLikeness.places hg).Leaves none (Program.map g id) (p.check t)
      ((p.map g id).check t) := Program.check_follows (L := .places hg) rfl h
  generalize p.check t = c, (p.map g id).check t = c' at hfollows ⊢
  cases hfollows with
  | ok q ht =>
    obtain rfl : _ = _ := ht
    rfl
  | @error q t t' e e' ht he =>
    obtain rfl : t = t' := ht
    obtain ⟨violation, token⟩ := e'
    obtain rfl : violation = e.violation := he.violation.trans e.violation.rename_id
    obtain rfl : token = g e.token := he.token
    rfl

/-- The violations of a program are reported at its tokens. -/
theorem Program.Written.token_mem {w : List Token} (hp : p.Written w) (h : p.Grammatical)
    {t : Tables} {e : SemanticError} (he : (p.check t).2.2 = .error e) : e.token ∈ w := by
  by_contra hmem
  -- moving the reported token alone changes no token of the program, so it would not be moved
  let g (u : Token) : Token := if u = e.token then { u with line := u.line + 1 } else u
  have hlabel (u : Token) : (g u).label = u.label := by
    simp only [g]
    split <;> rfl
  have hg : Relabels g :=
    ⟨fun u => congrArg Prod.fst (hlabel u), fun u => congrArg Prod.snd (hlabel u)⟩
  have hw : w.map g = w := by
    have hstay : ∀ u ∈ w, g u = u := by
      intro u hu
      refine if_neg ?_
      rintro rfl
      exact hmem hu
    rw [List.map_congr_left hstay, List.map_id']
  have hsame : p.map g id = p := by
    have hmap := hp.map hg
    rw [hw] at hmap
    exact hmap.unique hp
  have hcheck := congrArg (·.2.2) (h.check_map hg t)
  simp only [hsame, he, Except.mapError, Except.error.injEq] at hcheck
  have hline := congrArg (·.token.line) hcheck
  simp only [SemanticError.map, g, if_pos] at hline
  exact absurd hline (Nat.succ_ne_self _).symm

end

end TeachLang
