import TeachLang.Proofs.Grammar.RoundTrip
import TeachLang.Proofs.History.Explained
import TeachLang.Proofs.Likeness.Names
import TeachLang.Proofs.Likeness.Tokens
import TeachLang.Proofs.Tree.Changed

/-! # Renamed programs

The names in a program do not matter.  Where the names of one parsed program are those of another
one after a change of names, both are accepted or both are refused, for the same reason and at the
same place, and the tables that are left hold the same rows.  Tables are ordered by names, so a
change of names moves every row; the order of parameters is that of their positions.
-/

namespace TeachLang

/-- A row of tokens with the lines numbered, one token on each. -/
def numbered (w : List Token) : List Token := w.zipIdx.map fun (t, n) => { t with line := n + 1 }

theorem line_numbered (w : List Token) :
    (numbered w).map (·.line) = (List.range w.length).map (· + 1) := by
  rw [numbered, List.map_map, List.range_eq_range', ← List.zipIdx_map_snd 0 w, List.map_map]
  rfl

theorem label_numbered (w : List Token) :
    (numbered w).map Token.label = w.map Token.label := by
  rw [numbered, List.map_map]
  conv_rhs => rw [← List.zipIdx_map_fst 0 w, List.map_map]
  rfl

theorem nodup_numbered (w : List Token) : (numbered w).Nodup := by
  refine .of_map (·.line) ?_
  rw [line_numbered]
  exact List.nodup_range.map fun a b h => Nat.succ.inj h

theorem fixed_eof_not_mem_numbered (w : List Token) : Token.fixed .eof ∉ numbered w := by
  intro h
  have hline : 0 ∈ (numbered w).map (·.line) := List.mem_map.2 ⟨_, h, rfl⟩
  rw [line_numbered] at hline
  simp at hline

theorem renamed_labels_congr (r : String → String) {v w : List Token}
    (h : v.map Token.label = w.map Token.label) :
    (v.map fun t => (t.renamed r).label) = w.map fun t => (t.renamed r).label := by
  have hlabel : (fun t => (Token.renamed r t).label) =
      (fun l : TokenKind × String => (Token.renamed r ⟨l.1, l.2, ⟨"", 0, 0⟩, 0, 0⟩).label) ∘
        Token.label := by
    funext t
    by_cases ht : t.kind = .identifier <;> simp [Token.renamed, Token.label, ht]
  rw [hlabel, ← List.map_map, ← List.map_map, h]

theorem spelled_congr {v w : List Token} (h : v.map Token.label = w.map Token.label)
    (hw : ∀ t ∈ w, t.Spelled) : ∀ t ∈ v, t.Spelled := by
  intro t ht
  have hmem : t.label ∈ w.map Token.label := h ▸ List.mem_map_of_mem ht
  obtain ⟨u, hu, hlabel⟩ := List.mem_map.1 hmem
  obtain ⟨hkind, htext⟩ := Prod.mk.inj hlabel
  have hspelled := hw u hu
  rwa [Token.Spelled, hkind, htext] at hspelled

/-- The end of input is no token of the tree. -/
theorem getElem?_of_append_eof {w : List Token} {k : Nat} {t : Token}
    (h : (w ++ [Token.fixed .eof])[k]? = some t) (ht : t.Admitted) : w[k]? = some t := by
  rw [List.getElem?_append] at h
  split at h
  · exact h
  · obtain rfl := List.mem_singleton.1 (List.mem_of_getElem? h)
    exact ht.elim

theorem getElem?_write_of_map {v : List Token} {g : Token → Token} {p : Program}
    (hmap : v.map g = p.write ++ [.fixed .eof]) {k : Nat} {t : Token} (hk : v[k]? = some t)
    (ht : (g t).Admitted) : p.write[k]? = some (g t) := by
  refine getElem?_of_append_eof ?_ ht
  rw [← hmap, List.getElem?_map, hk, Option.map_some]

/-- The tree that a row with all tokens different writes gives every tree with the same tokens, and
also those with other names. -/
theorem Program.Written.exists_respells {r : String → String} {v w : List Token} {p q : Program}
    (hq : q.Written v) (hp : p.Written w) (hv : v.Nodup) (hend : Token.fixed .eof ∉ v)
    (h : w.map Token.label = v.map fun t => (t.renamed r).label) :
    ∃ g, Respells r g ∧ v.map g = w ∧ q.map g id = p := by
  obtain ⟨g, hg, heof, hmap⟩ := TeachLang.exists_respells hv hend h
  exact ⟨g, hg, hmap, (hq.eq_map (hg.recasts heof) (hmap ▸ hp)).symm⟩

theorem respells_renamed (r : String → String) : Respells r (Token.renamed r) := fun _ => rfl

theorem respells_id : Respells id id := fun t => by
  rw [Token.renamed_id]
  rfl

/-- On names and on tokens of programs, marks do not matter. -/
theorem Respells.unmarked {r : String → String} {g : Token → Token} (h : Respells r g) :
    Renames (unmarkedOr r) g where
  kind := h.kind
  name t ht hname := by rw [hname.unmarkedOr, h.renames.name t ht hname]
  text := h.renames.text

theorem keepsPunctuation_unplaced : KeepsPunctuation Token.unplaced := ⟨fun _ => rfl, fun _ => rfl⟩

theorem keepsPunctuation_renamed (r : String → String) : KeepsPunctuation (Token.renamed r) :=
  ⟨(respells_renamed r).kind, fun h => if_neg h⟩

/-- The tokens of a renamed program are the tokens of the program with the new names. -/
theorem Program.labels_write_renamed {r : String → String} {p p' : Program}
    (h : p'.unplaced = (p.map (Token.renamed r) id).unplaced) :
    p'.write.map Token.label = p.write.map fun t => (t.renamed r).label := by
  have hwrite := congrArg Program.write h
  rw [unplaced, unplaced, write_map keepsPunctuation_unplaced, write_map keepsPunctuation_unplaced,
    write_map (keepsPunctuation_renamed r)] at hwrite
  have hlabels := congrArg (List.map Token.label) hwrite
  simp only [List.map_map] at hlabels
  exact hlabels

/-- The violations that a program and the renamed program are refused for.  The name of a parameter
that an argument does not fit is new as well, unless the procedure called is one of the runtime
library. -/
inductive Violation.Renamed (r : String → String) (calls : List Call) (token : Token) :
    Violation → Violation → Prop
  | names {v : Violation} (h : v.isArgument = false) : Renamed r calls token v (v.rename r)
  | user {c : Call} (hc : c ∈ calls) {a : Expr} (ha : a ∈ c.args) (htoken : a.anchor = token)
      (hcallee : ∀ b ∈ Builtin.catalogue, b.name ≠ c.callee.text) (parameter : String)
      (expected found : Ty) : Renamed r calls token
        (.incompatibleArgument parameter expected found)
        (.incompatibleArgument (r parameter) expected found)
  | builtin {c : Call} (hc : c ∈ calls) {a : Expr} (ha : a ∈ c.args) (htoken : a.anchor = token)
      {b : Builtin} (hb : b ∈ Builtin.catalogue) (hcallee : b.name = c.callee.text)
      (parameter : String) (expected found : Ty) : Renamed r calls token
        (.incompatibleArgument parameter expected found)
        (.incompatibleArgument parameter expected found)

/-- The checks of a program `p` and of the renamed program `p'`. -/
inductive RenamedOutcome (r : String → String) (p p' : Program) :
    Visited Program → Visited Program → Prop
  | ok {q q' : Program} {t t' : Tables}
      (tree : q'.unplaced = (q.map (Token.renamed r) id).unplaced) (tables : t.Renamed r id t') :
      RenamedOutcome r p p' (q, t, .ok ()) (q', t', .ok ())
  | error {q q' : Program} {t t' : Tables} {e e' : SemanticError} {k : Nat}
      (tree : q'.unplaced = (q.map (Token.renamed r) id).unplaced) (tables : t.Renamed r id t')
      (violation : e.violation.Renamed r p.calls e.token e'.violation)
      (token : p.write[k]? = some e.token) (token' : p'.write[k]? = some e'.token) :
      RenamedOutcome r p p' (q, t, .error e) (q', t', .error e')

theorem Violation.rename_congr {r r' : String → String} {v : Violation}
    (harg : v.isArgument = false) (h : ∀ x ∈ v.texts, r x = r' x) : v.rename r = v.rename r' := by
  cases v <;> simp_all [rename, texts, isArgument]

section

variable {r : String → String} {p : Program}

/-- What the violation of a check with marked names tells of those of two checks without. -/
theorem Explained.renamed {t t' : Tables} {calls : List Call} {v : Violation} {token : Token}
    (h : Explained t calls ⟨v, token⟩) (ht : t.Renamed r Builtin.marked t')
    (htoken : token.Admitted) :
    (v.rename (unmarkedOr id)).Renamed r calls token (v.rename (unmarkedOr r)) := by
  generalize he : SemanticError.mk v token = e at h
  cases h with
  | other harg htexts =>
    subst he
    have hkept (r : String → String) : v.rename (unmarkedOr r) = v.rename r := by
      refine Violation.rename_congr harg fun x hx => ?_
      obtain rfl := List.mem_singleton.1 (htexts hx)
      exact TokenKind.Admits.unmarkedOr htoken r
    rw [hkept, hkept, v.rename_id]
    exact .names harg
  | @argument c hc a ha p hp parameter hparameter found =>
    cases he
    have hcallee : IsName c.callee.text := ht.left (Option.isSome_of_eq_some hp)
    have hrows := ht.procedures hcallee
    rw [hp] at hrows
    generalize t'.procedures.get? (r c.callee.text) = p? at hrows
    cases hrows with
    | some hsame =>
      cases hsame with
      | user hx ty hm =>
        obtain ⟨row, hrow, rfl⟩ := List.mem_map.1 hparameter
        have hname := hm.parameterNames row hrow
        simp only [Violation.rename, hname.unmarkedOr]
        exact .user hc ha rfl hx _ _ _
      | builtin hb hx =>
        rw [Builtin.parameters_marked hb] at hparameter
        obtain ⟨parameter, -, rfl⟩ := List.mem_map.1 hparameter
        simp only [Violation.rename, Prod.map, unmarkedOr_marked]
        exact .builtin hc ha rfl hb hx _ _ _

end

/-- The check of a tree with other names goes like that of the tree on tables with marked names. -/
theorem Program.Grammatical.check_marked {q : Program} (hq : q.Grammatical) {r : String → String}
    (hr : Renaming r) {g : Token → Token} (hg : Renames (unmarkedOr r) g) :
    (ProgramLikeness.names hr hg).Leaves none (Program.map g id)
      (q.check (.initialWith Builtin.marked)) ((q.map g id).check .initial) :=
  Program.check_follows (L := .names hr hg)
    ⟨Tables.renamed_initialWith hr fun _ => rfl, by rintro x ⟨⟩⟩ hq

/-- The trees that are left have the same types, and the new names. -/
theorem Program.unplaced_map_respells {r : String → String} {g g' : Token → Token}
    (hg : Relabels g) (hg' : Respells r g') (q : Program) :
    (q.map g' id).unplaced = ((q.map g id).map (Token.renamed r) id).unplaced := by
  have hlabel (t : Token) : (g' t).unplaced = ((g t).renamed r).unplaced := by
    have hrenamed := respells_renamed r
    simp only [Token.unplaced, hg'.kind, hg'.text, hrenamed.kind, hrenamed.text, hg.kind, hg.text]
  rw [unplaced, unplaced, map_map, map_map, map_map]
  exact congrArg (fun f => q.map f id) (funext hlabel)

/-- A parsed program is written as its canonical row of tokens. -/
theorem written_of_parseProgram {source : String} {p : Program}
    (h : (parseProgram source).1 = .ok p) : p.Written (p.write ++ [.fixed .eof]) := by
  have hlex := (parseProgram_eq_ok_iff source p).1 h
  have hwritten := (grammatical_of_parseProgram h).written
  rwa [hlex.untyped] at hwritten

/-- The token of a violation stands in the row of the program. -/
theorem mem_write_of_check {source : String} {p : Program} (h : (parseProgram source).1 = .ok p)
    {t : Tables} {e : SemanticError} (he : (p.check t).2.2 = .error e) : e.token ∈ p.write := by
  have hgrammatical := grammatical_of_parseProgram h
  have hlex := ((parseProgram_eq_ok_iff source p).1 h).token_mem hgrammatical he
  have hrow := (written_of_parseProgram h).token_mem hgrammatical he
  rcases List.mem_append.1 hrow with hmem | hend
  · exact hmem
  · rw [List.mem_singleton.1 hend] at hlex
    exact absurd hlex (fixed_eof_not_mem_lex source)

/-- The same tree with the tokens of two programs, the second one a renamed first one. -/
theorem exists_common_tree {r : String → String} {source source' : String} {p p' : Program}
    (hp : (parseProgram source).1 = .ok p) (hp' : (parseProgram source').1 = .ok p')
    (h : p'.unplaced = (p.map (Token.renamed r) id).unplaced) :
    ∃ (q : Program) (v : List Token) (g g' : Token → Token), q.Grammatical ∧ q.Written v ∧
      (Relabels g ∧ v.map g = p.write ++ [.fixed .eof] ∧ q.map g id = p) ∧
      (Respells r g' ∧ v.map g' = p'.write ++ [.fixed .eof] ∧ q.map g' id = p') := by
  have hw := written_of_parseProgram hp
  have hw' := written_of_parseProgram hp'
  set w := p.write ++ [Token.fixed .eof] with hwrite
  have hlabels : (p'.write ++ [Token.fixed .eof]).map Token.label =
      (numbered w).map fun t => (t.renamed r).label := by
    rw [renamed_labels_congr r (label_numbered w), hwrite, List.map_append, List.map_append,
      Program.labels_write_renamed h]
    rfl
  have hspelled : ∀ t ∈ numbered w, t.Spelled := by
    refine spelled_congr (label_numbered w) ?_
    rw [hwrite, List.forall_mem_append, List.forall_mem_singleton]
    exact ⟨fun t ht _ => (grammatical_of_parseProgram hp).admitted t ht, fun hlegal => by
      simp [Token.fixed] at hlegal⟩
  have hkinds := hw.derives
  rw [← kinds_congr (label_numbered w)] at hkinds
  obtain ⟨q, hq⟩ := exists_written_of_isLegible (fun t ht => (hspelled t ht).isLegible) hkinds
  have hsame : w.map Token.label = (numbered w).map fun t => (t.renamed id).label := by
    simp only [Token.renamed_id]
    exact (label_numbered w).symm
  obtain ⟨g, hg, hmap, hqp⟩ :=
    hq.exists_respells hw (nodup_numbered w) (fixed_eof_not_mem_numbered w) hsame
  obtain ⟨g', hg', hmap', hqp'⟩ :=
    hq.exists_respells hw' (nodup_numbered w) (fixed_eof_not_mem_numbered w) hlabels
  exact ⟨q, numbered w, g, g', hq.grammatical hspelled, hq, ⟨hg.relabels, hmap, hqp⟩, hg', hmap',
    hqp'⟩

/-- A change of names in a parsed program changes names in the outcome of its check, and nothing
else. -/
theorem check_renamed {r : String → String} (hr : Renaming r) {source source' : String}
    {p p' : Program} (hp : (parseProgram source).1 = .ok p)
    (hp' : (parseProgram source').1 = .ok p')
    (h : p'.unplaced = (p.map (Token.renamed r) id).unplaced) :
    RenamedOutcome r p p' (p.check .initial) (p'.check .initial) := by
  obtain ⟨q, v, g, g', hgrammatical, hq, ⟨hg, hmap, hqp⟩, hg', hmap', hqp'⟩ :=
    exists_common_tree hp hp' h
  have hpg := grammatical_of_parseProgram hp
  have hpg' := grammatical_of_parseProgram hp'
  -- Both checks are like the check of the common tree on the tables with marked names.
  have hfirst := hpg.check_marked renaming_id respells_id.unmarked
  have hsecond := hgrammatical.check_marked hr hg'.unmarked
  have hexplained := p.check_excused (.initialWith Builtin.marked)
  have hmoved := hgrammatical.check_map hg (.initialWith Builtin.marked)
  rw [hqp] at hmoved
  rw [hqp'] at hsecond
  rw [p.map_id] at hfirst
  have hmem (e : SemanticError) (he : (p.check .initial).2.2 = .error e) : e.token ∈ p.write :=
    mem_write_of_check hp he
  have hmem' (e : SemanticError) (he : (p'.check .initial).2.2 = .error e) : e.token ∈ p'.write :=
    mem_write_of_check hp' he
  have hcommon (e : SemanticError)
      (he : (q.check (.initialWith Builtin.marked)).2.2 = .error e) : e.token ∈ v :=
    hq.token_mem hgrammatical he
  generalize p'.check .initial = c' at hsecond hmem' ⊢
  generalize p.check .initial = c at hfirst hmem ⊢
  rw [hmoved] at hfirst hexplained
  generalize q.check (.initialWith Builtin.marked) = d at hfirst hsecond hexplained hcommon
  have htree (q₁ : Program) : (q₁.map g' id).unplaced =
      (((q₁.map g id).map id id).map (Token.renamed r) id).unplaced := by
    rw [Program.map_id, q₁.unplaced_map_respells hg hg']
  cases hsecond with
  | ok q₁ ht' =>
    cases hfirst with
    | ok q₂ ht => exact .ok (htree q₁) (ht.1.both ht'.1)
  | @error q₁ T t' e₁ e' ht' he' =>
    generalize hfound : Except.mapError (SemanticError.map g) (.error e₁) = found
      at hfirst hexplained
    cases hfirst with
    | ok => cases hfound
    | @error _ _ t _ e ht he =>
      obtain rfl := Except.error.inj hfound
      obtain ⟨violation, token⟩ := e
      obtain ⟨violation', token'⟩ := e'
      obtain rfl : violation = e₁.violation.rename (unmarkedOr id) := he.violation
      obtain rfl : violation' = e₁.violation.rename (unmarkedOr r) := he'.violation
      obtain rfl : token = g e₁.token := he.token
      obtain rfl : token' = g' e₁.token := he'.token
      have hadmitted := hpg.admitted _ (hmem _ rfl)
      obtain ⟨k, hk⟩ := List.getElem?_of_mem (hcommon _ rfl)
      exact .error (htree q₁) (ht.1.both ht'.1) (hexplained.explained.renamed ht'.1 hadmitted)
        (getElem?_write_of_map hmap hk hadmitted)
        (getElem?_write_of_map hmap' hk (hpg'.admitted _ (hmem' _ rfl)))

/-- Names that are changed in the text of a source are changed in its tree. -/
theorem unplaced_of_renamed_lex {r : String → String} {source source' : String} {p p' : Program}
    (h : (lex source').map Token.label = (lex source).map fun t => (t.renamed r).label)
    (hp : (parseProgram source).1 = .ok p) (hp' : (parseProgram source').1 = .ok p') :
    p'.unplaced = (p.map (Token.renamed r) id).unplaced := by
  rw [parseProgram_eq_ok_iff] at hp hp'
  obtain ⟨g, hg, -, rfl⟩ :=
    hp.exists_respells hp' (nodup_lex source) (fixed_eof_not_mem_lex source) h
  rw [p.unplaced_map_respells (g := id) ⟨fun _ => rfl, fun _ => rfl⟩ hg, p.map_id]

/-- A first argument that does not fit, and the same with the parameters in the other order of their
names. -/
def orderedSource : String :=
  "procedure p(a:integer; b:string;); begin end; program p(\"\", 0); end;"

def disorderedSource : String :=
  "procedure p(z:integer; b:string;); begin end; program p(\"\", 0); end;"

def swapNames (a b x : String) : String := if x = a then b else if x = b then a else x

theorem renaming_swapNames {a b : String} (ha : IsName a) (hb : IsName b)
    (hbuiltin : ∀ c ∈ Builtin.catalogue, c.name ≠ a ∧ c.name ≠ b) : Renaming (swapNames a b) where
  isName x hx := by
    unfold swapNames
    split
    · exact hb
    · split
      · exact ha
      · exact hx
  injective x y _ _ h := by
    unfold swapNames at h
    grind
  builtin c hc := by
    obtain ⟨hca, hcb⟩ := hbuiltin c hc
    rw [swapNames, if_neg hca, if_neg hcb]

theorem check_renamed_disordered : Renaming (swapNames "a" "z") ∧
    ∃ p p', (parseProgram orderedSource).1 = .ok p ∧ (parseProgram disorderedSource).1 = .ok p' ∧
      p'.unplaced = (p.map (Token.renamed (swapNames "a" "z")) id).unplaced ∧
      RenamedOutcome (swapNames "a" "z") p p' (p.check .initial) (p'.check .initial) := by
  have hr : Renaming (swapNames "a" "z") :=
    renaming_swapNames (.of_isName (by decide +kernel)) (.of_isName (by decide +kernel)) (by decide)
  have hlabels : (lex disorderedSource).map Token.label =
      (lex orderedSource).map fun t => (t.renamed (swapNames "a" "z")).label := by
    decide +kernel
  have hparsed : (parseProgram orderedSource).1.isOk ∧ (parseProgram disorderedSource).1.isOk := by
    decide +kernel
  obtain ⟨p, hp⟩ := exists_of_isOk hparsed.1
  obtain ⟨p', hp'⟩ := exists_of_isOk hparsed.2
  have htree := unplaced_of_renamed_lex hlabels hp hp'
  exact ⟨hr, p, p', hp, hp', htree, check_renamed hr hp hp' htree⟩

end TeachLang
