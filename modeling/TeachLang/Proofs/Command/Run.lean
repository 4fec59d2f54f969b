import TeachLang.Command.Run
import TeachLang.Proofs.Check.Parsed

/-! # Runs over several files

A run does with each file what it would do with that file alone: the events of the files stand one
after the other, the files with errors are collected, and the first file that cannot be read ends
the run.  What a path yields is given as a function, so that a file that is named twice yields the
same text twice.
-/

namespace TeachLang

/-- The run that options ask for, on a system that yields a text or a failure for each path. -/
def Options.outcome (o : Options) (f : Filter) (read : String → Except ReadError String) :
    Outcome :=
  run o f (o.files.map fun path => (path, read path))

variable {read : String → Except ReadError String} {path : String} {before after : List String}

def Readable (read : String → Except ReadError String) (path : String) : Prop :=
  ∃ source, read path = .ok source

def Accepted (read : String → Except ReadError String) (path : String) : Prop :=
  ∃ source typed, read path = .ok source ∧ compile source = .ok typed

def Rejected (read : String → Except ReadError String) (path : String) : Prop :=
  ∃ source e, read path = .ok source ∧ compile source = .error e

theorem compiles_eq_true_iff {source : String} :
    compiles source = true ↔ ∃ typed, compile source = .ok typed := by
  unfold compiles
  cases compile source with
  | ok typed => simp
  | error e => simp

theorem compiles_eq_false_iff {source : String} :
    compiles source = false ↔ ∃ e, compile source = .error e := by
  unfold compiles
  cases compile source with
  | ok typed => simp
  | error e => simp

theorem accepted_iff {source : String} (h : read path = .ok source) :
    Accepted read path ↔ compiles source = true := by
  simp [Accepted, h, compiles_eq_true_iff]

theorem rejected_iff {source : String} (h : read path = .ok source) :
    Rejected read path ↔ compiles source = false := by
  simp [Rejected, h, compiles_eq_false_iff]

instance : DecidablePred (Rejected read) := fun path =>
  match h : read path with
  | .ok _ => decidable_of_iff _ (rejected_iff h).symm
  | .error _ => .isFalse fun ⟨_, _, htext, _⟩ => by rw [h] at htext; cases htext

theorem Accepted.readable (h : Accepted read path) : Readable read path :=
  let ⟨source, _, htext, _⟩ := h
  ⟨source, htext⟩

/-- A text that can be read is either accepted or rejected. -/
theorem Readable.accepted_iff_not_rejected (h : Readable read path) :
    Accepted read path ↔ ¬ Rejected read path := by
  obtain ⟨source, htext⟩ := h
  rw [accepted_iff htext, rejected_iff htext, Bool.not_eq_false]

theorem readable_or_unreadable (read : String → Except ReadError String) (path : String) :
    Readable read path ∨ ∃ reason, read path = .error reason := by
  cases h : read path with
  | ok source => exact .inl ⟨source, h⟩
  | error reason => exact .inr ⟨reason, rfl⟩

namespace Options

variable (o : Options) (f : Filter) (read)

def aloneEvents (path : String) : List Event :=
  (({ o with files := [path] } : Options).outcome f read).events

theorem aloneEvents_of_read {path source : String} (h : read path = .ok source) :
    o.aloneEvents read f path = fileEvents o f path source := by
  simp [aloneEvents, outcome, run, runFrom, h, fileEvents, TypedProgram.events]

theorem runFrom_unreadable {reason : ReadError} (rejected : List String)
    (files : List (String × Except ReadError String)) (h : read path = .error reason) :
    runFrom o f rejected ((path, read path) :: files)
      = ⟨[], .error (.unreadable path reason)⟩ := by
  rw [h, runFrom]

/-- A file that can be read adds the events of its own, and its path if it has errors. -/
theorem runFrom_readable (rejected : List String)
    (files : List (String × Except ReadError String)) (h : Readable read path) :
    let rest := runFrom o f (rejected ++ [path].filter (Rejected read)) files
    runFrom o f rejected ((path, read path) :: files)
      = ⟨o.aloneEvents read f path ++ rest.events, rest.result⟩ := by
  obtain ⟨source, htext⟩ := h
  have hrejected : (if compiles source then rejected else rejected ++ [path])
      = rejected ++ [path].filter (Rejected read) := by
    cases hcompiles : compiles source with
    | true =>
      have hnot : ¬ Rejected read path := by simp [rejected_iff htext, hcompiles]
      simp [hnot]
    | false =>
      have hpath : Rejected read path := (rejected_iff htext).2 hcompiles
      simp [hpath]
  rw [htext, runFrom, hrejected, aloneEvents_of_read read o f htext]

/-- The same for all files in front of others. -/
theorem runFrom_append (rejected : List String) (after : List (String × Except ReadError String))
    (h : ∀ path ∈ before, Readable read path) :
    let rest := runFrom o f (rejected ++ before.filter (Rejected read)) after
    runFrom o f rejected ((before.map fun path => (path, read path)) ++ after)
      = ⟨before.flatMap (o.aloneEvents read f) ++ rest.events, rest.result⟩ := by
  induction before generalizing rejected with
  | nil => simp
  | cons path before ih =>
    obtain ⟨hpath, hbefore⟩ := List.forall_mem_cons.1 h
    have hfilter : (path :: before).filter (Rejected read)
        = [path].filter (Rejected read) ++ before.filter (Rejected read) :=
      List.filter_append [path] before
    simp only [List.map_cons, List.cons_append, List.flatMap_cons, hfilter]
    rw [runFrom_readable read o f rejected _ hpath, ih _ hbefore]
    simp only [List.append_assoc]

variable {o read}

theorem outcome_of_readable (h : ∀ path ∈ o.files, Readable read path) :
    o.outcome f read = ⟨o.files.flatMap (o.aloneEvents read f),
      if o.files.filter (Rejected read) = [] then .ok ()
      else .error (.rejected (o.files.filter (Rejected read)))⟩ := by
  have hrun := runFrom_append read o f [] [] h
  simpa [outcome, run, runFrom] using hrun

theorem outcome_of_unreadable {reason : ReadError} (hfiles : o.files = before ++ path :: after)
    (hbefore : ∀ path ∈ before, Readable read path) (hpath : read path = .error reason) :
    o.outcome f read
      = ⟨before.flatMap (o.aloneEvents read f), .error (.unreadable path reason)⟩ := by
  have hrun := runFrom_append read o f [] ((path :: after).map fun path => (path, read path))
    hbefore
  rw [List.map_cons, runFrom_unreadable read o f _ _ hpath] at hrun
  simpa [outcome, run, hfiles] using hrun

/-- Either all files can be read, or there is a first one that cannot. -/
theorem readable_or_exists_first (read : String → Except ReadError String) (files : List String) :
    (∀ path ∈ files, Readable read path) ∨ ∃ before path after reason,
      files = before ++ path :: after ∧ (∀ path ∈ before, Readable read path) ∧
        read path = .error reason := by
  induction files with
  | nil => exact .inl (by simp)
  | cons path files ih =>
    rcases readable_or_unreadable read path with hpath | ⟨reason, hpath⟩
    · rcases ih with hall | ⟨before, first, after, reason, rfl, hbefore, hfirst⟩
      · exact .inl (List.forall_mem_cons.2 ⟨hpath, hall⟩)
      · exact .inr ⟨path :: before, first, after, reason, rfl,
          List.forall_mem_cons.2 ⟨hpath, hbefore⟩, hfirst⟩
    · exact .inr ⟨[], path, files, reason, rfl, by simp, hpath⟩

theorem outcome_ok_iff :
    (o.outcome f read).result = .ok () ↔ ∀ path ∈ o.files, Accepted read path := by
  rcases readable_or_exists_first read o.files with
    hall | ⟨before, path, after, reason, hfiles, hbefore, hpath⟩
  · rw [outcome_of_readable f hall]
    have hiff : o.files.filter (Rejected read) = [] ↔ ∀ path ∈ o.files, Accepted read path := by
      rw [List.filter_eq_nil_iff]
      exact forall₂_congr fun path hmem => by
        rw [decide_eq_true_iff, (hall path hmem).accepted_iff_not_rejected]
    rw [← hiff]
    split <;> simp_all
  · rw [outcome_of_unreadable f hfiles hbefore hpath]
    refine iff_of_false (by simp) fun haccepted => ?_
    obtain ⟨source, htext⟩ := (haccepted path (by simp [hfiles])).readable
    rw [hpath] at htext
    cases htext

end Options

/-- How a run ends and which events it emits, whatever the options and whatever the paths yield. -/
theorem Options.outcome_spec (o : Options) (f : Filter)
    (read : String → Except ReadError String) :
    ((o.outcome f read).result = .ok () ↔ ∀ path ∈ o.files, Accepted read path) ∧
    ((∀ path ∈ o.files, Readable read path) →
      (o.outcome f read).events = o.files.flatMap fun path =>
        (({ o with files := [path] } : Options).outcome f read).events) ∧
    ((∀ path ∈ o.files, Readable read path) → (∃ path ∈ o.files, Rejected read path) →
      (o.outcome f read).result = .error (.rejected (o.files.filter (Rejected read)))) ∧
    ∀ before path after reason, o.files = before ++ path :: after →
      (∀ path ∈ before, Readable read path) → read path = .error reason →
      o.outcome f read = ⟨before.flatMap fun path =>
          (({ o with files := [path] } : Options).outcome f read).events,
        .error (.unreadable path reason)⟩ := by
  refine ⟨outcome_ok_iff f, fun hall => ?_, fun hall hsome => ?_,
    fun before path after reason hfiles hbefore hpath =>
      outcome_of_unreadable f hfiles hbefore hpath⟩
  · rw [outcome_of_readable f hall]
    rfl
  · obtain ⟨path, hmem, hpath⟩ := hsome
    have hne : o.files.filter (Rejected read) ≠ [] :=
      List.ne_nil_of_mem (List.mem_filter.2 ⟨hmem, decide_eq_true hpath⟩)
    rw [outcome_of_readable f hall, if_neg hne]

/-- A text without errors, one with an error, and nothing else. -/
def sampleRead : String → Except ReadError String
  | "sums" => .ok "const n := 2; program WrInt(n + n); end;"
  | "exits" => .ok "program exit; end;"
  | _ => .error .notFound

/-- How a run over files ends without any further options. -/
def sampleResult (files : List String) : Except RunError Unit :=
  (({ Options.blank with files := files } : Options).outcome (Options.blank.filter none)
    sampleRead).result

/-- A file with an error that is named twice, one that is missing between others, and one without
errors that is named twice. -/
theorem Options.outcome_spec_sampleRead :
    sampleResult ["exits", "sums", "exits"] = .error (.rejected ["exits", "exits"]) ∧
    sampleResult ["sums", "exits", "none", "sums"] = .error (.unreadable "none" .notFound) ∧
    sampleResult ["sums", "sums"] = .ok () := by
  have hsums : Accepted sampleRead "sums" := (accepted_iff rfl).2 (by decide +kernel)
  have hexits : Rejected sampleRead "exits" := (rejected_iff rfl).2 (by decide +kernel)
  have hread : Readable sampleRead "exits" := ⟨_, rfl⟩
  have hnot : ¬ Rejected sampleRead "sums" := hsums.readable.accepted_iff_not_rejected.1 hsums
  refine ⟨?_, ?_, ?_⟩
  · obtain ⟨-, -, hrejected, -⟩ := Options.outcome_spec
      { blank with files := ["exits", "sums", "exits"] } (blank.filter none) sampleRead
    rw [sampleResult, hrejected (by simp [hread, hsums.readable]) ⟨"exits", by simp, hexits⟩]
    simp [hexits, hnot]
  · obtain ⟨-, -, -, hunreadable⟩ := Options.outcome_spec
      { blank with files := ["sums", "exits", "none", "sums"] } (blank.filter none) sampleRead
    rw [sampleResult, hunreadable ["sums", "exits"] "none" ["sums"] .notFound rfl
      (by simp [hread, hsums.readable]) rfl]
  · obtain ⟨haccepted, -⟩ := Options.outcome_spec
      { blank with files := ["sums", "sums"] } (blank.filter none) sampleRead
    exact haccepted.2 (by simp [hsums])

end TeachLang
