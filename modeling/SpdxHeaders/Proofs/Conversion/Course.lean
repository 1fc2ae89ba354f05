import Mathlib.Data.List.Induction
import Mathlib.Data.List.TakeWhile
import Mathlib.Tactic.Lemma
import SpdxHeaders.Proofs.Collector.Spots
import SpdxHeaders.Proofs.Conversion.Records
import SpdxHeaders.Proofs.Conversion.Verdict
import SpdxHeaders.Proofs.FileTree.Growth

/-!
# The course of a conversion

As no file is met twice, what a conversion does to a file does not depend on what it did before: how
far it has come is told by the verdicts on the files in the tree it began with (`Converted`). A step
of the conversion preserves this (`Converted.step`), so it holds all along (`converted`).
-/

namespace SpdxHeaders.Conversion

/-- A tree in which the files with a new content have it, and nothing else has changed. -/
structure Wrote (c : Conversion) (t : FileTree) (files : List (List Text)) (t' : FileTree) :
    Prop where
  alike : t.Alike t'
  written : ∀ names ∈ files, ∀ content l, c.written? t names = some content →
    t.locate .content (c.collector.pathOf names) = .ok l → t'.get? l = some (.file content.toUtf8)
  kept : ∀ l, (∀ names ∈ files, (c.written? t names).isSome →
    t.locate .content (c.collector.pathOf names) ≠ .ok l) → t'.get? l = t.get? l

/-- The files that a conversion gets through before it stops. -/
def taken (c : Conversion) (t : FileTree) (files : List (List Text)) : List (List Text) :=
  files.takeWhile fun names => (c.failure? t names).isNone

/-- How far a conversion of a tree has come when it met the files. -/
structure Converted (c : Conversion) (t : FileTree) (files : List (List Text)) (s : Progress) :
    Prop where
  tree : c.Wrote t (c.taken t files) s.tree
  reports : s.reports = (c.taken t files).filterMap (c.report? t)
  failure : s.failure = files.findSome? (c.failure? t)

variable {c : Conversion} {t t' : FileTree} {files : List (List Text)} {names : List Text}
  {s : Progress}

/-- A file without a new content does not count. -/
lemma wrote_concat_iff (hnone : c.written? t names = none) :
    c.Wrote t (files ++ [names]) t' ↔ c.Wrote t files t' := by
  constructor
  · intro h
    refine ⟨h.alike, fun ns hmem => h.written ns (List.mem_append_left _ hmem), fun l hl => ?_⟩
    apply h.kept l
    intro ns hmem hsome
    rcases List.mem_append.1 hmem with hmem | hmem
    · exact hl ns hmem hsome
    · rw [List.mem_singleton.1 hmem, hnone] at hsome
      cases hsome
  · intro h
    refine ⟨h.alike, fun ns hmem content l hcontent => ?_, fun l hl => ?_⟩
    · rcases List.mem_append.1 hmem with hmem | hmem
      · exact h.written ns hmem content l hcontent
      · rw [List.mem_singleton.1 hmem, hnone] at hcontent
        cases hcontent
    · exact h.kept l fun ns hmem => hl ns (List.mem_append_left _ hmem)

/-- A file with a new content, in a place of its own, is overwritten. -/
lemma Wrote.insert (h : c.Wrote t files t') {content : Text} {l : Location} {bytes : ByteArray}
    (hcontent : c.written? t names = some content)
    (hl : t.locate .content (c.collector.pathOf names) = .ok l)
    (hfile : t'.get? l = some (.file bytes))
    (hother : ∀ ns ∈ files, t.locate .content (c.collector.pathOf ns) ≠ .ok l) :
    c.Wrote t (files ++ [names]) (t'.insert l (.file content.toUtf8)) := by
  have hroot : l ≠ [] := by
    rintro rfl
    cases hfile
  refine ⟨h.alike.trans (.insert hfile _), fun ns hmem content' l' hcontent' hl' => ?_,
    fun l' hl' => ?_⟩
  · rw [FileTree.get?_insert hroot]
    rcases List.mem_append.1 hmem with hmem | hmem
    · have hne : l' ≠ l := by
        rintro rfl
        exact hother ns hmem hl'
      rw [if_neg hne]
      exact h.written ns hmem content' l' hcontent' hl'
    · rw [List.mem_singleton.1 hmem] at hcontent' hl'
      rw [if_pos (Except.ok.inj (hl'.symm.trans hl)),
        Option.some.inj (hcontent.symm.trans hcontent')]
  · have hne : l' ≠ l := by
      rintro rfl
      exact hl' names (by simp) (by simp [hcontent]) hl
    rw [FileTree.get?_insert hroot, if_neg hne]
    exact h.kept l' fun ns hmem => hl' ns (List.mem_append_left _ hmem)

/-- At the beginning nothing is converted. -/
lemma Converted.start (c : Conversion) (t : FileTree) : Converted c t [] { tree := t } :=
  ⟨⟨.refl t, by simp [taken], fun _ _ => rfl⟩, rfl, rfl⟩

/-- What is taken of the first files is what is taken first of all files. -/
lemma taken_isPrefix {files' : List (List Text)} (h : files <+: files') :
    c.taken t files <+: c.taken t files' := by
  obtain ⟨more, rfl⟩ := h
  unfold taken
  rw [List.takeWhile_append]
  split
  case isTrue hlength =>
    rw [(List.takeWhile_prefix _).eq_of_length hlength]
    exact List.prefix_append ..
  case isFalse => exact List.prefix_rfl

/-- A conversion that has stopped takes no more files. -/
lemma taken_concat_of_failure (h : (files.findSome? (c.failure? t)).isSome) :
    c.taken t (files ++ [names]) = c.taken t files := by
  unfold taken
  rw [List.takeWhile_append, if_neg]
  intro hlength
  have hall := (List.takeWhile_prefix fun ns => (c.failure? t ns).isNone).eq_of_length hlength
  obtain ⟨e, he⟩ := Option.isSome_iff_exists.1 h
  obtain ⟨names, hmem, hfail⟩ := List.exists_of_findSome?_eq_some he
  rw [← hall] at hmem
  have := List.mem_takeWhile_imp hmem
  simp [hfail] at this

/-- A conversion that does not stop takes all files. -/
lemma taken_of_going (h : files.findSome? (c.failure? t) = none) : c.taken t files = files := by
  apply List.takeWhile_eq_self_iff.2
  intro names hmem
  simpa using List.findSome?_eq_none_iff.1 h names hmem

/-- A conversion that has not stopped takes the next file, unless it stops there. -/
lemma taken_concat_of_going (h : files.findSome? (c.failure? t) = none) :
    c.taken t (files ++ [names])
      = files ++ if (c.failure? t names).isNone then [names] else [] := by
  have hall := taken_of_going h
  unfold taken at hall ⊢
  rw [List.takeWhile_append, if_pos (by rw [hall])]
  cases hnone : (c.failure? t names).isNone <;> simp [hnone]

/-- A conversion takes the files in front of the one where it stops. -/
lemma taken_of_stop {before later : List (List Text)} {e : ConversionError}
    (hbefore : ∀ ns ∈ before, c.failure? t ns = none) (hstop : c.failure? t names = some e) :
    c.taken t (before ++ names :: later) = before := by
  unfold taken
  rw [List.takeWhile_append_of_pos fun ns hmem => by simp [hbefore ns hmem]]
  simp [hstop]

/-- Which files are taken depends on where the conversion stops only. -/
lemma taken_congr (h : ∀ names ∈ files, c.failure? t' names = c.failure? t names) :
    c.taken t' files = c.taken t files ∧
      files.findSome? (c.failure? t') = files.findSome? (c.failure? t) := by
  induction files with
  | nil => exact ⟨rfl, rfl⟩
  | cons names files ih =>
    obtain ⟨htaken, hfailure⟩ := ih fun ns hns => h ns (List.mem_cons_of_mem names hns)
    unfold taken at htaken ⊢
    rw [List.takeWhile_cons, List.takeWhile_cons, List.findSome?_cons, List.findSome?_cons,
      h names List.mem_cons_self, htaken, hfailure]
    exact ⟨rfl, rfl⟩

/-- A conversion that has stopped takes nothing more. -/
lemma step_of_failure (h : s.failure.isSome) (e : WalkEvent) : c.step s e = s := by
  unfold step
  rw [if_pos h]

/-- A conversion that goes on takes a file with nothing more to tell. -/
lemma step_file (h : s.failure = none) : c.step s (.file names) = c.takeFile (s.tell []) names := by
  unfold step
  simp [h, Collector.notices]

/-- Taking a file that is in a place of its own writes its new content, if it has one. -/
lemma Wrote.step (h : c.Wrote t files s.tree) (hfailure : s.failure = none)
    (hother : ∀ ns ∈ files, ∀ l, t.locate .content (c.collector.pathOf names) = .ok l →
      t.locate .content (c.collector.pathOf ns) ≠ .ok l) :
    c.Wrote t (files ++ [names]) (c.step s (.file names)).tree := by
  have hsame (l : Location) (hl : t.locate .content (c.collector.pathOf names) = .ok l) :
      s.tree.get? l = t.get? l :=
    h.kept l fun ns hmem _ => hother ns hmem l hl
  have htree := c.takeFile_tree (s.tell []) names
  rw [← step_file hfailure, show (s.tell []).tree = s.tree from rfl,
    written?_congr h.alike hsame] at htree
  cases hwritten : c.written? t names with
  | none =>
    rw [hwritten] at htree
    exact htree ▸ (wrote_concat_iff hwritten).2 h
  | some content =>
    rw [hwritten] at htree
    obtain ⟨l, bytes, hl, hfile, htree⟩ := htree
    rw [h.alike.locate] at hl
    rw [htree]
    exact h.insert hwritten hl hfile fun ns hmem => hother ns hmem l hl

/-- Meeting a file leaves a conversion as far as the verdicts say. -/
lemma Converted.step (h : Converted c t files s)
    (hother : ∀ ns ∈ files, ∀ l, t.locate .content (c.collector.pathOf names) = .ok l →
      t.locate .content (c.collector.pathOf ns) ≠ .ok l) :
    Converted c t (files ++ [names]) (c.step s (.file names)) := by
  obtain ⟨htree, hreports, hfailed⟩ := h
  cases hfailure : s.failure with
  | some e =>
    -- The conversion has stopped before, and the file does not count.
    have hstopped : files.findSome? (c.failure? t) = some e := hfailed.symm.trans hfailure
    have htaken : c.taken t (files ++ [names]) = c.taken t files :=
      taken_concat_of_failure (by simp [hstopped])
    rw [step_of_failure (by simp [hfailure])]
    exact ⟨htaken ▸ htree, htaken ▸ hreports, by simp [hfailure, hstopped]⟩
  | none =>
    have hgoing : files.findSome? (c.failure? t) = none := hfailed.symm.trans hfailure
    rw [taken_of_going hgoing] at htree hreports
    -- The file is still as it was, so its verdict is the one in the tree at the beginning.
    have hsame (l : Location) (hl : t.locate .content (c.collector.pathOf names) = .ok l) :
        s.tree.get? l = t.get? l :=
      htree.kept l fun ns hmem _ => hother ns hmem l hl
    have hwrote := htree.step hfailure hother
    have hverdict := c.takeFile_verdict (s.tell []) names
    rw [← step_file hfailure, show (s.tell []).tree = s.tree from rfl,
      show (s.tell []).reports = s.reports from rfl, show (s.tell []).failure = s.failure from rfl,
      verdict_congr htree.alike hsame] at hverdict
    cases hv : c.verdict t names with
    | error e =>
      rw [hv] at hverdict
      have hfail : c.failure? t names = some e := by
        unfold failure?
        rw [hv]
      have htaken : c.taken t (files ++ [names]) = files := by
        rw [taken_concat_of_going hgoing]
        simp [hfail]
      refine ⟨?_, ?_, ?_⟩
      · rw [htaken]
        exact (wrote_concat_iff (written?_of_failure? hfail)).1 hwrote
      · rw [htaken, hverdict.1, hreports]
      · rw [hverdict.2, List.findSome?_append, hgoing]
        simp [hfail]
    | ok r =>
      rw [hv] at hverdict
      have hfail : c.failure? t names = none := by
        unfold failure?
        rw [hv]
      have hreport : c.report? t names = r := by
        unfold report?
        rw [hv]
      have htaken : c.taken t (files ++ [names]) = files ++ [names] := by
        rw [taken_concat_of_going hgoing]
        simp [hfail]
      refine ⟨?_, ?_, ?_⟩
      · rw [htaken]
        exact hwrote
      · rw [htaken, hverdict.1, List.filterMap_append, ← hreports]
        cases r <;> simp [hreport]
      · rw [hverdict.2, List.findSome?_append, hgoing, hfailure]
        simp [hfail]

/-- Meeting something other than a file changes nothing that counts. -/
lemma Converted.step_other (h : Converted c t files s) {e : WalkEvent} (he : e.file? = none) :
    Converted c t files (c.step s e) := by
  have hstep : (c.step s e).tree = s.tree ∧ (c.step s e).reports = s.reports ∧
      (c.step s e).failure = s.failure := by
    unfold Conversion.step
    split
    · exact ⟨rfl, rfl, rfl⟩
    · cases e with
      | file => cases he
      | excluded => exact ⟨rfl, rfl, rfl⟩
      | unreadable => exact ⟨rfl, rfl, rfl⟩
  obtain ⟨htree, hreports, hfailure⟩ := hstep
  exact ⟨htree ▸ h.tree, hreports ▸ h.reports, hfailure ▸ h.failure⟩

/-- A conversion that meets files in places of their own has come as far as the verdicts say. -/
theorem converted (c : Conversion) (t : FileTree) (es : List WalkEvent) {start : Location}
    (hnodup : (es.filterMap WalkEvent.file?).Nodup)
    (hplace : ∀ names ∈ es.filterMap WalkEvent.file?, ∀ l,
      t.locate .content (c.collector.pathOf names) = .ok l → l = start ++ names) :
    Converted c t (es.filterMap WalkEvent.file?) (es.foldl c.step { tree := t }) := by
  -- By induction on the events from the end, since each step is taken behind all others.
  induction es using List.reverseRecOn with
  | nil => exact .start c t
  | append_singleton es e ih =>
    rw [List.foldl_append, List.foldl_cons, List.foldl_nil]
    rw [List.filterMap_append] at hnodup hplace ⊢
    have hbefore := ih (List.nodup_append.1 hnodup).1 fun names hmem =>
      hplace names (List.mem_append_left _ hmem)
    cases he : e.file? with
    | none =>
      have hnil : [e].filterMap WalkEvent.file? = [] := by simp [he]
      rw [hnil, List.append_nil]
      exact hbefore.step_other he
    | some names =>
      have hone : [e].filterMap WalkEvent.file? = [names] := by simp [he]
      have hfile : e = .file names := by
        cases e <;> cases he
        rfl
      rw [hone] at hnodup hplace ⊢
      rw [hfile]
      apply hbefore.step
      intro ns hmem l hl hns
      -- Two files in one place would have the same names, but no file is met twice.
      have heq := (hplace ns (by simp [hmem]) l hns).symm.trans (hplace names (by simp) l hl)
      rw [List.append_cancel_left heq] at hmem
      exact (List.nodup_append.1 hnodup).2.2 names hmem names (by simp) rfl

/-- What a conversion meets. The walk sees what the conversion has made of the tree so far. -/
def walk (c : Conversion) (t : FileTree) : List WalkEvent :=
  c.collector.walk fun es => (es.foldl c.step { tree := t }).tree

/-- The files that a conversion meets, in the order of the walk. -/
def metFiles (c : Conversion) (t : FileTree) : List (List Text) :=
  (c.walk t).filterMap WalkEvent.file?

/-- A conversion takes what it meets step by step. -/
lemma convertFiles_eq (c : Conversion) (t : FileTree) :
    c.convertFiles t = (c.walk t).foldl c.step { tree := t } :=
  c.collector.fold_eq_foldl_walk Progress.tree c.step { tree := t }

/-- When all files are taken, the report is the one on the reports that were passed on. -/
lemma reportAfter_convertFiles (c : Conversion) (t : FileTree) :
    c.reportAfter (c.convertFiles t) = c.reportOn (c.convertFiles t).reports := by
  rw [convertFiles_eq]
  exact (agrees_foldl c (.start t) _).reportAfter_eq c

/-- Taking a file changes its bytes only. -/
lemma alike_takeFile (c : Conversion) (s : Progress) (names : List Text) :
    s.tree.Alike (c.takeFile s names).tree := by
  have htree := c.takeFile_tree s names
  cases hwritten : c.written? s.tree names with
  | none =>
    rw [hwritten] at htree
    exact htree ▸ .refl _
  | some content =>
    rw [hwritten] at htree
    obtain ⟨l, bytes, -, hfile, htree⟩ := htree
    rw [htree]
    exact .insert hfile _

/-- A conversion changes bytes only. -/
lemma alike_foldl_step (c : Conversion) (s : Progress) (es : List WalkEvent) :
    s.tree.Alike (es.foldl c.step s).tree := by
  induction es generalizing s with
  | nil => exact .refl _
  | cons e es ih =>
    refine FileTree.Alike.trans ?_ (ih (c.step s e))
    unfold step
    split
    · exact .refl _
    · cases e with
      | file names => exact c.alike_takeFile (s.tell _) names
      | excluded => exact .refl _
      | unreadable => exact .refl _

/-- A conversion that has nothing to write to the files it meets leaves the tree as it is. -/
lemma foldl_step_tree_of_unwritten {es : List WalkEvent}
    (h : ∀ names ∈ es.filterMap WalkEvent.file?, c.written? s.tree names = none) :
    (es.foldl c.step s).tree = s.tree := by
  induction es generalizing s with
  | nil => rfl
  | cons e es ih =>
    have hstep : (c.step s e).tree = s.tree := by
      unfold step
      split
      case isTrue => rfl
      case isFalse =>
        cases e with
        | excluded => rfl
        | unreadable => rfl
        | file names =>
          have htree := c.takeFile_tree (s.tell []) names
          rw [show (s.tell []).tree = s.tree from rfl, h names (by simp [WalkEvent.file?])] at htree
          exact htree
    rw [List.foldl_cons, ih fun names hnames => ?_, hstep]
    rw [hstep]
    exact h names (List.mem_filterMap.2 (by
      obtain ⟨e', he', hfile⟩ := List.mem_filterMap.1 hnames
      exact ⟨e', List.mem_cons_of_mem e he', hfile⟩))

/-- A conversion that has nothing to write meets what there is in the tree. -/
lemma walk_of_unwritten
    (h : ∀ names ∈ (c.collector.events t).filterMap WalkEvent.file?, c.written? t names = none) :
    c.walk t = c.collector.events t := by
  rw [← Collector.walk_const] at h ⊢
  refine Collector.walk_congr (.refl t) (.refl _ t) fun start es _ hes => ?_
  have htree : (es.foldl c.step { tree := t }).tree = t :=
    foldl_step_tree_of_unwritten fun names hnames => h names ((hes.filterMap _).subset hnames)
  rw [htree]
  exact .refl start t

/-- A conversion that has nothing to write leaves the tree as it is. -/
lemma convertFiles_tree_of_unwritten
    (h : ∀ names ∈ (c.collector.events t).filterMap WalkEvent.file?, c.written? t names = none) :
    (c.convertFiles t).tree = t := by
  rw [convertFiles_eq, walk_of_unwritten h]
  exact foldl_step_tree_of_unwritten h

/-- The files that a conversion meets are in places of their own below the root. -/
lemma metFiles_placed (c : Conversion) (ht : t.WellNamed) :
    (c.metFiles t).Nodup ∧
      ∃ start, ∀ names ∈ c.metFiles t, Collector.Placed c.collector t start names :=
  c.collector.walk_placed ht fun es => c.alike_foldl_step { tree := t } es

/-- In front of a file that is met, the walk has met the files that are met before. -/
lemma exists_isPrefix_walk {before later : List (List Text)}
    (h : c.metFiles t = before ++ names :: later) :
    ∃ es, es ++ [.file names] <+: c.walk t ∧ es.filterMap WalkEvent.file? = before := by
  obtain ⟨front, back, hwalk, hfront, hback⟩ := List.filterMap_eq_append_iff.1 h
  obtain ⟨others, e, rest, rfl, hothers, he, -⟩ := List.filterMap_eq_cons_iff.1 hback
  have hfile : e = .file names := by
    cases e <;> cases he
    rfl
  subst hfile
  refine ⟨front ++ others, ⟨rest, by simp [hwalk]⟩, ?_⟩
  rw [List.filterMap_append, hfront, List.filterMap_eq_nil_iff.2 hothers, List.append_nil]

/-- A conversion that meets the first of what is met in a tree like its own comes as far as the
verdicts say. -/
lemma converted_of_isPrefix (c : Conversion) (ht : t.WellNamed) (halike : t.Alike t')
    {es : List WalkEvent} (hes : es <+: c.walk t) :
    Converted c t' (es.filterMap WalkEvent.file?) (es.foldl c.step { tree := t' }) := by
  obtain ⟨hnodup, start, hplaced⟩ := c.metFiles_placed ht
  have hfiles : es.filterMap WalkEvent.file? <+: c.metFiles t := hes.filterMap _
  exact converted c t' es (hnodup.sublist hfiles.sublist) fun names hmem l hl =>
    (hplaced names (hfiles.subset hmem)).locate l ((halike.locate ..).symm.trans hl)

/-- A conversion comes as far as the verdicts on the files that it meets say. -/
theorem converted_convertFiles (c : Conversion) (ht : t.WellNamed) :
    Converted c t (c.metFiles t) (c.convertFiles t) := by
  rw [convertFiles_eq]
  exact c.converted_of_isPrefix ht (.refl t) List.prefix_rfl

/-- The reports of a run are those on the files it converted. -/
lemma run_reports (c : Conversion) (t : FileTree) :
    (c.run t).reports = (c.convertFiles t).reports := by
  unfold run
  dsimp only
  split
  · rfl
  · split
    · rfl
    · split <;> rfl

/-- A run that stops at a file leaves what it converted before. -/
lemma run_of_failure {e : ConversionError} (h : (c.convertFiles t).failure = some e) :
    (c.run t).outcome = .error e ∧ (c.run t).tree = (c.convertFiles t).tree := by
  unfold run
  simp [h]

/-- A dry run that stops at no file reports what it would do. -/
lemma run_of_dry (h : (c.convertFiles t).failure = none) (hdry : c.options.dryRun = true) :
    (c.run t).outcome = .ok (c.reportOn (c.convertFiles t).reports) := by
  unfold run
  simp [h, hdry, reportAfter_convertFiles]

/-- A run that writes and stops at no file appends the author list. -/
lemma run_of_writing (h : (c.convertFiles t).failure = none) (hdry : c.options.dryRun = false) :
    match (c.convertFiles t).tree.append c.authorsFile
        (c.reportOn (c.convertFiles t).reports).authorsMarkdown.toUtf8 with
    | .ok t' => (c.run t).outcome = .ok (c.reportOn (c.convertFiles t).reports) ∧
        (c.run t).tree = t'
    | .error fault => (c.run t).outcome = .error (.file c.authorsFile (.access fault)) ∧
        (c.run t).tree = (c.convertFiles t).tree := by
  unfold run
  simp only [h, hdry, Bool.false_eq_true, if_false, reportAfter_convertFiles]
  split <;> simp_all [ConversionError.inFile]

/-- A run that writes and goes well has stopped at no file and has appended the author list. -/
lemma append_of_run (hdry : c.options.dryRun = false) {report : Report}
    (hrun : (c.run t).outcome = .ok report) :
    (c.convertFiles t).failure = none ∧ report = c.reportOn (c.convertFiles t).reports ∧
      (c.convertFiles t).tree.append c.authorsFile report.authorsMarkdown.toUtf8
        = .ok (c.run t).tree := by
  cases hfailure : (c.convertFiles t).failure with
  | some e =>
    rw [(run_of_failure hfailure).1] at hrun
    cases hrun
  | none =>
    have hwriting := run_of_writing hfailure hdry
    split at hwriting
    case h_1 t' happend =>
      rw [hwriting.1] at hrun
      cases hrun
      exact ⟨rfl, rfl, hwriting.2 ▸ happend⟩
    case h_2 =>
      rw [hwriting.1] at hrun
      cases hrun

/-- A run that stops at no file goes well if it can append the author list. -/
lemma run_of_append (hgoing : (c.convertFiles t).failure = none) (hdry : c.options.dryRun = false)
    (happend : (c.convertFiles t).tree.append c.authorsFile
      (c.reportOn (c.convertFiles t).reports).authorsMarkdown.toUtf8 = .ok t') :
    (c.run t).outcome = .ok (c.reportOn (c.convertFiles t).reports) ∧ (c.run t).tree = t' := by
  have hwriting := run_of_writing hgoing hdry
  rwa [happend] at hwriting

/-- A run that stops at no file goes well if there is room for its author list. -/
lemma run_of_going (ht : t.WellNamed) (hgoing : ∀ names ∈ c.metFiles t, c.failure? t names = none)
    (hdry : c.options.dryRun = false) {a : Location}
    (ha : t.locate .creation c.authorsFile = .ok a) (hroom : t.HasRoom a) :
    (∃ report, (c.run t).outcome = .ok report) ∧
      ∃ u bytes, c.Wrote t (c.metFiles t) u ∧ (c.run t).tree = u.insert a (.file bytes) := by
  have hnone := List.findSome?_eq_none_iff.2 hgoing
  obtain ⟨hwrote, -, hfailure⟩ := c.converted_convertFiles ht
  rw [taken_of_going hnone] at hwrote
  obtain ⟨bytes, happend⟩ :=
    (hroom.of_alike hwrote.alike).exists_append ((hwrote.alike.locate ..).trans ha)
      (c.reportOn (c.convertFiles t).reports).authorsMarkdown.toUtf8
  obtain ⟨houtcome, htree⟩ := run_of_append (hfailure.trans hnone) hdry happend
  exact ⟨⟨_, houtcome⟩, _, bytes, hwrote, htree⟩

/-- A conversion of all files below the root of a tree. -/
def plainConversion : Conversion where
  root := "/"
  options := {}
  settings := {}
  collector := ⟨"/", [], {}⟩

end SpdxHeaders.Conversion
