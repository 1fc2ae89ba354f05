import SpdxHeaders.Proofs.Attribution.Entries
import SpdxHeaders.Proofs.Conversion.Accounting
import SpdxHeaders.Proofs.Text.Pieces

/-!
# Reading the author list back

The markdown of an author list has a line for each author below its heading (`pieces_markdown`), so
the list can be read back as long as no author holds a line feed (`ofMarkdown?_markdown`). The
authors of a run are entries of header lines, which hold none (`author_run_of_report?`): its list
can always be read back (`authors_read_back`).
-/

namespace SpdxHeaders

namespace Authors

/-- What begins the line of an author. -/
def bullet : Text :=
  "- "

/-- The authors that a markdown lists: what stands behind the bullet of each line below the heading.
Behind the last line feed there is no line. -/
def ofMarkdown? (t : Text) : Option (List Text) := do
  let list ← Text.after? "# Authors\n\n" t
  (Text.pieces '\n' list).dropLast.mapM (Text.after? bullet)

variable {authors : List Text}

/-- Each author has a line. -/
lemma pieces_lines (h : ∀ a ∈ authors, '\n' ∉ a) :
    Text.pieces '\n' (authors.flatMap line) = authors.map (bullet ++ ·) ++ [[]] := by
  induction authors with
  | nil => rfl
  | cons a authors ih =>
    rw [List.forall_mem_cons] at h
    have ha : '\n' ∉ bullet ++ a := by
      rw [List.mem_append, not_or]
      exact ⟨by decide, h.1⟩
    rw [List.flatMap_cons, line, List.append_assoc, List.singleton_append]
    exact (Text.pieces_cons ha _).trans (congrArg _ (ih h.2))

/-- The lines of the markdown are the heading, a blank one, and one for each author. -/
lemma pieces_markdown (h : ∀ a ∈ authors, '\n' ∉ a) :
    Text.pieces '\n' (markdown authors)
      = "# Authors".toList :: [] :: authors.map (bullet ++ ·) ++ [[]] := by
  have hmarkdown : markdown authors
      = "# Authors".toList ++ '\n' :: ([] ++ '\n' :: authors.flatMap line) := rfl
  rw [hmarkdown, Text.pieces_cons (by decide), Text.pieces_cons List.not_mem_nil, pieces_lines h]
  rfl

/-- Taking the bullets off lines that were put there gives the authors. -/
lemma mapM_after?_bullet (authors : List Text) :
    (authors.map (bullet ++ ·)).mapM (Text.after? bullet) = some authors := by
  induction authors with
  | nil => rfl
  | cons a authors ih =>
    rw [List.map_cons, List.mapM_cons, ih, Text.after?_eq_some_iff.2 rfl]
    rfl

/-- The markdown of authors without line feeds lists these authors. -/
lemma ofMarkdown?_markdown (h : ∀ a ∈ authors, '\n' ∉ a) :
    ofMarkdown? (markdown authors) = some authors := by
  have hlist : Text.after? "# Authors\n\n" (markdown authors) = some (authors.flatMap line) :=
    Text.after?_eq_some_iff.2 rfl
  rw [ofMarkdown?, hlist, Option.bind_eq_bind, Option.bind_some, pieces_lines h,
    List.dropLast_concat, mapM_after?_bullet]

-- A line feed in an entry would make two of it.
example : ofMarkdown? (markdown ["Jo\n- Al"]) = some ["Jo".toList, "Al".toList] := by decide

/-- The lines with a bullet are those of the authors. -/
lemma bullet_mem_pieces_iff (h : ∀ a ∈ authors, '\n' ∉ a) {a : Text} :
    bullet ++ a ∈ Text.pieces '\n' (markdown authors) ↔ a ∈ authors := by
  simp [pieces_markdown h, bullet]

end Authors

namespace Conversion
open Attribution

/-- The file holds a header whose lines name the authors of the report, in order. -/
def NamedBy (t : FileTree) (f : FileReport) : Prop :=
  ∃ style text b inner ms, t.readText f.path = .ok text ∧ HeaderBlock.Located style text b inner ∧
    b.text.lines.mapM meaning = .ok ms ∧ f.authors = ms.filterMap LineMeaning.entry?

variable {c : Conversion} {t : FileTree} {names : List Text} {f : FileReport} {report : Report}

/-- The header of a file that is rewritten names the authors of the report, and no other report has
any. -/
lemma namedBy_of_report? (h : c.report? t names = some f) :
    f.outcome.IsRewritten ∧ NamedBy t f ∨ ¬ f.outcome.IsRewritten ∧ f.authors = [] := by
  cases reported_of_report? h with
  | rewritten hroute hrewriting =>
    obtain ⟨text, htext, hchanged⟩ := exists_of_rewritingOf hrewriting
    obtain ⟨b, inner, a, hlocated, -, hparse, rfl, -⟩ := Rewriting.exists_of_changed hchanged
    obtain ⟨ms, hms, ha⟩ := parse_eq_ok_iff.1 hparse
    refine .inl ⟨?_, _, text, b, inner, ms, htext, hlocated, hms, ha.authors⟩
    cases c.options.dryRun with
    | true => exact .inr rfl
    | false => exact .inl rfl
  | _ => exact .inr ⟨by simp [Outcome.IsRewritten], rfl⟩

/-- The authors of a report are runs without line feeds. -/
lemma author_run_of_report? (h : c.report? t names = some f) {a : Text} (ha : a ∈ f.authors) :
    RunWithout '\n' a := by
  rcases namedBy_of_report? h with ⟨-, style, text, b, inner, ms, -, -, hms, hauthors⟩ | ⟨-, hnone⟩
  · exact entry_run_of_lines hms (hauthors ▸ ha)
  · rw [hnone] at ha
    cases ha

/-- The authors of a run that goes well are runs without line feeds. -/
lemma author_run_of_run (h : (c.run t).outcome = .ok report) {a : Text} (ha : a ∈ report.authors) :
    RunWithout '\n' a := by
  obtain ⟨-, rfl⟩ := reportOn_of_run h
  obtain ⟨f, hf, ha⟩ := List.mem_flatMap.1 (Authors.mem_ofEntries.1 ha)
  rw [convertFiles_eq] at hf
  obtain ⟨u, names, -, hreport⟩ := report?_of_mem_foldl hf
  exact author_run_of_report? hreport ha

/-- The author list of a run that goes well can be read back, whatever the headers say. No author is
empty or holds a line feed, so the lines below the heading are one for each author, and taking off
their bullets gives the authors in order. A line stands there just if some file names its author,
and the files name what the lines of their headers do. -/
theorem authors_read_back (c : Conversion) (t : FileTree) {report : Report}
    (h : (c.run t).outcome = .ok report) :
    (∀ a ∈ report.authors, a ≠ [] ∧ '\n' ∉ a) ∧
    Text.pieces '\n' report.authorsMarkdown
      = "# Authors".toList :: [] :: report.authors.map ("- ".toList ++ ·) ++ [[]] ∧
    Authors.ofMarkdown? report.authorsMarkdown = some report.authors ∧
    (∀ a, "- ".toList ++ a ∈ Text.pieces '\n' report.authorsMarkdown ↔
      ∃ f ∈ report.files, a ∈ f.authors) ∧
    (t.WellNamed → ∀ f ∈ report.files,
      f.outcome.IsRewritten ∧ NamedBy t f ∨ ¬ f.outcome.IsRewritten ∧ f.authors = []) := by
  have hrun : ∀ a ∈ report.authors, RunWithout '\n' a := fun a => author_run_of_run h
  have hfeed : ∀ a ∈ report.authors, '\n' ∉ a := fun a ha => (hrun a ha).notMem
  obtain ⟨-, rfl⟩ := reportOn_of_run h
  refine ⟨fun a ha => ⟨(hrun a ha).ne_nil, hfeed a ha⟩, Authors.pieces_markdown hfeed,
    Authors.ofMarkdown?_markdown hfeed, fun a => ?_, fun ht f hf => ?_⟩
  · exact (Authors.bullet_mem_pieces_iff hfeed).trans (Authors.mem_ofEntries.trans List.mem_flatMap)
  · have hreports := (converted_convertFiles c ht).reports
    change f ∈ (c.convertFiles t).reports at hf
    rw [hreports] at hf
    obtain ⟨names, -, hreport⟩ := List.mem_filterMap.1 hf
    exact namedBy_of_report? hreport

/-- The author list of a preview is read back. -/
theorem authors_read_back_previewed :
    ∃ report, (previewing.run previewed).outcome = .ok report ∧
      report.authorsMarkdown = "# Authors\n\n- Jo\n" ∧
      Authors.ofMarkdown? report.authorsMarkdown = some ["Jo".toList] ∧
      ∀ f ∈ report.files,
        f.outcome.IsRewritten ∧ NamedBy previewed f ∨ ¬ f.outcome.IsRewritten ∧ f.authors = [] := by
  obtain ⟨-, -, hread, -, hnamed⟩ := authors_read_back previewing previewed outcome_previewed
  have hwell : previewed.WellNamed := by decide
  have hauthors : (previewing.reportOn previewedReports).authors = ["Jo".toList] := by
    have hentries : previewedReports.flatMap FileReport.authors = ["Jo".toList] := rfl
    simp [reportOn, hentries, Authors.ofEntries, Text.sort, Authors.dropRepeats]
  refine ⟨_, outcome_previewed, ?_, hread.trans (congrArg some hauthors), hnamed hwell⟩
  exact congrArg Authors.markdown hauthors

end Conversion

end SpdxHeaders
