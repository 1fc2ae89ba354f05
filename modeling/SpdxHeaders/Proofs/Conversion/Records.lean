import Mathlib.Tactic.Lemma
import SpdxHeaders.Conversion.Basic

/-!
# What a conversion records

The report on a file is passed on, it is kept for the report on the conversion, and its authors are
collected. These are three records, and each step writes them one by one. They agree at every step
(`Progress.Agrees.step`) and so all along (`agrees_foldl`): the report on a conversion is the report
on the files that were passed on (`Progress.Agrees.reportAfter_eq`).
-/

namespace SpdxHeaders.Conversion

/-- The report on a conversion of files. -/
def reportOn (c : Conversion) (files : List FileReport) : Report :=
  let authors := Authors.ofEntries (files.flatMap FileReport.authors)
  ⟨c.root, c.options.dryRun, files, Report.tallyOf files, authors, Authors.markdown authors,
    c.authorsFile⟩

/-- The records agree: the reports that are kept are those that were passed on, and the authors that
are collected are theirs. -/
structure Progress.Agrees (s : Progress) : Prop where
  files : s.files = s.reports
  authors : s.authors.entries = s.reports.flatMap FileReport.authors

variable {s : Progress}

namespace Progress.Agrees

/-- At the beginning nothing is recorded. -/
lemma start (t : FileTree) : Progress.Agrees { tree := t } :=
  ⟨rfl, rfl⟩

/-- What is told is not recorded. -/
lemma tell (h : s.Agrees) (notices : List Notice) : (s.tell notices).Agrees :=
  ⟨h.files, h.authors⟩

/-- A report is recorded in all three. -/
lemma report (h : s.Agrees) (f : FileReport) : (s.report f).Agrees where
  files := congrArg (· ++ [f]) h.files
  authors := by
    rw [Progress.report, Authors.Registry.extend, h.authors, List.flatMap_append,
      List.flatMap_singleton]

/-- Taking a file records its report, if there is one. -/
lemma takeFile (h : s.Agrees) (c : Conversion) (names : List Text) :
    (c.takeFile s names).Agrees := by
  unfold Conversion.takeFile
  dsimp only
  cases Route.ofPath c.settings (Path.ofNames names) with
  | vendored => exact h.report _
  | ignorable => exact h.report _
  | unhandled => exact h.report _
  | exempt => exact h.tell _
  | rewrite style =>
    dsimp only
    split
    case h_1 tree f _ =>
      refine Agrees.report ⟨?_, ?_⟩ f
      · exact h.files
      · exact h.authors
    case h_2 => exact ⟨h.files, h.authors⟩

/-- A step of the conversion keeps the records in agreement. -/
lemma step (h : s.Agrees) (c : Conversion) (e : WalkEvent) : (c.step s e).Agrees := by
  unfold Conversion.step
  split
  case isTrue => exact h
  case isFalse =>
    cases e with
    | file names => exact (h.tell _).takeFile c names
    | excluded => exact h.tell _
    | unreadable => exact h.tell _

/-- The report on a conversion is the one on the reports that it has passed on. -/
lemma reportAfter_eq (h : s.Agrees) (c : Conversion) : c.reportAfter s = c.reportOn s.reports := by
  unfold reportAfter reportOn Authors.Registry.finalize
  rw [h.files, h.authors]

end Progress.Agrees

/-- All along, the records of a conversion agree. -/
theorem agrees_foldl (c : Conversion) (h : s.Agrees) (es : List WalkEvent) :
    (es.foldl c.step s).Agrees := by
  induction es generalizing s with
  | nil => exact h
  | cons e es ih => exact ih (h.step c e)

end SpdxHeaders.Conversion
