import SpdxHeaders.Path

/-!
# Reports

What became of each file of a conversion, and the report on all of them.
-/

namespace SpdxHeaders

/-- What became of a file. -/
inductive Outcome where
  /-- Its header holds tags already. -/
  | alreadyTagged
  /-- Its header would be replaced. -/
  | wouldReplace
  /-- Its header was replaced. -/
  | replaced
  /-- It belongs to somebody else. -/
  | vendored
  /-- It needs no header. -/
  | ignorable
  /-- Nothing is known about its kind. -/
  | unhandled
  deriving DecidableEq, Repr

namespace Outcome

/-- The outcomes in the order of summaries. -/
def all : List Outcome :=
  [.alreadyTagged, .wouldReplace, .replaced, .vendored, .ignorable, .unhandled]

/-- No outcome is missing. -/
theorem mem_all (o : Outcome) : o ∈ all := by
  cases o <;> decide

/-- The place of an outcome in the order of summaries. -/
def place (o : Outcome) : Nat :=
  all.idxOf o

/-- The wording of an outcome. -/
def label : Outcome → Text
  | .alreadyTagged => "already SPDX"
  | .wouldReplace => "would replace"
  | .replaced => "replaced"
  | .vendored => "vendored"
  | .ignorable => "ignorable"
  | .unhandled => "not handled"

/-- The name of an outcome in data. -/
def key : Outcome → Text
  | .alreadyTagged => "already_spdx"
  | .wouldReplace => "would_replace"
  | .replaced => "replaced"
  | .vendored => "vendored"
  | .ignorable => "ignorable"
  | .unhandled => "unhandled"

end Outcome

/-- What became of the file at a path, and the authors its header named if it is a replaced one. -/
structure FileReport where
  path : Path
  outcome : Outcome
  authors : List Text := []
  deriving DecidableEq, Repr

/-- The report on a conversion. -/
structure Report where
  /-- The directory that was converted. -/
  root : Path
  /-- Nothing was written. -/
  dryRun : Bool
  /-- The files in the order of the walk. -/
  files : List FileReport
  /-- How many files have each outcome that occurs. -/
  tally : List (Outcome × Nat)
  /-- The author list. -/
  authors : List Text
  /-- The author list as it is appended. -/
  authorsMarkdown : Text
  /-- Where the author list is appended. -/
  authorsFile : Path
  deriving DecidableEq, Repr

namespace Report

/-- Counts one more file with an outcome. A tally keeps the outcomes in the order of summaries. -/
def countOne (o : Outcome) : List (Outcome × Nat) → List (Outcome × Nat)
  | [] => [(o, 1)]
  | (o', n) :: tally =>
    if o = o' then (o', n + 1) :: tally
    else if o.place < o'.place then (o, 1) :: (o', n) :: tally
    else (o', n) :: countOne o tally

/-- The tally of files, which are counted one after the other. -/
def tallyOf (files : List FileReport) : List (Outcome × Nat) :=
  files.foldl (fun tally f => countOne f.outcome tally) []

/-- The files of unknown kinds. -/
def unhandled (report : Report) : List FileReport :=
  report.files.filter (·.outcome = .unhandled)

/-- How many files have an outcome. -/
def count (report : Report) (o : Outcome) : Nat :=
  (report.tally.lookup o).getD 0

end Report

end SpdxHeaders
