import SpdxHeaders.Json
import SpdxHeaders.Report.Table
import SpdxHeaders.Report.Timestamp

/-!
# Reports as data

The JSON that other programs read a report from.
-/

namespace SpdxHeaders

/-- The data of what became of a file. -/
def FileReport.data (f : FileReport) : Json :=
  .object
    [("path".toList, .string f.path), ("outcome".toList, .string f.outcome.key),
     ("authors".toList, .array (f.authors.map .string))]

namespace Report

/-- The data of a report that was finished at a time. -/
def data (report : Report) (time : Timestamp) : Json :=
  .object
    [("root".toList, .string report.root), ("dry_run".toList, .bool report.dryRun),
     ("files".toList, .array (report.files.map FileReport.data)),
     ("by_outcome".toList, .object (report.tally.map fun t => (t.1.key, .number t.2))),
     ("authors".toList, .array (report.authors.map .string)),
     ("authors_markdown".toList, .string report.authorsMarkdown),
     ("authors_file".toList, .string report.authorsFile),
     ("generated_at".toList, .string time.text)]

/-- The form of a summary. -/
inductive Format where
  /-- A table. -/
  | terminal
  /-- JSON. -/
  | json
  deriving DecidableEq, Repr

/-- The report in a form. -/
def render (report : Report) (time : Timestamp) : Format → Text
  | .terminal => report.summary
  | .json => (report.data time).render 0

end Report

end SpdxHeaders
