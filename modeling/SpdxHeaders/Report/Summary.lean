import SpdxHeaders.FileTree.Access
import SpdxHeaders.Report.Data

/-!
# Summaries

The summary of a report is printed, or written to a file. Data hold no path that is not UTF-8.
-/

namespace SpdxHeaders.Report

/-- Why a summary is not given. -/
inductive SummaryFault where
  /-- A path in the data is not UTF-8. -/
  | notText
  /-- The file of the summary cannot be written. -/
  | unwritable (path : Path) (fault : AccessFault)
  deriving DecidableEq, Repr

/-- The wording of a fault. -/
def SummaryFault.message : SummaryFault → Text
  | .notText => "Failed to serialize report to JSON: path contains invalid UTF-8 characters"
  | .unwritable path fault =>
    "Failed to write summary to ".toList ++ path ++ ": ".toList ++ fault.message

/-- The paths in a report. -/
def paths (report : Report) : List Path :=
  report.root :: report.authorsFile :: report.files.map FileReport.path

/-- Gives the summary of a report: what is printed, and the file tree after that. -/
def summarize (report : Report) (time : Timestamp) (format : Format) (output : Option Path)
    (t : FileTree) : Except SummaryFault (Text × FileTree) :=
  if format = .json && !report.paths.all t.isText then .error .notText
  else
    let text := report.render time format
    match output with
    | none => .ok (text ++ ['\n'], t)
    | some p =>
      match t.write p text.toUtf8 with
      | .ok t => .ok ("Summary written to ".toList ++ p ++ ['\n'], t)
      | .error fault => .error (.unwritable p fault)

end SpdxHeaders.Report
