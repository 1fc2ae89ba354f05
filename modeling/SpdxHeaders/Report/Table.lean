import SpdxHeaders.Report.Basic

/-!
# Summary tables

The summary of a report as a boxed table of two columns, each as wide as its widest cell.
-/

namespace SpdxHeaders.Report

/-- A row of the table: a cell for each column. -/
abbrev Row := Text × Text

/-- The rows of a summary, the titles first. -/
def rows (report : Report) : List Row :=
  ("Outcome".toList, "Files".toList)
    :: (report.tally.map fun t => (t.1.label, Text.ofNat t.2))
    ++ [("unique authors".toList, Text.ofNat report.authors.length)]

/-- The widths of the columns. -/
def widths (rows : List Row) : Nat × Nat :=
  (rows.foldl (fun w r => max w r.1.length) 0, rows.foldl (fun w r => max w r.2.length) 0)

/-- A cell with a blank on each side, filled up to the width of its column. -/
def cell (width : Nat) (t : Text) : Text :=
  ' ' :: t ++ List.replicate (width - t.length + 1) ' '

/-- A line of cells. -/
def rowLine (w : Nat × Nat) (r : Row) : Text :=
  "│".toList ++ cell w.1 r.1 ++ "┆".toList ++ cell w.2 r.2 ++ "│".toList

/-- A line between rows, made of its left end, its body, its crossing and its right end. -/
def ruleLine (w : Nat × Nat) (left body crossing right : Char) : Text :=
  left :: List.replicate (w.1 + 2) body ++ crossing :: List.replicate (w.2 + 2) body ++ [right]

/-- The lines of the table with the given rows, the first of them titles. -/
def tableLines (rows : List Row) : List Text :=
  let w := widths rows
  let top := ruleLine w '┌' '─' '┬' '┐'
  let bottom := ruleLine w '└' '─' '┴' '┘'
  let body : List Text :=
    match rows.map (rowLine w) with
    | title :: first :: rest =>
      title :: ruleLine w '╞' '═' '╪' '╡' :: first
        :: rest.flatMap fun line => [ruleLine w '├' '╌' '┼' '┤', line]
    | lines => lines
  top :: body ++ [bottom]

/-- The summary of a report for a terminal. -/
def summary (report : Report) : Text :=
  "Summary (".toList ++ (if report.dryRun then "dry run".toList else "converted".toList)
    ++ ") for ".toList ++ report.root ++ ":\n".toList ++ Text.join "\n" (tableLines report.rows)

end SpdxHeaders.Report
