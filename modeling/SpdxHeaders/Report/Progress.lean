import SpdxHeaders.Error
import SpdxHeaders.Report.Basic
import SpdxHeaders.Terminal

/-!
# Progress lines

The lines that show a conversion while it runs, coloured or not.
-/

namespace SpdxHeaders

namespace Progress

/-- The text in a colour, if colours are wanted. -/
def paint (colored : Bool) (color : Terminal.Color) (t : Text) : Text :=
  Terminal.paint colored [.foreground color] t

/-- The line for a directory that is not walked. -/
def ignoredLine (dir : Text) : Text :=
  " ├─ ◽ ".toList ++ dir ++ " skipped".toList

/-- The line for a file. -/
def fileLine (colored : Bool) (f : FileReport) : Text :=
  match f.outcome with
  | .alreadyTagged =>
    " ├─ ✅ ".toList ++ paint colored .green (f.path ++ " SPDX".toList)
  | .wouldReplace | .replaced =>
    " ├─ ☑️  ".toList ++ paint colored .cyan (f.path ++ " ".toList ++ f.outcome.label)
  | .vendored =>
    " ├─ 🔶 ".toList ++ paint colored .yellow (f.path ++ " skipped".toList)
  | .ignorable => " ├─ ◽ ".toList ++ f.path ++ " skipped".toList
  | .unhandled =>
    " ├─ ❌ ".toList ++ paint colored .red (f.path ++ " Not handled".toList)

/-- What is printed for a file as soon as its outcome is known. Files of unknown kinds are listed
at the end. -/
def duringRun (colored : Bool) (f : FileReport) : Text :=
  if f.outcome = .unhandled then [] else fileLine colored f ++ ['\n']

/-- What is printed when all files are done. -/
def completion (colored : Bool) (report : Report) : Text :=
  (report.unhandled.flatMap fun f => fileLine colored f ++ ['\n']) ++ ['\n'] ++
    if report.dryRun then
      " └─ ✅ ".toList ++ paint colored .green "Can generate AUTHORS.md" ++ "\n\n".toList
        ++ report.authorsMarkdown ++ ['\n']
    else
      " └─ ✅ ".toList
        ++ paint colored .green ("Appended ".toList ++ report.authorsFile) ++ ['\n']

/-- How to go on after a failure. -/
def workflowHint : Text :=
  "Run the script with --dry-run until all files can be converted.\n".toList
    ++ "Otherwise the author list can not be generated correctly.".toList

/-- The lines that show an error: the file, the reason and the header line to blame. -/
def failure (colored : Bool) (e : ConversionError) : Text :=
  let reason : Text :=
    match e.rootCause with
    | .unrecognizedLicense _ => "Unrecognized license:"
    | .unrecognizedCopyright _ => "Unrecognized copyright:"
    | cause => cause.message
  let place : Text :=
    match e.path? with
    | some p => p ++ " ".toList
    | none => []
  let line : Text :=
    match e.offendingLine? with
    | some l => "\n    └─ ".toList ++ l
    | none => []
  " ├─ ❌ ".toList ++ paint colored .red (place ++ reason) ++ line

/-- The lines that say that a conversion was given up. -/
def banner : List Text :=
  ["                                                                      ",
   "                            ❌ ABORTING ❌                            ",
   " Please manually fix the error pointed out above and rerun the script.",
   "                                                                      "]

/-- A line of the banner, white on red if colours are wanted. -/
def bannerLine (colored : Bool) (line : Text) : Text :=
  Terminal.paint colored [.foreground .white, .background .red] line

/-- What is printed when a conversion is given up. -/
def abort (colored dryRun : Bool) (e : ConversionError) : Text :=
  failure colored e ++ ['\n'] ++ (banner.flatMap fun line => bannerLine colored line ++ ['\n'])
    ++ ['\n'] ++ if dryRun then [] else paint colored .green workflowHint ++ ['\n']

end Progress

end SpdxHeaders
