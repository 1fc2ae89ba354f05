import SpdxHeaders.CommandLine.Parser
import SpdxHeaders.Conversion.Basic
import SpdxHeaders.NoticeFilter
import SpdxHeaders.Report.Progress
import SpdxHeaders.Report.Summary
import SpdxHeaders.Settings.File
import SpdxHeaders.Text.Quoted

/-!
# The program

What an invocation does to a file tree, and what it prints. The stages of an invocation are taken in
order: settings, root, preparation, conversion, summary. The first that fails ends it.
-/

namespace SpdxHeaders

/-- The stage that ended an invocation, with its error. -/
inductive Failure where
  /-- The settings file that was named is not usable. -/
  | settings (fault : Settings.Fault)
  /-- The root cannot be converted. -/
  | root (e : ConversionError)
  /-- The files cannot be collected. -/
  | preparation (fault : Collector.Fault)
  /-- A file cannot be converted, or the author list cannot be written. -/
  | conversion (e : ConversionError)
  /-- The summary cannot be written. -/
  | summary (fault : Report.SummaryFault)
  deriving DecidableEq, Repr

namespace Failure

/-- The exit status after an error. -/
def exitCode : Failure → Nat
  | .root e | .conversion e => e.exitCode
  | _ => 1

/-- A line for an error. -/
def line (message : Text) : Text :=
  "Error: ".toList ++ message ++ ['\n']

/-- What is printed for an error of a conversion. -/
def conversionMessage (colored dryRun : Bool) : ConversionError → Text
  | .invalidArguments reason => line (reason ++ ['\n']) ++ Progress.workflowHint ++ ['\n']
  | e => Progress.abort colored dryRun e

/-- What is printed for an error. -/
def message (colored dryRun : Bool) : Failure → Text
  | .settings fault => line ("Failed to load configuration: ".toList ++ fault.messageOfNamed)
  | .preparation fault => line (Conversion.preparationMessage fault)
  | .summary fault => line ("Failed to generate summary: ".toList ++ fault.message)
  | .root e | .conversion e => conversionMessage colored dryRun e

end Failure

/-- What an invocation did. -/
structure Execution where
  /-- The file tree after it. -/
  tree : FileTree
  /-- What was told. -/
  notices : List Notice := []
  /-- What was printed. -/
  printed : Text := []
  /-- What ended it. -/
  failure : Option Failure := none

namespace Execution

/-- The exit status. -/
def exitCode (x : Execution) : Nat :=
  (x.failure.map Failure.exitCode).getD 0

/-- Adds what was told before. -/
def after (notices : List Notice) (x : Execution) : Execution :=
  { x with notices := notices ++ x.notices }

end Execution

namespace Invocation

/-- The settings for an invocation: its ignored directories come last. -/
def settingsWith (i : Invocation) (s : Settings) : Settings :=
  { s with ignoredDirs := s.ignoredDirs ++ i.ignoredDirs }

/-- The choices of an invocation: the holders that it keeps come first. -/
def optionsWith (i : Invocation) (s : Settings) : ConversionOptions :=
  ⟨i.defaultHolder, i.keep ++ s.keep, i.dryRun⟩

/-- What is told about an invocation before its files are taken. -/
def openingNotices (root : Path) (options : ConversionOptions) : List Notice :=
  ⟨.debug, .program,
      "Processing ".toList ++ root ++ " (dry run: ".toList
        ++ (if options.dryRun then "true".toList else "false".toList) ++ ")".toList⟩
    :: if options.keep.isEmpty then []
      else [⟨.debug, .program, "Preserving holders: ".toList ++ Text.quotedList options.keep⟩]

/-- The last stage: the summary of a report. -/
def finish (i : Invocation) (colored : Bool) (time : Timestamp) (printed : Text) (report : Report)
    (t : FileTree) : Execution :=
  let printed := printed ++ Progress.completion colored report
  match report.summarize time i.format i.output t with
  | .ok (summary, t) => { tree := t, printed := printed ++ summary }
  | .error fault => { tree := t, printed, failure := some (.summary fault) }

/-- Runs a conversion that is prepared, and goes on to the summary. -/
def convert (i : Invocation) (colored : Bool) (time : Timestamp) (settings : Settings)
    (c : Conversion) (t : FileTree) : Execution :=
  let r := c.run t
  let printed :=
    (settings.ignoredDirs.flatMap fun dir => Progress.ignoredLine dir ++ ['\n'])
      ++ r.reports.flatMap (Progress.duringRun colored)
  match r.outcome with
  | .ok report => (finish i colored time printed report r.tree).after r.notices
  | .error e =>
    { tree := r.tree, notices := r.notices, printed, failure := some (.conversion e) }

/-- Runs an invocation on a file tree at a time. -/
def run (i : Invocation) (colored : Bool) (time : Timestamp) (t : FileTree) : Execution :=
  let (loading, settings) := Settings.load t i.settings
  Execution.after loading <|
    match settings with
    | .error fault => { tree := t, failure := some (.settings fault) }
    | .ok settings =>
      let options := i.optionsWith settings
      let settings := i.settingsWith settings
      match Conversion.resolveRoot t i.path options with
      | .error e => { tree := t, failure := some (.root e) }
      | .ok root =>
        let (preparing, conversion) := Conversion.prepare t root settings options
        Execution.after (openingNotices root options ++ preparing) <|
          match conversion with
          | .error fault => { tree := t, failure := some (.preparation fault) }
          | .ok c => convert i colored time settings c t

end Invocation

/-- What the program is started with besides its arguments. -/
structure Environment where
  /-- The choice of notices. -/
  notices : Option Text := none
  /-- Colours are wanted though there is no terminal. -/
  colored : Bool := false
  /-- Colours are wanted for notices too. -/
  coloredNotices : Bool := false
  /-- The time. -/
  time : Timestamp

/-- The environment that its variables make. -/
def Environment.ofVariables (vars : List (Text × Text)) (time : Timestamp) : Environment :=
  let forced := (vars.lookup "CLICOLOR_FORCE".toList).any (· ≠ "0".toList)
  let refused := (vars.lookup "NO_COLOR".toList).any (!·.isEmpty)
  { notices := vars.lookup "RUST_LOG".toList
    colored := forced
    coloredNotices := forced && !refused
    time }

/-- What is left when the program ends. -/
structure Completion where
  tree : FileTree
  exitCode : Nat
  /-- The text on standard output. -/
  output : Text
  /-- The text on standard error. -/
  errors : Text

namespace Program

/-- The notices that are shown, and what is said about a choice that means nothing. -/
def noticeFilter (env : Environment) (verbose : Bool) : Text × NoticeFilter :=
  match env.notices with
  | none => ([], .usual verbose)
  | some choice =>
    let (complaints, f) := NoticeFilter.ofText choice
    (complaints.flatMap (· ++ ['\n']), f)

/-- Runs the program for what its arguments ask for. -/
def execute (env : Environment) (i : Invocation) (t : FileTree) : Completion :=
  let (complaints, f) := noticeFilter env i.verbose
  let x := i.run env.colored env.time t
  let told := (x.notices.filter f.shows).flatMap (Notice.line env.coloredNotices)
  let failure := (x.failure.map (Failure.message env.colored i.dryRun)).getD []
  ⟨x.tree, x.exitCode, x.printed, complaints ++ told ++ failure⟩

/-- The end of a program whose arguments are refused. -/
def refuse (refusal : Refusal) (t : FileTree) : Completion :=
  match refusal.answer? with
  | some answer => ⟨t, refusal.exitCode, answer, []⟩
  | none => ⟨t, refusal.exitCode, [], refusal.message⟩

/-- Runs the program. -/
def run (env : Environment) (args : List Text) (t : FileTree) : Completion :=
  match Invocation.ofArguments args with
  | .ok i => execute env i t
  | .error refusal => refuse refusal t

end Program

end SpdxHeaders
