import SpdxHeaders.Proofs.Collector.Passage
import SpdxHeaders.Proofs.Conversion.Accounting
import SpdxHeaders.Proofs.Program

/-!
# What a run shows of its files

Files are shown at two times: as soon as their outcome is known, or, if nothing is known about their
kind, when all files are done (`completion_eq`). So a run that goes well shows each file of its
report once, and a run that stops shows what it knew by then (`run_shows`). No file is shown that a
run has to pass over (`admits_of_mem_reports`).
-/

namespace SpdxHeaders

namespace Progress

variable {colored : Bool} {files : List FileReport} {report : Report}

/-- The lines that show files. -/
def lines (colored : Bool) (files : List FileReport) : Text :=
  files.flatMap fun f => fileLine colored f ++ ['\n']

/-- The lines for the directories that are not walked. -/
def announcement (dirs : List Text) : Text :=
  dirs.flatMap fun dir => ignoredLine dir ++ ['\n']

/-- The files that are shown as soon as their outcome is known. -/
def knownFiles (files : List FileReport) : List FileReport :=
  files.filter (·.outcome ≠ .unhandled)

/-- What is printed behind the files when all of them are done. -/
def closing (colored : Bool) (report : Report) : Text :=
  completion colored { report with files := [] }

/-- During a run the files of known kinds are shown. -/
lemma flatMap_duringRun :
    files.flatMap (duringRun colored) = lines colored (knownFiles files) := by
  induction files with
  | nil => rfl
  | cons f files ih =>
    rw [List.flatMap_cons, ih, duringRun, lines, lines, knownFiles, knownFiles]
    by_cases hf : f.outcome = .unhandled
    · rw [if_pos hf, List.filter_cons_of_neg (by simp [hf]), List.nil_append]
    · rw [if_neg hf, List.filter_cons_of_pos (by simp [hf]), List.flatMap_cons]

/-- When all files are done those of unknown kinds are shown. -/
lemma completion_eq :
    completion colored report = lines colored report.unhandled ++ closing colored report := by
  simp only [closing, completion, lines, Report.unhandled, List.filter_nil, List.flatMap_nil,
    List.nil_append, List.append_assoc]

/-- A file is shown at one of the two times. -/
lemma knownFiles_append_unhandled_perm (report : Report) :
    (knownFiles report.files ++ report.unhandled).Perm report.files := by
  have hunhandled : report.unhandled
      = report.files.filter fun f => !decide (f.outcome ≠ .unhandled) := by
    simp [Report.unhandled]
  rw [hunhandled]
  exact List.filter_append_perm _ report.files

end Progress

namespace Conversion

/-- The tree that a walk sees when it has met something: what the conversion has made of it. -/
def seen (c : Conversion) (t : FileTree) (es : List WalkEvent) : FileTree :=
  (es.foldl c.step { tree := t }).tree

/-- A file that a conversion reports. It is not exempt, no directory on the way to it is ignored,
the manifest does not exclude it, and no ignore rule that holds when it is met skips it. -/
structure Admits (c : Conversion) (t : FileTree) (names : List Text) : Prop where
  met : names ∈ c.metFiles t
  route : Route.ofPath c.settings (Path.ofNames names) ≠ .exempt
  kept : Collector.Kept t c.settings.ignoredDirs c.collector.manifest names
  meets : ∃ start, t.locate .content c.root = .ok start ∧
    Collector.Meets c.collector (c.seen t) start names

end Conversion

namespace Invocation

variable {i : Invocation} {t : FileTree} {settings : Settings} {c : Conversion}

/-- What is printed of the summary of a report. -/
def summaryText (i : Invocation) (time : Timestamp) (report : Report) (t : FileTree) : Text :=
  match report.summarize time i.format i.output t with
  | .ok (summary, _) => summary
  | .error _ => []

/-- What is reported is not to be passed over. -/
lemma Prepares.admits_of_mem_reports (h : i.Prepares t settings c) (ht : t.WellNamed) {f : FileReport}
    (hf : f ∈ (c.run t).reports) :
    ∃ names, c.Admits t names ∧ f.path = c.collector.pathOf names := by
  rw [Conversion.run_reports, Conversion.convertFiles_eq] at hf
  obtain ⟨u, names, hmet, hreport⟩ := Conversion.report?_of_mem_foldl hf
  obtain ⟨hpath, hroute⟩ := (Conversion.reported_of_report? hreport).route_ne_exempt
  obtain ⟨start, hstart, hdir⟩ := Conversion.exists_start_of_resolveRoot h.resolved
  obtain ⟨collector, hcollector, hc⟩ := Conversion.prepare_eq_ok_iff.1 h.prepared
  have hshape : c.collector
      = ⟨c.root, c.settings.ignoredDirs.map Collector.trimSlashes, c.collector.manifest⟩ := by
    rw [hc]
    exact Collector.eq_of_prepare hcollector
  have hmem : WalkEvent.file names ∈ c.collector.walk (c.seen t) := by
    obtain ⟨e, he, hnames⟩ := List.mem_filterMap.1 hmet
    cases e <;> cases hnames
    exact he
  have hmeets : Collector.Meets c.collector (c.seen t) start names :=
    Collector.meets_of_mem_walk (by rw [hshape]; exact hstart) hdir hmem
  refine ⟨names, ⟨hmet, hroute, ?_, start, hstart, hmeets⟩, hpath⟩
  rw [hshape] at hmeets
  exact hmeets.kept (fun es => (c.alike_foldl_step { tree := t } es).garbled)
    (Conversion.isName_of_mem_metFiles ht hmet)

/-- An invocation whose conversion is prepared prints what the conversion does. -/
lemma Prepares.printed_run (h : i.Prepares t settings c) (colored : Bool) (time : Timestamp) :
    (i.run colored time t).printed
      = Progress.announcement c.settings.ignoredDirs
        ++ Progress.lines colored (Progress.knownFiles (c.run t).reports)
        ++ match (c.run t).outcome with
          | .ok report => Progress.lines colored report.unhandled
            ++ Progress.closing colored report ++ i.summaryText time report (c.run t).tree
          | .error _ => [] := by
  have hsettings : c.settings = i.settingsWith settings :=
    (Conversion.eq_of_prepare h.prepared).2.2.1
  unfold run
  dsimp only [Execution.after]
  rw [h.loaded]
  dsimp only
  rw [h.resolved]
  dsimp only
  rw [h.prepared, ← hsettings]
  dsimp only
  unfold convert
  dsimp only
  rw [Progress.flatMap_duringRun]
  cases (c.run t).outcome with
  | error e => exact (List.append_nil _).symm
  | ok report =>
    dsimp only [Execution.after]
    unfold finish summaryText
    rw [Progress.completion_eq]
    cases report.summarize time i.format i.output (c.run t).tree <;>
      simp [Progress.announcement]

/-- An invocation that does not get to its run prints nothing. -/
lemma printed_run_of_unprepared (hnone : ∀ settings c, ¬ i.Prepares t settings c) (colored : Bool)
    (time : Timestamp) : (i.run colored time t).printed = [] := by
  unfold run
  dsimp only [Execution.after]
  split
  case h_1 => rfl
  case h_2 settings hsettings =>
    split
    case h_1 => rfl
    case h_2 root hroot =>
      split
      case h_1 => rfl
      case h_2 c hc =>
        have hroot' : c.root = root := (Conversion.eq_of_prepare hc).1
        subst hroot'
        exact absurd ⟨hsettings, hroot, hc⟩ (hnone settings c)

end Invocation

namespace Program
open Invocation

variable {args : List Text} {i : Invocation}

/-- The program prints what the invocation does that its arguments ask for. -/
lemma output_run (hargs : Invocation.ofArguments args = .ok i) (env : Environment) (t : FileTree) :
    (run env args t).output = (i.run env.colored env.time t).printed := by
  unfold run
  rw [hargs]
  rfl

/-- What the program prints of the files of a run. Behind the lines for the ignored directories
there is a line for each file whose outcome was known, in the order of the walk. If the run goes
well, the other files of its report follow in this order, so that each file of the report has one
line, and then come the closing lines and the summary. If the run stops, nothing follows: the lines
are those of the files before the one that it stops at, or of all if it cannot append the author
list. No two files that are shown have the same path, and none is to be passed over. Without a run
no file is shown. -/
theorem run_shows (hargs : Invocation.ofArguments args = .ok i) (env : Environment) (t : FileTree)
    (ht : t.WellNamed) :
    (∀ settings c, i.Prepares t settings c →
      let reports := (c.run t).reports
      let shown := Progress.announcement c.settings.ignoredDirs
        ++ Progress.lines env.colored (Progress.knownFiles reports)
      (∀ f ∈ reports, ∃ names, c.Admits t names ∧ f.path = c.collector.pathOf names) ∧
      (reports.map FileReport.path).Nodup ∧
      match (c.run t).outcome with
      | .ok report =>
        report.files = reports ∧
        report.files.map FileReport.path = c.reportedPaths (c.metFiles t) ∧
        (Progress.knownFiles report.files ++ report.unhandled).Perm report.files ∧
        (run env args t).output = shown ++ (Progress.lines env.colored report.unhandled
          ++ Progress.closing env.colored report ++ i.summaryText env.time report (c.run t).tree)
      | .error e => (run env args t).output = shown ∧
        (c.StopsAtFile t (c.run t) e ∨ c.StopsAtAuthors t (c.run t) e)) ∧
    ((∀ settings c, ¬ i.Prepares t settings c) → (run env args t).output = []) := by
  rw [output_run hargs]
  refine ⟨fun settings c hprepares => ?_, fun hnone => printed_run_of_unprepared hnone _ _⟩
  have hprinted := hprepares.printed_run env.colored env.time
  refine ⟨fun f => hprepares.admits_of_mem_reports ht, c.nodup_map_path_reports ht, ?_⟩
  cases houtcome : (c.run t).outcome with
  | ok report =>
    rw [houtcome] at hprinted
    obtain ⟨hgoing, hreport⟩ := Conversion.reportOn_of_run houtcome
    have hfiles : report.files = (c.run t).reports := by
      rw [hreport, Conversion.run_reports]
      rfl
    have hfailure := (Conversion.converted_convertFiles c ht).failure.symm.trans hgoing
    refine ⟨hfiles, ?_, Progress.knownFiles_append_unhandled_perm report, hprinted⟩
    rw [hfiles, Conversion.map_path_reports c ht, Conversion.taken_of_going hfailure]
  | error e =>
    rw [houtcome, List.append_nil] at hprinted
    exact ⟨hprinted, Conversion.stops_of_run ht houtcome⟩

section Showing
open Conversion

/-- A tree with a file to rewrite and one of an unknown kind. -/
def shownTree : FileTree :=
  authored [(noteFile, .file ⟨#[]⟩)]

/-- A dry run for this tree. -/
def showing : Invocation where
  defaultHolder := "Acme Inc."
  path := "/"
  dryRun := true

/-- The conversion that is prepared for it. -/
def shownConversion : Conversion :=
  { plainConversion with options := showing.optionsWith {} }

/-- The reports on the files of the tree. -/
def shownReports : List FileReport :=
  [⟨"/a.h", .wouldReplace, ["Jo"]⟩, ⟨"/c.txt", .unhandled, []⟩]

/-- The invocation prepares a conversion of all files. -/
lemma prepares_showing : showing.Prepares shownTree {} shownConversion := by
  have hcanonical : shownTree.canonical showing.path = .ok "/".toList := by cbv
  have hdir : shownTree.isDirectory "/" = true := by cbv
  refine ⟨by cbv, ?_, ?_⟩
  · unfold resolveRoot
    rw [hcanonical]
    dsimp only
    rw [hdir]
    rfl
  · unfold prepare Collector.prepare
    rw [Collector.manifestEntries_of_absent (by cbv)]
    rfl

/-- The conversion meets both files. -/
lemma metFiles_shownTree : shownConversion.metFiles shownTree = [firstFile, noteFile] := by
  refine metFiles_of_files ["a.h", "c.txt"] rfl (by decide) rfl (by cbv) (by cbv) ?_
  simp only [List.forall_mem_cons]
  exact ⟨⟨rfl, _, rfl⟩, ⟨rfl, _, rfl⟩, by simp⟩

/-- The run goes well. -/
lemma outcome_shownTree :
    (shownConversion.run shownTree).outcome = .ok (shownConversion.reportOn shownReports) := by
  have hroute : Route.ofPath shownConversion.settings (Path.ofNames firstFile) = .rewrite .block := by
    decide
  have hunhandled : Route.ofPath shownConversion.settings (Path.ofNames noteFile) = .unhandled := by
    decide
  have hrewriting : shownConversion.rewritingOf shownTree .block firstFile
      = .ok (.changed rewrittenText ["Jo"]) :=
    (rewritingOf_of_get? (c := shownConversion) (locate_authored _) rfl .block).trans
      (Rewriting.ofContent_of_parse (b := ⟨[], authoredText, [], "*/"⟩)
        (a := ⟨["Jo"], none, [], "AGPL-3.0-or-later"⟩) rfl rfl rfl)
  have hfirst : shownConversion.verdict shownTree firstFile
      = .ok (some ⟨"/a.h", .wouldReplace, ["Jo"]⟩) := by
    unfold verdict
    simp only [hroute, hrewriting]
    rfl
  have hnote : shownConversion.verdict shownTree noteFile
      = .ok (some ⟨"/c.txt", .unhandled, []⟩) := by
    unfold verdict
    rw [hunhandled]
    rfl
  have hwell : shownTree.WellNamed := by decide
  have hverdicts : List.Forall₂ (fun names r => shownConversion.verdict shownTree names = .ok r)
      (shownConversion.metFiles shownTree) [some ⟨"/a.h", .wouldReplace, ["Jo"]⟩,
        some ⟨"/c.txt", .unhandled, []⟩] := by
    rw [metFiles_shownTree]
    exact .cons hfirst (.cons hnote .nil)
  exact outcome_of_verdicts hwell rfl hverdicts

/-- A dry run shows the file that it would replace, and then the one of an unknown kind. -/
theorem run_shows_shownTree :
    let args : List Text := ["convert", "Acme Inc.", "/", "--dry-run"]
    ∃ rest, (run { time := .ofSeconds 0 0 } args shownTree).output
        = " ├─ ☑️  /a.h would replace\n ├─ ❌ /c.txt Not handled\n".toList ++ rest ∧
      ∀ f ∈ shownReports, ∃ names, shownConversion.Admits shownTree names ∧
        f.path = shownConversion.collector.pathOf names := by
  intro args
  have hargs : Invocation.ofArguments args = .ok showing := by rfl
  have hwell : shownTree.WellNamed := by decide
  obtain ⟨hrun, -⟩ := run_shows hargs { time := .ofSeconds 0 0 } shownTree hwell
  obtain ⟨hadmits, -, hshown⟩ := hrun {} shownConversion prepares_showing
  rw [outcome_shownTree] at hshown
  obtain ⟨hfiles, -, -, houtput⟩ := hshown
  have hreports : (shownConversion.run shownTree).reports = shownReports := hfiles.symm
  rw [hreports] at houtput hadmits
  have hlines : Progress.announcement shownConversion.settings.ignoredDirs
      ++ Progress.lines false (Progress.knownFiles shownReports)
      ++ Progress.lines false (shownConversion.reportOn shownReports).unhandled
        = " ├─ ☑️  /a.h would replace\n ├─ ❌ /c.txt Not handled\n" := by
    rfl
  rw [List.append_assoc (Progress.lines _ _), ← List.append_assoc] at houtput
  exact ⟨_, houtput.trans (congrArg (· ++ _) hlines), hadmits⟩

end Showing

end Program

end SpdxHeaders
