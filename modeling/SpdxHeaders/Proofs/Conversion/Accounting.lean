import SpdxHeaders.Proofs.Authors
import SpdxHeaders.Proofs.Conversion.AuthorList
import SpdxHeaders.Proofs.Conversion.DryRun
import SpdxHeaders.Proofs.Report

/-!
# What a report accounts for

A conversion reports each file that it meets, but for the exempt ones, and names authors only of
headers that it replaces: a step preserves this (`Accounted.step`), so it holds all along
(`accounted`). The report of a run that goes well is made of these reports alone, so its parts agree
with each other (`run_accounts`). What a run meets is what there is in the tree at the beginning if
no ignore rules are in a file that it replaces (`metFiles_of_rulesApart`). Otherwise it can miss a
file that was there (`file_lost_to_linked_rules`).
-/

namespace SpdxHeaders

/-- The header of the file is another one, or would be. -/
def Outcome.IsRewritten (o : Outcome) : Prop :=
  o = .replaced ∨ o = .wouldReplace

namespace Conversion

/-- The reports so far are on the files that were met, unless the conversion has stopped, and only
those on rewritten files name authors. -/
structure Accounted (c : Conversion) (files : List (List Text)) (s : Progress) : Prop where
  paths : s.failure = none → s.reports.map FileReport.path = c.reportedPaths files
  authors : ∀ f ∈ s.reports, f.authors ≠ [] → f.outcome.IsRewritten

variable {c : Conversion} {t : FileTree} {files : List (List Text)} {names : List Text}
  {s : Progress}

/-- The report on a file names authors only if the file is rewritten. -/
lemma isRewritten_of_report? {f : FileReport} (h : c.report? t names = some f)
    (hne : f.authors ≠ []) : f.outcome.IsRewritten := by
  cases reported_of_report? h with
  | rewritten =>
    cases c.options.dryRun with
    | true => exact .inr rfl
    | false => exact .inl rfl
  | _ => exact absurd rfl hne

/-- Meeting a file adds the report on it, unless it is exempt or the conversion stops. -/
lemma Accounted.step (h : Accounted c files s) :
    Accounted c (files ++ [names]) (c.step s (.file names)) := by
  cases hfailure : s.failure with
  | some e =>
    rw [step_of_failure (by simp [hfailure])]
    refine ⟨fun hnone => ?_, h.authors⟩
    rw [hfailure] at hnone
    cases hnone
  | none =>
    have hverdict := c.takeFile_verdict (s.tell []) names
    rw [← step_file hfailure, show (s.tell []).tree = s.tree from rfl,
      show (s.tell []).reports = s.reports from rfl] at hverdict
    -- A file that cannot be rewritten stops the conversion, so nothing is left to show.
    cases hv : c.verdict s.tree names with
    | error e =>
      rw [hv] at hverdict
      refine ⟨fun hnone => ?_, hverdict.1 ▸ h.authors⟩
      rw [hverdict.2] at hnone
      cases hnone
    | ok r =>
      rw [hv] at hverdict
      have hreport : c.report? s.tree names = r := by
        unfold report?
        rw [hv]
      have hgoing : c.failure? s.tree names = none := by
        unfold failure?
        rw [hv]
      refine ⟨fun _ => ?_, fun f hf => ?_⟩
      · rw [hverdict.1, List.map_append, h.paths hfailure, reportedPaths_append,
          ← map_path_report? hgoing, hreport]
      · rw [hverdict.1] at hf
        rcases List.mem_append.1 hf with hf | hf
        · exact h.authors f hf
        · exact isRewritten_of_report? (hreport.trans (Option.mem_toList.1 hf))

/-- Meeting something other than a file reports nothing. -/
lemma Accounted.step_other (h : Accounted c files s) {e : WalkEvent} (he : e.file? = none) :
    Accounted c files (c.step s e) := by
  have hstep : (c.step s e).reports = s.reports ∧ (c.step s e).failure = s.failure := by
    unfold Conversion.step
    split
    · exact ⟨rfl, rfl⟩
    · cases e with
      | file => cases he
      | excluded => exact ⟨rfl, rfl⟩
      | unreadable => exact ⟨rfl, rfl⟩
  refine ⟨fun hnone => ?_, hstep.1 ▸ h.authors⟩
  rw [hstep.1]
  exact h.paths (hstep.2.symm.trans hnone)

/-- All along, a conversion has reported the files that it met. -/
theorem accounted (c : Conversion) (t : FileTree) (es : List WalkEvent) :
    Accounted c (es.filterMap WalkEvent.file?) (es.foldl c.step { tree := t }) := by
  induction es using List.reverseRecOn with
  | nil => exact ⟨fun _ => rfl, fun _ => nofun⟩
  | append_singleton es e ih =>
    rw [List.foldl_append, List.foldl_cons, List.foldl_nil, List.filterMap_append]
    cases e with
    | file names => exact ih.step
    | excluded names =>
      rw [show [WalkEvent.excluded names].filterMap WalkEvent.file? = [] from rfl, List.append_nil]
      exact ih.step_other rfl
    | unreadable description =>
      rw [show [WalkEvent.unreadable description].filterMap WalkEvent.file? = [] from rfl,
        List.append_nil]
      exact ih.step_other rfl

/-- What a step adds to the reports is the report on the file that is met. -/
lemma report?_of_mem_step {e : WalkEvent} {f : FileReport} (hf : f ∈ (c.step s e).reports) :
    f ∈ s.reports ∨ ∃ names, e = .file names ∧ c.report? s.tree names = some f := by
  cases hfailure : s.failure with
  | some cause =>
    rw [step_of_failure (by simp [hfailure])] at hf
    exact .inl hf
  | none =>
    cases e with
    | excluded | unreadable =>
      unfold Conversion.step at hf
      rw [hfailure] at hf
      exact .inl hf
    | file names =>
      have hverdict := c.takeFile_verdict (s.tell []) names
      rw [← step_file hfailure, show (s.tell []).tree = s.tree from rfl,
        show (s.tell []).reports = s.reports from rfl] at hverdict
      cases hv : c.verdict s.tree names with
      | error cause =>
        rw [hv] at hverdict
        exact .inl (hverdict.1 ▸ hf)
      | ok r =>
        rw [hv] at hverdict
        rw [hverdict.1, List.mem_append, Option.mem_toList] at hf
        refine hf.imp_right fun hr => ⟨names, rfl, ?_⟩
        rw [report?, hv]
        exact hr

/-- All along, a report is one on a file that was met, as it stood when it was taken. -/
lemma report?_of_mem_foldl {es : List WalkEvent} {f : FileReport}
    (hf : f ∈ (es.foldl c.step { tree := t }).reports) :
    ∃ u, ∃ names ∈ es.filterMap WalkEvent.file?, c.report? u names = some f := by
  induction es using List.reverseRecOn with
  | nil => exact absurd hf List.not_mem_nil
  | append_singleton es e ih =>
    rw [List.foldl_append] at hf
    rcases report?_of_mem_step hf with hf | ⟨names, rfl, hreport⟩
    · obtain ⟨u, names, hmem, hreport⟩ := ih hf
      exact ⟨u, names, by rw [List.filterMap_append]; exact List.mem_append_left _ hmem, hreport⟩
    · refine ⟨_, names, ?_, hreport⟩
      rw [List.filterMap_append]
      exact List.mem_append_right _ List.mem_cons_self

/-- A run that goes well has stopped at no file, and reports on the files that it converted. -/
lemma reportOn_of_run {report : Report} (h : (c.run t).outcome = .ok report) :
    (c.convertFiles t).failure = none ∧ report = c.reportOn (c.convertFiles t).reports := by
  cases hdry : c.options.dryRun with
  | false =>
    obtain ⟨hgoing, hreport, -⟩ := append_of_run hdry h
    exact ⟨hgoing, hreport⟩
  | true =>
    cases hfailure : (c.convertFiles t).failure with
    | some e =>
      rw [(run_of_failure hfailure).1] at h
      cases h
    | none =>
      rw [run_of_dry hfailure hdry] at h
      exact ⟨rfl, (Except.ok.inj h).symm⟩

/-- A run that writes nothing reports no file as replaced, so no ignore rules are in one. -/
lemma RulesApart.of_dryRun (hdry : c.options.dryRun = true) :
    c.RulesApart t .replaced (c.run t).reports := by
  intro start _ f hf hreplaced
  rw [run_reports, convertFiles_eq] at hf
  obtain ⟨u, names, -, hreport⟩ := report?_of_mem_foldl hf
  obtain ⟨content, hwritten⟩ := written?_of_report? hreport hreplaced
  unfold written? at hwritten
  rw [hdry, if_pos rfl] at hwritten
  cases hwritten

/-- If no ignore rules are in a file that is replaced, a conversion meets the files that are
collected from the tree at the beginning. -/
theorem metFiles_of_rulesApart (ht : t.WellNamed)
    (hrules : c.RulesApart t .replaced (c.run t).reports) :
    c.metFiles t = c.collector.files t := by
  have hwalk : c.collector.events t = c.walk t := by
    rw [← Collector.walk_const]
    refine Collector.walk_congr (.refl t) (.refl _ t) fun start es hstart hes => ?_
    have hnow := (c.converted_of_isPrefix ht (.refl t) hes).tree
    refine .of_kept hnow.alike.symm fun dir hdir parts hparts l hl => ?_
    -- Rules that are not what they were are in a file that was replaced.
    by_contra hne
    obtain ⟨f, hf, hreplaced, hplace⟩ := (hnow.left l).differs_iff.1 (Ne.symm hne)
    refine hrules start hstart f ?_ hreplaced l hplace dir hdir parts hparts
      ((hnow.alike.follow ..).symm.trans hl)
    rw [run_reports, (converted_convertFiles c ht).reports]
    exact ((taken_isPrefix (hes.filterMap _)).sublist.filterMap _).subset hf
  unfold metFiles Collector.files
  rw [hwalk]
  rfl

/-- The names of a file that is met can stand in paths. -/
lemma isName_of_mem_metFiles (ht : t.WellNamed) (h : names ∈ c.metFiles t) :
    ∀ n ∈ names, IsName n := by
  obtain ⟨-, start, hplaced⟩ := c.metFiles_placed ht
  by_cases hne : names = []
  · subst hne
    exact fun _ => nofun
  · obtain ⟨bytes, hfile⟩ := (hplaced names h).file hne
    exact fun n hn => ht.isName_of_get? hfile n (List.mem_append_right start hn)

/-- No two files that are met have the same path. -/
lemma nodup_reportedPaths (ht : t.WellNamed) : (c.reportedPaths (c.metFiles t)).Nodup := by
  unfold reportedPaths
  refine List.Nodup.map_on (fun names hnames names' hnames' heq => ?_)
    ((c.metFiles_placed ht).1.filter _)
  exact c.collector.pathOf_inj (isName_of_mem_metFiles ht (List.mem_filter.1 hnames).1)
    (isName_of_mem_metFiles ht (List.mem_filter.1 hnames').1) heq

/-- The reports of a run are on the files that it got through. -/
lemma map_path_reports (c : Conversion) (ht : t.WellNamed) :
    (c.run t).reports.map FileReport.path = c.reportedPaths (c.taken t (c.metFiles t)) := by
  rw [run_reports, (converted_convertFiles c ht).reports]
  refine map_path_filterMap fun names hmem => ?_
  have hgoing := List.mem_takeWhile_imp hmem
  simpa using hgoing

/-- No file is reported twice. -/
lemma nodup_map_path_reports (c : Conversion) (ht : t.WellNamed) :
    ((c.run t).reports.map FileReport.path).Nodup := by
  rw [map_path_reports c ht]
  refine (nodup_reportedPaths (c := c) ht).sublist ?_
  exact ((List.takeWhile_sublist _).filter _).map _

/-- A run that gets through all files stops only if the author list cannot be appended. -/
lemma stopsAtAuthors (ht : t.WellNamed) (hgoing : (c.convertFiles t).failure = none)
    {e : ConversionError} (h : (c.run t).outcome = .error e) :
    c.StopsAtAuthors t (c.run t) e := by
  have hfailure := (converted_convertFiles c ht).failure.symm.trans hgoing
  have hdry : c.options.dryRun = false := by
    by_contra hdry
    rw [run_of_dry hgoing (by simpa using hdry)] at h
    cases h
  have hwriting := run_of_writing hgoing hdry
  split at hwriting
  case h_1 =>
    rw [hwriting.1] at h
    cases h
  case h_2 fault happend =>
    obtain ⟨houtcome, htree⟩ := hwriting
    rw [houtcome] at h
    cases h
    refine ⟨fun names hmem => ?_, ?_, fault, rfl, ?_⟩
    · exact failure?_eq_none_iff.1 (List.findSome?_eq_none_iff.1 hfailure names hmem)
    · rw [map_path_reports c ht, taken_of_going hfailure]
    · rw [htree, run_reports]
      exact happend

/-- A run stops at a file, or because the author list cannot be appended. -/
lemma stops_of_run (ht : t.WellNamed) {e : ConversionError} (h : (c.run t).outcome = .error e) :
    c.StopsAtFile t (c.run t) e ∨ c.StopsAtAuthors t (c.run t) e := by
  cases hfailure : (c.convertFiles t).failure with
  | some e' =>
    rw [(run_of_failure hfailure).1] at h
    cases h
    exact .inl (stopsAtFile ht hfailure)
  | none => exact .inr (stopsAtAuthors ht hfailure h)

/-- A run that goes well reports each file that it meets, but for the exempt ones, once and in the
order of the walk. These are the files that are collected from the tree at the beginning if no
ignore rules are in a file that the run replaces. The report keeps what was passed on, the tally
counts it by outcomes, and only reports on files that are rewritten name authors. The author list
holds these authors in strict order. -/
theorem run_accounts (c : Conversion) (t : FileTree) {report : Report}
    (h : (c.run t).outcome = .ok report) :
    report.files.map FileReport.path = c.reportedPaths (c.metFiles t) ∧
    (c.run t).reports = report.files ∧
    Report.Tallies report.tally report.files ∧
    (∀ f ∈ report.files, f.authors ≠ [] → f.outcome.IsRewritten) ∧
    report.authors.Pairwise (· < ·) ∧
    (∀ a, a ∈ report.authors ↔ ∃ f ∈ report.files, a ∈ f.authors) ∧
    report.authorsMarkdown = Authors.markdown report.authors ∧
    (t.WellNamed → (report.files.map FileReport.path).Nodup ∧
      (c.RulesApart t .replaced report.files →
        report.files.map FileReport.path = c.reportedPaths (c.collector.files t))) := by
  obtain ⟨hgoing, rfl⟩ := reportOn_of_run h
  have haccounted := accounted c t (c.walk t)
  rw [← convertFiles_eq] at haccounted
  have hpaths := haccounted.paths hgoing
  refine ⟨hpaths, run_reports c t, Report.tallies_tallyOf _, haccounted.authors,
    Authors.pairwise_ofEntries _, fun a => Authors.mem_ofEntries.trans List.mem_flatMap, rfl,
    fun ht => ⟨?_, fun hrules => ?_⟩⟩
  · exact hpaths ▸ nodup_reportedPaths ht
  · have hmet := metFiles_of_rulesApart ht (c := c) (by rw [run_reports]; exact hrules)
    exact hpaths.trans (congrArg c.reportedPaths hmet)

/-- Files with a verdict that stops nothing have the reports that the verdicts give. -/
lemma reports_of_verdicts {rs : List (Option FileReport)}
    (h : List.Forall₂ (fun names r => c.verdict t names = .ok r) files rs) :
    files.filterMap (c.report? t) = rs.reduceOption ∧
      files.findSome? (c.failure? t) = none := by
  induction h with
  | nil => exact ⟨rfl, rfl⟩
  | @cons names r files rs hr _ ih =>
    have hreport : c.report? t names = r := by
      rw [report?, hr]
    have hgoing : c.failure? t names = none := by
      rw [failure?, hr]
    refine ⟨?_, by rw [List.findSome?_cons, hgoing, ih.2]⟩
    cases r with
    | none => rw [List.filterMap_cons_none hreport, ih.1, List.reduceOption_cons_of_none]
    | some f => rw [List.filterMap_cons_some hreport, ih.1, List.reduceOption_cons_of_some]

/-- A dry run that no verdict stops goes well, with the reports that the verdicts give. -/
lemma outcome_of_verdicts (ht : t.WellNamed) (hdry : c.options.dryRun = true)
    {rs : List (Option FileReport)}
    (h : List.Forall₂ (fun names r => c.verdict t names = .ok r) (c.metFiles t) rs) :
    (c.run t).outcome = .ok (c.reportOn rs.reduceOption) := by
  obtain ⟨hreports, hgoing⟩ := reports_of_verdicts h
  have hconverted := converted_convertFiles c ht
  rw [run_of_dry (hconverted.failure.trans hgoing) hdry, hconverted.reports, taken_of_going hgoing,
    hreports]

section Previewed

/-- A conversion that writes nothing and does not report logs. -/
def previewing : Conversion :=
  { plainConversion with options := { dryRun := true }, settings := { exemptions := [".log"] } }

/-- The names of a file that is not reported. -/
def logFile : List Text := ["b.log"]

/-- The names of a file of an unknown kind. -/
def noteFile : List Text := ["c.txt"]

/-- A tree with both files and one to rewrite. -/
def previewed : FileTree :=
  authored [(logFile, .file ⟨#[]⟩), (noteFile, .file ⟨#[]⟩)]

/-- The reports on the files of this tree. -/
def previewedReports : List FileReport :=
  [⟨"/a.h", .wouldReplace, ["Jo"]⟩, ⟨"/c.txt", .unhandled, []⟩]

/-- The preview meets all three files. -/
lemma metFiles_previewed : previewing.metFiles previewed = [firstFile, logFile, noteFile] := by
  refine metFiles_of_files ["a.h", "b.log", "c.txt"] rfl (by decide) rfl (by cbv) (by cbv) ?_
  simp only [List.forall_mem_cons]
  exact ⟨⟨rfl, _, rfl⟩, ⟨rfl, _, rfl⟩, ⟨rfl, _, rfl⟩, by simp⟩

/-- Rewriting would take the name out of the first file. -/
lemma rewritingOf_previewed :
    previewing.rewritingOf previewed .block firstFile = .ok (.changed rewrittenText ["Jo"]) :=
  rewritingOf_authored _

/-- The first file would be replaced. -/
lemma verdict_previewed :
    previewing.verdict previewed firstFile = .ok (some ⟨"/a.h", .wouldReplace, ["Jo"]⟩) := by
  have hroute : Route.ofPath previewing.settings (Path.ofNames firstFile) = .rewrite .block := by
    decide
  unfold verdict
  simp only [hroute, rewritingOf_previewed]
  rfl

/-- The preview reports the file to rewrite and the one of an unknown kind. -/
lemma outcome_previewed :
    (previewing.run previewed).outcome = .ok (previewing.reportOn previewedReports) := by
  have hexempt : Route.ofPath previewing.settings (Path.ofNames logFile) = .exempt := by
    decide
  have hunhandled : Route.ofPath previewing.settings (Path.ofNames noteFile) = .unhandled := by
    decide
  have hlog : previewing.verdict previewed logFile = .ok none := by
    unfold verdict
    rw [hexempt]
  have hnote : previewing.verdict previewed noteFile
      = .ok (some ⟨"/c.txt", .unhandled, []⟩) := by
    unfold verdict
    rw [hunhandled]
    rfl
  have hwell : previewed.WellNamed := by decide
  have hverdicts : List.Forall₂ (fun names r => previewing.verdict previewed names = .ok r)
      (previewing.metFiles previewed) [some ⟨"/a.h", .wouldReplace, ["Jo"]⟩, none,
        some ⟨"/c.txt", .unhandled, []⟩] := by
    rw [metFiles_previewed]
    exact .cons verdict_previewed (.cons hlog (.cons hnote .nil))
  exact outcome_of_verdicts hwell rfl hverdicts

/-- A preview accounts for the files that it meets. -/
theorem run_accounts_previewed :
    ∃ report, (previewing.run previewed).outcome = .ok report ∧
      report.files = previewedReports ∧
      previewing.metFiles previewed = [firstFile, logFile, noteFile] ∧
      report.files.map FileReport.path = previewing.reportedPaths (previewing.metFiles previewed) ∧
      (previewing.run previewed).reports = report.files ∧
      Report.Tallies [(.wouldReplace, 1), (.unhandled, 1)] report.files ∧
      ("Jo" : Text) ∈ report.authors ∧ report.authorsMarkdown = Authors.markdown report.authors ∧
      (report.files.map FileReport.path).Nodup ∧
      previewing.RulesApart previewed .replaced report.files ∧
      report.files.map FileReport.path
        = previewing.reportedPaths (previewing.collector.files previewed) := by
  obtain ⟨hpaths, hreports, htallies, -, -, hauthors, hmarkdown, hnamed⟩ :=
    run_accounts previewing previewed outcome_previewed
  obtain ⟨hnodup, hfiles⟩ := hnamed (by decide)
  have hrules := RulesApart.of_dryRun (c := previewing) (t := previewed) rfl
  rw [hreports] at hrules
  exact ⟨_, outcome_previewed, rfl, metFiles_previewed, hpaths, hreports, htallies,
    (hauthors _).2 ⟨_, List.mem_cons_self, List.mem_cons_self⟩, hmarkdown, hnodup, hrules,
    hfiles hrules⟩

end Previewed

section Vendoring

/-- A conversion to which the files in the directory `b` are vendored. -/
def vendoring : Conversion :=
  { plainConversion with settings := { vendorMarkers := ["/b/"] } }

/-- A run that goes well can miss a file that was there: what it writes to the first file makes it
ignore the second. -/
theorem file_lost_to_linked_rules :
    let t := linkedTree admittingText
    vendoring.reportedPaths (vendoring.collector.files t) = ["/a.html", "/b/-->x.h"] ∧
      ∃ report, (vendoring.run t).outcome = .ok report ∧
        report.files.map FileReport.path = ["/a.html"] := by
  intro t
  have ht : t.WellNamed := by decide
  have hroute : Route.ofPath vendoring.settings (Path.ofNames withHeader) = .rewrite .markup := by
    decide
  have hrewriting : vendoring.rewritingOf t .markup withHeader = .ok (.changed ignoringText []) :=
    rewritingOf_withHeader false
  have hmet : vendoring.metFiles t = [withHeader] :=
    metFiles_linkedTree rfl (replacement?_of_changed hroute hrewriting)
  have hgoing : ∀ names ∈ vendoring.metFiles t, vendoring.failure? t names = none := by
    rw [hmet, List.forall_mem_singleton]
    exact failure?_of_rewritingOf hroute hrewriting
  have hlist : t.locate .creation vendoring.authorsFile = .ok ["AUTHORS.md"] := by cbv
  obtain ⟨⟨report, hreport⟩, -⟩ := run_of_going ht hgoing rfl hlist (.inl rfl)
  obtain ⟨-, rfl⟩ := reportOn_of_run hreport
  refine ⟨?_, _, hreport, ?_⟩
  · change vendoring.reportedPaths (plainConversion.collector.files t) = _
    rw [files_linkedTree]
    decide
  · change (vendoring.convertFiles t).reports.map FileReport.path = _
    rw [← run_reports, map_path_reports vendoring ht,
      taken_of_going (List.findSome?_eq_none_iff.2 hgoing), hmet]
    decide

end Vendoring

end Conversion

end SpdxHeaders
