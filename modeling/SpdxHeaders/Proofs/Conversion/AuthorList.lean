import SpdxHeaders.Proofs.Authors
import SpdxHeaders.Proofs.Conversion.Footprint

/-!
# Whose names a run keeps

A header that a run replaces loses the names of its authors, and the author list takes them up. It
does if the run goes well (`run_lists_authors`). A run that stops appends no list, not even for the
headers that it has replaced before: their authors are named by its reports only
(`author_lost_in_stopped_run`).
-/

namespace SpdxHeaders.Conversion

/-- The bytes end with a text in which the author has a line of its own. -/
def Lists (bytes : ByteArray) (author : Text) : Prop :=
  ∃ old text, bytes = old ++ Text.toUtf8 text ∧ '\n' :: Authors.line author <:+: text

/-- A run of a conversion replaced the header of the file at a location. -/
def ReplacedAt (t : FileTree) (r : Result) (l : Location) : Prop :=
  ∃ f ∈ r.reports, f.outcome = .replaced ∧ t.locate .content f.path = .ok l

variable {c : Conversion} {t : FileTree}

/-- The author list of files holds every author of a file. -/
lemma lists_reportOn {files : List FileReport} {f : FileReport} {author : Text} (hf : f ∈ files)
    (hauthor : author ∈ f.authors) (old : ByteArray) :
    Lists (old ++ (c.reportOn files).authorsMarkdown.toUtf8) author := by
  have hmem : author ∈ Authors.ofEntries (files.flatMap FileReport.authors) :=
    Authors.mem_ofEntries.2 (List.mem_flatMap.2 ⟨f, hf, hauthor⟩)
  exact ⟨old, _, rfl, Authors.line_isInfix_markdown hmem⟩

/-- A file that a run reports as replaced is one that rewriting changes, and its authors are those
that its header named. -/
lemma exists_changesTo_of_run (c : Conversion) (ht : t.WellNamed) {f : FileReport}
    (hf : f ∈ (c.run t).reports) (hreplaced : f.outcome = .replaced) :
    ∃ content, c.ChangesTo t f content := by
  rw [run_reports, (converted_convertFiles c ht).reports] at hf
  obtain ⟨names, -, hreport⟩ := List.mem_filterMap.1 hf
  obtain ⟨content, -, -, hchanges⟩ := exists_changesTo hreport hreplaced
  exact ⟨content, hchanges⟩

/-- A run that writes stops and leaves what the conversion of the files has left, or it appends the
author list to the file that is left of it. -/
lemma run_ends (hdry : c.options.dryRun = false) (ht : t.WellNamed) :
    (∃ e, (c.run t).outcome = .error e ∧ (c.run t).tree = (c.convertFiles t).tree) ∨
      ∃ a, (c.run t).outcome = .ok (c.reportOn (c.run t).reports) ∧
        t.locate .creation c.authorsFile = .ok a ∧ a ≠ [] ∧
        (c.run t).tree = (c.convertFiles t).tree.insert a (.file
          (FileTree.held ((c.convertFiles t).tree.get? a) ++
            (c.reportOn (c.run t).reports).authorsMarkdown.toUtf8)) := by
  rw [run_reports]
  cases hfailure : (c.convertFiles t).failure with
  | some e => exact .inl ⟨e, run_of_failure hfailure⟩
  | none =>
    have hwriting := run_of_writing hfailure hdry
    split at hwriting
    case h_1 t' happend =>
      obtain ⟨a, ha, hroot, ht'⟩ := FileTree.append_eq happend
      rw [(converted_convertFiles c ht).tree.alike.locate] at ha
      exact .inr ⟨a, hwriting.1, ha, hroot, hwriting.2.trans ht'⟩
    case h_2 fault happend => exact .inl ⟨_, hwriting⟩

/-- A run that goes well lists every author that a replaced header named in the file of the author
list. A run that stops appends no list: it changes nothing but the replaced headers. -/
theorem run_lists_authors (c : Conversion) (t : FileTree) (hdry : c.options.dryRun = false)
    (ht : t.WellNamed) :
    (∀ f ∈ (c.run t).reports, f.outcome = .replaced → ∃ content, c.ChangesTo t f content) ∧
    match (c.run t).outcome with
    | .ok _ => ∃ a bytes, t.locate .creation c.authorsFile = .ok a ∧
        (c.run t).tree.get? a = some (.file bytes) ∧
        (∀ l, l ≠ a → ((c.run t).tree.get? l ≠ t.get? l ↔ ReplacedAt t (c.run t) l)) ∧
        ∀ f ∈ (c.run t).reports, f.outcome = .replaced → ∀ author ∈ f.authors, Lists bytes author
    | .error _ => ∀ l, (c.run t).tree.get? l ≠ t.get? l ↔ ReplacedAt t (c.run t) l := by
  refine ⟨fun f hf => exists_changesTo_of_run c ht hf, ?_⟩
  have hleft := c.left_convertFiles ht
  rw [← run_reports] at hleft
  rcases run_ends hdry ht with ⟨e, houtcome, htree⟩ | ⟨a, houtcome, ha, hroot, htree⟩
  · rw [houtcome, htree]
    exact fun l => (hleft l).differs_iff
  · rw [houtcome, htree]
    refine ⟨a, _, ha, FileTree.get?_insert hroot ▸ if_pos rfl, fun l hl => ?_,
      fun f hf _ author hauthor => lists_reportOn hf hauthor _⟩
    rw [FileTree.get?_insert hroot, if_neg hl]
    exact (hleft l).differs_iff

section Authored
open Collector

/-- The text of a file whose header names an author. -/
def authoredText : Text := "/*@author Jo\n@license AGPL-3.0-or-later*/"

/-- A tree with this file, and with others. -/
def authored (others : List (Location × Node)) : FileTree where
  nodes := (firstFile, .file authoredText.toUtf8) :: others

/-- The report on the file that names its author. -/
def authoredReport : FileReport :=
  ⟨plainConversion.collector.pathOf firstFile, .replaced, ["Jo"]⟩

variable (others : List (Location × Node))

/-- The path of the file that names its author leads to it. -/
lemma locate_authored :
    (authored others).locate .content (plainConversion.collector.pathOf firstFile)
      = .ok firstFile := by
  cbv

/-- The file is one to rewrite. -/
lemma route_authored :
    Route.ofPath plainConversion.settings (Path.ofNames firstFile) = .rewrite .block := by
  decide

/-- Rewriting takes the name out of the file. -/
lemma rewritingOf_authored :
    plainConversion.rewritingOf (authored others) .block firstFile
      = .ok (.changed rewrittenText ["Jo"]) :=
  (rewritingOf_of_get? (locate_authored others) rfl .block).trans
    (Rewriting.ofContent_of_parse (b := ⟨[], authoredText, [], "*/"⟩)
      (a := ⟨["Jo"], none, [], "AGPL-3.0-or-later"⟩) rfl rfl rfl)

/-- The file is replaced. -/
lemma verdict_authored :
    plainConversion.verdict (authored others) firstFile = .ok (some authoredReport) := by
  unfold verdict
  simp only [route_authored, rewritingOf_authored]
  rfl

/-- The file stops nothing. -/
lemma failure?_authored : plainConversion.failure? (authored others) firstFile = none := by
  unfold failure?
  rw [verdict_authored]

/-- The report on the file names its author. -/
lemma report?_authored :
    plainConversion.report? (authored others) firstFile = some authoredReport := by
  unfold report?
  rw [verdict_authored]

/-- Converting the file that names its author makes no author list. -/
lemma Wrote.get?_authorsFile {t' : FileTree}
    (h : plainConversion.Wrote (authored others) [firstFile] t')
    (hnone : (authored others).get? ["AUTHORS.md"] = none) : t'.get? ["AUTHORS.md"] = none := by
  rw [h.kept _ fun names hmem _ hl => ?_, hnone]
  rw [List.mem_singleton.1 hmem, locate_authored] at hl
  exact absurd (Except.ok.inj hl) (by decide)

/-- A run lists the author of the only file. -/
theorem run_lists_authors_authored :
    plainConversion.options.dryRun = false ∧ (authored []).WellNamed ∧
      (plainConversion.run (authored [])).reports = [authoredReport] ∧
      (∃ content, plainConversion.ChangesTo (authored []) authoredReport content) ∧
      ∃ bytes, (plainConversion.run (authored [])).tree.get? ["AUTHORS.md"] = some (.file bytes) ∧
        Lists bytes "Jo" := by
  have hnamed : (authored []).WellNamed := by decide
  have hmet : plainConversion.metFiles (authored []) = [firstFile] :=
    metFiles_of_files ["a.h"] rfl (by decide) rfl (by cbv) (by cbv)
      (List.forall_mem_singleton.2 ⟨rfl, _, rfl⟩)
  have htaken : plainConversion.taken (authored []) [firstFile] = [firstFile] := by
    simp [taken, failure?_authored]
  have hlocate : (authored []).locate .creation plainConversion.authorsFile
      = .ok ["AUTHORS.md"] := by cbv
  obtain ⟨htree, hreports, hfailure⟩ := converted_convertFiles plainConversion hnamed
  rw [hmet] at htree hreports hfailure
  rw [htaken] at htree hreports
  have hwriting := run_of_writing (hfailure.trans (by simp [failure?_authored])) rfl
  rw [FileTree.append_of_absent ((htree.alike.locate ..).trans hlocate)
    (htree.get?_authorsFile [] rfl)] at hwriting
  have hreport : (plainConversion.run (authored [])).reports = [authoredReport] := by
    rw [run_reports, hreports, List.filterMap_cons_some (report?_authored []), List.filterMap_nil]
  obtain ⟨hchanges, h⟩ := run_lists_authors plainConversion (authored []) rfl hnamed
  rw [hwriting.1, hreport] at h
  obtain ⟨a, bytes, ha, hbytes, -, hlists⟩ := h
  rw [Except.ok.inj (ha.symm.trans hlocate)] at hbytes
  rw [hreport] at hchanges
  exact ⟨rfl, hnamed, hreport, hchanges _ List.mem_cons_self rfl, bytes, hbytes,
    hlists _ List.mem_cons_self rfl _ List.mem_cons_self⟩

/-- The author of a replaced header is not listed if the run stops at a file behind it. -/
theorem author_lost_in_stopped_run :
    let t := authored [(secondFile, .file ⟨#[]⟩)]
    (plainConversion.run t).outcome = .error (.file "/b.h" .noHeader) ∧
      (plainConversion.run t).reports = [authoredReport] ∧
      (plainConversion.run t).tree.get? firstFile = some (.file rewrittenText.toUtf8) ∧
      t.locate .creation plainConversion.authorsFile = .ok ["AUTHORS.md"] ∧
      (plainConversion.run t).tree.get? ["AUTHORS.md"] = none := by
  intro t
  have hnamed : t.WellNamed := by decide
  have hmet : plainConversion.metFiles t = [firstFile, secondFile] := by
    refine metFiles_of_files ["a.h", "b.h"] rfl (by decide) rfl (by cbv) (by cbv) ?_
    simp only [List.forall_mem_cons]
    exact ⟨⟨rfl, _, rfl⟩, ⟨rfl, _, rfl⟩, by simp⟩
  have hfirst : plainConversion.failure? t firstFile = none := failure?_authored _
  have hsecond : plainConversion.failure? t secondFile = some (.file "/b.h" .noHeader) := by cbv
  have htaken : plainConversion.taken t [firstFile, secondFile] = [firstFile] := by
    simp [taken, hfirst, hsecond]
  have hwritten : plainConversion.written? t firstFile = some rewrittenText :=
    replacement?_of_changed route_authored (rewritingOf_authored _)
  obtain ⟨htree, hreports, hfailure⟩ := converted_convertFiles plainConversion hnamed
  rw [hmet] at htree hreports hfailure
  rw [htaken] at htree hreports
  have hstop : [firstFile, secondFile].findSome? (plainConversion.failure? t)
      = some (.file "/b.h" .noHeader) := by
    simp [hfirst, hsecond]
  obtain ⟨houtcome, hsame⟩ := run_of_failure (hfailure.trans hstop)
  rw [hsame, run_reports, hreports, List.filterMap_cons_some (report?_authored _),
    List.filterMap_nil]
  exact ⟨houtcome, rfl, htree.written _ List.mem_cons_self _ _ hwritten (locate_authored _),
    by cbv, htree.get?_authorsFile _ rfl⟩

end Authored

end SpdxHeaders.Conversion
