import Mathlib
import SpdxHeaders.Proofs.Conversion.Course
import SpdxHeaders.Proofs.Rewriting.Idempotence

/-!
# The footprint of a run

What a run that writes leaves behind, also when it stops (`run_footprint`). The files that are
reported as replaced have the content that rewriting gives for their initial content, and no other
file has changed (`left_convertFiles`), except that the author list is appended if the run goes well
(`append_eq`). A run stops at the first file that cannot be rewritten (`stopsAtFile`).
-/

namespace SpdxHeaders

namespace FileTree

/-- The bytes that a node holds. -/
def held : Option Node → ByteArray
  | some (.file bytes) => bytes
  | _ => .empty

/-- Appending puts bytes behind those of the file that the path leads to. -/
lemma append_eq {t t' : FileTree} {p : Path} {bytes : ByteArray} (h : t.append p bytes = .ok t') :
    ∃ l, t.locate .creation p = .ok l ∧ l ≠ [] ∧
      t' = t.insert l (.file (held (t.get? l) ++ bytes)) := by
  obtain ⟨l, hl, h⟩ := bind_eq_ok_iff.1 h
  refine ⟨l, hl, ?_, ?_⟩
  · rintro rfl
    cases h
  · unfold writeAt at h
    cases hn : t.get? l with
    | none =>
      simp only [hn] at h
      cases h
      simp [held]
    | some n =>
      cases n with
      | file old =>
        simp only [hn] at h
        cases h
        rfl
      | link target =>
        simp only [hn] at h
        cases h
        simp [held]
      | directory =>
        simp only [hn] at h
        cases h

end FileTree

namespace Conversion

/-- The report is on a file to rewrite whose text rewriting changes to the content. -/
def ChangesTo (c : Conversion) (t : FileTree) (f : FileReport) (content : Text) : Prop :=
  ∃ names style text, f.path = c.collector.pathOf names ∧
    Route.ofPath c.settings (Path.ofNames names) = .rewrite style ∧
    t.readText f.path = .ok text ∧
    Rewriting.ofContent style c.options text = .ok (.changed content f.authors)

/-- What is left at a location when files of a tree were converted: it differs from what was there
just if a file there is reported as replaced, and then it is the new content of that file. -/
structure Left (c : Conversion) (t : FileTree) (reports : List FileReport) (l : Location)
    (n : Option Node) : Prop where
  differs_iff : n ≠ t.get? l ↔
    ∃ f ∈ reports, f.outcome = .replaced ∧ t.locate .content f.path = .ok l
  content_eq : ∀ f ∈ reports, f.outcome = .replaced → t.locate .content f.path = .ok l →
    ∃ content, c.ChangesTo t f content ∧ n = some (.file content.toUtf8)

/-- The files are met without fault: those to rewrite can be rewritten. -/
def Faultless (c : Conversion) (t : FileTree) (files : List (List Text)) : Prop :=
  ∀ names ∈ files, ∀ style, Route.ofPath c.settings (Path.ofNames names) = .rewrite style →
    ∃ r, c.rewritingOf t style names = .ok r

/-- The paths of the files that are not exempt. -/
def reportedPaths (c : Conversion) (files : List (List Text)) : List Path :=
  (files.filter fun names => Route.ofPath c.settings (Path.ofNames names) ≠ .exempt).map
    c.collector.pathOf

/-- A run stops at the first file that cannot be rewritten. This file and those behind it are as
they were. -/
def StopsAtFile (c : Conversion) (t : FileTree) (r : Result) (e : ConversionError) : Prop :=
  ∃ before names later style cause, c.metFiles t = before ++ names :: later ∧
    c.Faultless t before ∧
    Route.ofPath c.settings (Path.ofNames names) = .rewrite style ∧
    c.rewritingOf t style names = .error cause ∧
    e = .file (c.collector.pathOf names) cause ∧
    r.reports.map FileReport.path = c.reportedPaths before ∧
    ∀ ns ∈ names :: later, ∀ l, t.locate .content (c.collector.pathOf ns) = .ok l →
      r.tree.get? l = t.get? l

/-- A run gets through all files but cannot append the author list. -/
def StopsAtAuthors (c : Conversion) (t : FileTree) (r : Result) (e : ConversionError) : Prop :=
  c.Faultless t (c.metFiles t) ∧
    r.reports.map FileReport.path = c.reportedPaths (c.metFiles t) ∧
    ∃ fault, e = .file c.authorsFile (.access fault) ∧
      r.tree.append c.authorsFile (c.reportOn r.reports).authorsMarkdown.toUtf8 = .error fault

variable {c : Conversion} {t t' : FileTree} {files : List (List Text)} {s : Progress}

/-- A file that is reported as replaced is one that rewriting changes. -/
lemma exists_changesTo {names : List Text} {f : FileReport} (h : c.report? t names = some f)
    (hreplaced : f.outcome = .replaced) :
    ∃ content, c.written? t names = some content ∧ f.path = c.collector.pathOf names ∧
      c.ChangesTo t f content := by
  obtain ⟨content, hwritten⟩ := written?_of_report? h hreplaced
  obtain ⟨style, text, authors, hroute, htext, hchanged, hverdict⟩ := exists_of_written? hwritten
  have hf : f = ⟨c.collector.pathOf names, .replaced, authors⟩ := by
    unfold report? at h
    rw [hverdict] at h
    exact (Option.some.inj h).symm
  subst hf
  exact ⟨content, hwritten, rfl, names, style, text, rfl, hroute, htext, hchanged⟩

/-- What is left of a conversion that got through the files. -/
lemma Wrote.left (h : c.Wrote t files t') (l : Location) :
    c.Left t (files.filterMap (c.report? t)) l (t'.get? l) := by
  have hcontent (f : FileReport) (hf : f ∈ files.filterMap (c.report? t))
      (hreplaced : f.outcome = .replaced) (hl : t.locate .content f.path = .ok l) :
      ∃ content, c.ChangesTo t f content ∧ t'.get? l = some (.file content.toUtf8) := by
    obtain ⟨names, hmem, hreport⟩ := List.mem_filterMap.1 hf
    obtain ⟨content, hwritten, hpath, hchanges⟩ := exists_changesTo hreport hreplaced
    exact ⟨content, hchanges, h.written names hmem content l hwritten (hpath ▸ hl)⟩
  refine ⟨⟨fun hne => ?_, ?_⟩, hcontent⟩
  · by_contra hnone
    refine hne (h.kept l fun names hmem hwritten hl => hnone ?_)
    obtain ⟨content, hwritten⟩ := Option.isSome_iff_exists.1 hwritten
    obtain ⟨-, -, authors, -, -, -, hverdict⟩ := exists_of_written? hwritten
    refine ⟨⟨c.collector.pathOf names, .replaced, authors⟩,
      List.mem_filterMap.2 ⟨names, hmem, ?_⟩, rfl, hl⟩
    unfold report?
    rw [hverdict]
  · rintro ⟨f, hf, hreplaced, hl⟩
    obtain ⟨content, ⟨-, style, text, -, -, htext, hchanged⟩, hnew⟩ := hcontent f hf hreplaced hl
    obtain ⟨l', bytes, hl', hold, hbytes⟩ := FileTree.exists_of_readText htext
    rw [Except.ok.inj (hl.symm.trans hl'), hold]
    rw [Except.ok.inj (hl.symm.trans hl')] at hnew
    rw [hnew]
    -- Equal bytes would be the same text, but rewriting has changed it.
    intro heq
    have hutf8 : content.toUtf8 = bytes := by
      injection heq with heq
      injection heq
    rw [← hutf8, Text.ofUtf8?_toUtf8] at hbytes
    exact Rewriting.ne_of_changed hchanged (Option.some.inj hbytes)

/-- What the conversion of files leaves. -/
lemma left_convertFiles (c : Conversion) (ht : t.WellNamed) (l : Location) :
    c.Left t (c.convertFiles t).reports l ((c.convertFiles t).tree.get? l) := by
  have h := converted_convertFiles c ht
  rw [h.reports]
  exact h.tree.left l

/-- The paths to report are those of one part of the files and then of the other. -/
lemma reportedPaths_append (c : Conversion) (files files' : List (List Text)) :
    c.reportedPaths (files ++ files') = c.reportedPaths files ++ c.reportedPaths files' := by
  unfold reportedPaths
  rw [List.filter_append, List.map_append]

/-- A file at which a conversion does not stop is reported unless it is exempt. -/
lemma map_path_report? {names : List Text} (h : c.failure? t names = none) :
    (c.report? t names).toList.map FileReport.path = c.reportedPaths [names] := by
  have hpath := path_of_report? h
  unfold reportedPaths
  by_cases hexempt : Route.ofPath c.settings (Path.ofNames names) = .exempt
  · rw [if_pos hexempt, Option.map_eq_none_iff] at hpath
    simp [hpath, hexempt]
  · rw [if_neg hexempt] at hpath
    obtain ⟨f, hf, hp⟩ := Option.map_eq_some_iff.1 hpath
    simp [hf, hp, hexempt]

/-- The files at which a conversion does not stop are reported unless they are exempt. -/
lemma map_path_filterMap (h : ∀ names ∈ files, c.failure? t names = none) :
    (files.filterMap (c.report? t)).map FileReport.path = c.reportedPaths files := by
  induction files with
  | nil => rfl
  | cons names files ih =>
    have hhere := map_path_report? (h names List.mem_cons_self)
    have hrest := ih fun ns hmem => h ns (List.mem_cons_of_mem names hmem)
    rw [← List.singleton_append, reportedPaths_append, ← hhere, ← hrest, ← List.map_append,
      List.filterMap_append]
    cases hreport : c.report? t names <;> simp [hreport]

/-- A conversion that stops, stops at the first file that cannot be rewritten. -/
lemma stopsAtFile (ht : t.WellNamed) {e : ConversionError}
    (h : (c.convertFiles t).failure = some e) : c.StopsAtFile t (c.run t) e := by
  have hconverted := converted_convertFiles c ht
  obtain ⟨hnodup, start, hplaced⟩ := c.metFiles_placed ht
  obtain ⟨before, names, later, hmet, hfail, hbefore⟩ :=
    List.findSome?_eq_some_iff.1 (hconverted.failure.symm.trans h)
  obtain ⟨style, cause, hroute, hrewriting, he⟩ := failure?_eq_some_iff.1 hfail
  have htaken : c.taken t (c.metFiles t) = before := by
    rw [hmet]
    exact taken_of_stop hbefore hfail
  obtain ⟨htree, hreports, -⟩ := hconverted
  rw [htaken] at htree hreports
  refine ⟨before, names, later, style, cause, hmet, ?_, hroute, hrewriting, he, ?_,
    fun ns hmem l hl => ?_⟩
  · intro ns hmem
    exact failure?_eq_none_iff.1 (hbefore ns hmem)
  · rw [run_reports, hreports, map_path_filterMap hbefore]
  · -- What was written is in the places of files met before, and those are other places.
    rw [(run_of_failure h).2]
    apply htree.kept l
    intro ns' hmem' _ hl'
    rw [hmet] at hnodup hplaced
    have heq : start ++ ns' = start ++ ns :=
      ((hplaced ns' (List.mem_append_left _ hmem')).locate l hl').symm.trans
        ((hplaced ns (List.mem_append_right _ hmem)).locate l hl)
    rw [List.append_cancel_left heq] at hmem'
    exact (List.nodup_append.1 hnodup).2.2 ns hmem' ns hmem rfl

/-- The footprint of a run that writes. If it goes well, the author list is appended to what the
conversion of the files has left of its file. If it stops, it stops at the first file that cannot
be rewritten, or because the author list cannot be appended, which then changes nothing. In all
other places there is what the conversion of the files has left. -/
theorem run_footprint (c : Conversion) (t : FileTree) (hdry : c.options.dryRun = false)
    (ht : t.WellNamed) :
    match (c.run t).outcome with
    | .ok report => ∃ a n, t.locate .creation c.authorsFile = .ok a ∧
        c.Left t (c.run t).reports a n ∧
        (c.run t).tree.get? a = some (.file (FileTree.held n ++ report.authorsMarkdown.toUtf8)) ∧
        ∀ l, l ≠ a → c.Left t (c.run t).reports l ((c.run t).tree.get? l)
    | .error e => (∀ l, c.Left t (c.run t).reports l ((c.run t).tree.get? l)) ∧
        (c.StopsAtFile t (c.run t) e ∨ c.StopsAtAuthors t (c.run t) e) := by
  have hleft := c.left_convertFiles ht
  rw [← run_reports] at hleft
  cases hfailure : (c.convertFiles t).failure with
  | some e =>
    have hstop := stopsAtFile ht hfailure
    obtain ⟨houtcome, htree⟩ := run_of_failure hfailure
    rw [houtcome, htree]
    exact ⟨hleft, .inl hstop⟩
  | none =>
    have hconverted := converted_convertFiles c ht
    have hwriting := run_of_writing hfailure hdry
    split at hwriting
    case h_1 t' happend =>
      obtain ⟨houtcome, htree⟩ := hwriting
      obtain ⟨a, ha, hroot, ht'⟩ := FileTree.append_eq happend
      rw [hconverted.tree.alike.locate] at ha
      rw [houtcome, htree, ht']
      refine ⟨a, (c.convertFiles t).tree.get? a, ha, hleft a, ?_, fun l hl => ?_⟩
      · rw [FileTree.get?_insert hroot, if_pos rfl]
      · rw [FileTree.get?_insert hroot, if_neg hl]
        exact hleft l
    case h_2 fault happend =>
      obtain ⟨houtcome, htree⟩ := hwriting
      have hgoing := List.findSome?_eq_none_iff.1 (hconverted.failure.symm.trans hfailure)
      rw [houtcome, htree]
      refine ⟨hleft, .inr ⟨?_, ?_, fault, rfl, ?_⟩⟩
      · intro ns hmem
        exact failure?_eq_none_iff.1 (hgoing ns hmem)
      · rw [run_reports, hconverted.reports,
          taken_of_going (hconverted.failure.symm.trans hfailure), map_path_filterMap hgoing]
      · rw [htree, run_reports]
        exact happend

section TwoFiles
open Collector

/-- The names of a file that can be rewritten. -/
def firstFile : List Text := ["a.h"]

/-- The names of a file that cannot be rewritten. -/
def secondFile : List Text := ["b.h"]

/-- The text of the first file. -/
def firstText : Text := "/*@license AGPL-3.0-or-later*/"

/-- What rewriting makes of the first file. -/
def rewrittenText : Text := "/**\n * SPDX-License-Identifier: AGPL-3.0-or-later\n */"

/-- The first file is another one when it is rewritten. -/
lemma file_rewrittenText_ne :
    some (Node.file rewrittenText.toUtf8) ≠ some (.file firstText.toUtf8) := by
  intro h
  injection h with h
  injection h with hbytes
  exact absurd (Text.toUtf8_injective hbytes) (by decide)

/-- A tree with both files. -/
def twoFiles : FileTree where
  nodes := [(firstFile, .file firstText.toUtf8), (secondFile, .file ⟨#[]⟩)]

/-- A conversion that appends the author list to the first of these files. -/
def listingInHeader : Conversion :=
  { plainConversion with settings := { authorsFile := "a.h" } }

/-- A conversion meets the files right below its root, but for those that are hidden or excluded. -/
lemma metFiles_of_entries (names : List Text) (hrules : WithoutRules t) (hhome : t.home = none)
    (hroot : t.locate .content c.collector.root = .ok []) (hnames : t.names [] = names)
    (hfiles : ∀ n ∈ names, IgnoreRules.isHidden n = false →
      ∃ bytes, t.get? [n] = some (.file bytes)) :
    c.metFiles t = (names.filter fun n => !IgnoreRules.isHidden n &&
      !c.collector.manifest.excludes (Path.ofNames [n])).map fun n => [n] := by
  subst hnames
  unfold metFiles Conversion.walk
  rw [walk_of_files hrules hhome hroot rfl hfiles, List.filterMap_map, List.filterMap_filter,
    ← List.filterMap_eq_map, List.filterMap_filter]
  congr 1
  funext n
  simp only [Function.comp_apply, event]
  cases IgnoreRules.isHidden n <;> cases c.collector.manifest.excludes (Path.ofNames [n]) <;> rfl

/-- A conversion meets the files right below its root. -/
lemma metFiles_of_files (names : List Text) (hcollector : c.collector = plainConversion.collector)
    (hrules : WithoutRules t) (hhome : t.home = none) (hroot : t.locate .content "/" = .ok [])
    (hnames : t.names [] = names)
    (hfiles : ∀ n ∈ names, IgnoreRules.isHidden n = false ∧
      ∃ bytes, t.get? [n] = some (.file bytes)) :
    c.metFiles t = names.map fun n => [n] := by
  rw [metFiles_of_entries names hrules hhome (by rw [hcollector]; exact hroot) hnames
    fun n hn _ => (hfiles n hn).2, List.filter_eq_self.2]
  intro n hn
  rw [hcollector, (hfiles n hn).1]
  rfl

/-- The conversion meets both files. -/
lemma metFiles_twoFiles : listingInHeader.metFiles twoFiles = [firstFile, secondFile] := by
  refine metFiles_of_files ["a.h", "b.h"] rfl (by decide) rfl (by cbv) (by cbv) ?_
  simp only [List.forall_mem_cons]
  exact ⟨⟨rfl, _, rfl⟩, ⟨rfl, _, rfl⟩, by simp⟩

/-- The path of the first file leads to it. -/
lemma locate_firstFile :
    twoFiles.locate .content (listingInHeader.collector.pathOf firstFile) = .ok firstFile := by
  cbv

/-- The first file is one to rewrite. -/
lemma route_firstFile :
    Route.ofPath listingInHeader.settings (Path.ofNames firstFile) = .rewrite .block := by
  decide

/-- Rewriting changes the text of the first file. -/
lemma ofContent_firstText :
    Rewriting.ofContent .block plainConversion.options firstText
      = .ok (.changed rewrittenText []) :=
  Rewriting.ofContent_of_parse (b := ⟨[], firstText, [], "*/"⟩)
    (a := ⟨[], none, [], "AGPL-3.0-or-later"⟩) rfl rfl rfl

/-- Rewriting changes the first file. -/
lemma rewritingOf_firstFile :
    listingInHeader.rewritingOf twoFiles .block firstFile = .ok (.changed rewrittenText []) :=
  (rewritingOf_of_get? locate_firstFile rfl .block).trans ofContent_firstText

/-- The conversion does not stop at the first file. -/
lemma failure?_firstFile : listingInHeader.failure? twoFiles firstFile = none :=
  failure?_of_rewritingOf route_firstFile rewritingOf_firstFile

/-- The conversion stops at the second file. -/
lemma failure_twoFiles :
    (listingInHeader.convertFiles twoFiles).failure = some (.file "/b.h" .noHeader) := by
  have hsecond : listingInHeader.failure? twoFiles secondFile = some (.file "/b.h" .noHeader) := by
    cbv
  rw [(converted_convertFiles _ (by decide)).failure, metFiles_twoFiles, List.findSome?_cons,
    failure?_firstFile]
  dsimp only
  rw [List.findSome?_cons, hsecond]

/-- The footprint of a run that stops at its second file. -/
theorem run_footprint_twoFiles :
    listingInHeader.options.dryRun = false ∧ twoFiles.WellNamed ∧
      (∀ l, listingInHeader.Left twoFiles (listingInHeader.run twoFiles).reports l
        ((listingInHeader.run twoFiles).tree.get? l)) ∧
      (listingInHeader.StopsAtFile twoFiles (listingInHeader.run twoFiles)
          (.file "/b.h" .noHeader) ∨
        listingInHeader.StopsAtAuthors twoFiles (listingInHeader.run twoFiles)
          (.file "/b.h" .noHeader)) := by
  have hnamed : twoFiles.WellNamed := by decide
  have h := run_footprint listingInHeader twoFiles rfl hnamed
  rw [(run_of_failure failure_twoFiles).1] at h
  exact ⟨rfl, hnamed, h⟩

/-- The file of the author list is not always as it was if a run stops: it may have been replaced
itself. -/
theorem authorsFile_of_stopped_run :
    (listingInHeader.run twoFiles).outcome = .error (.file "/b.h" .noHeader) ∧
      twoFiles.locate .creation listingInHeader.authorsFile = .ok firstFile ∧
      (listingInHeader.run twoFiles).tree.get? firstFile ≠ twoFiles.get? firstFile := by
  obtain ⟨houtcome, htree⟩ := run_of_failure failure_twoFiles
  have hwritten : listingInHeader.written? twoFiles firstFile = some rewrittenText :=
    replacement?_of_changed route_firstFile rewritingOf_firstFile
  have htaken : firstFile ∈ listingInHeader.taken twoFiles (listingInHeader.metFiles twoFiles) := by
    rw [metFiles_twoFiles]
    simp [taken, failure?_firstFile]
  have hnew := (converted_convertFiles listingInHeader (by decide)).tree.written firstFile htaken
    rewrittenText firstFile hwritten locate_firstFile
  have hold : twoFiles.get? firstFile = some (.file firstText.toUtf8) := rfl
  refine ⟨houtcome, by cbv, ?_⟩
  rw [htree, hnew, hold]
  exact file_rewrittenText_ne

end TwoFiles

end Conversion

end SpdxHeaders
