import Mathlib
import SpdxHeaders.Proofs.Attribution.Rules
import SpdxHeaders.Proofs.Conversion.Course
import SpdxHeaders.Proofs.Ignore.Precedence
import SpdxHeaders.Proofs.Rewriting.Change

/-!
# Dry runs

A dry run tells what the run that writes will do (`run_of_dryRun`). Both come as far as the verdicts
on the files say, and the verdicts differ in their outcomes only (`verdict_withDryRun`). What is
left to show is that the run that writes meets the same files: it writes, while the walk goes on, to
files whose bytes the walk does not look at (`walk_withDryRun`). Where it does look at them, through
a link from an ignore file, a dry run can fail to tell the truth (`outcome_of_linked_rules`).
-/

namespace SpdxHeaders

/-- The report on a file that is written, in place of one that would be. -/
def FileReport.asReplaced (f : FileReport) : FileReport :=
  if f.outcome = .wouldReplace then { f with outcome := .replaced } else f

namespace Conversion

/-- The conversion that writes nothing, or the one that writes. -/
def withDryRun (c : Conversion) (dryRun : Bool) : Conversion :=
  { c with options := { c.options with dryRun := dryRun } }

/-- No directory at or below the root has ignore rules in a file that is reported with the
outcome. -/
def RulesApart (c : Conversion) (t : FileTree) (o : Outcome) (reports : List FileReport) : Prop :=
  ∀ start, t.locate .content c.collector.root = .ok start →
    ∀ f ∈ reports, f.outcome = o → ∀ l, t.locate .content f.path = .ok l →
      ∀ dir, start <+: dir → ∀ parts ∈ Collector.ruleParts,
        t.follow .content FileTree.maxLinks dir parts ≠ .ok l

/-- No directory at or below the root has ignore rules in a file that would be replaced. -/
def RulesKept (c : Conversion) (t : FileTree) (reports : List FileReport) : Prop :=
  c.RulesApart t .wouldReplace reports

variable {c : Conversion} {t : FileTree} {names : List Text}

/-- In a tree without ignore files no ignore rules are in a file that is reported. -/
lemma RulesApart.of_withoutRules (c : Conversion) (h : Collector.WithoutRules t) (o : Outcome)
    (reports : List FileReport) : c.RulesApart t o reports :=
  fun _ _ _ _ _ _ _ _ _ _ hparts => h.follow_ne hparts

/-- Whether something is written does not matter to what is collected. -/
@[simp]
lemma withDryRun_collector (c : Conversion) (dryRun : Bool) :
    (c.withDryRun dryRun).collector = c.collector :=
  rfl

/-- Whether something is written does not matter to the settings. -/
@[simp]
lemma withDryRun_settings (c : Conversion) (dryRun : Bool) :
    (c.withDryRun dryRun).settings = c.settings :=
  rfl

/-- Whether something is written does not matter to what rewriting makes of a file. -/
@[simp]
lemma withDryRun_rewritingOf (c : Conversion) (dryRun : Bool) (t : FileTree) (style : CommentStyle)
    (names : List Text) :
    (c.withDryRun dryRun).rewritingOf t style names = c.rewritingOf t style names :=
  rfl

/-- The verdict of the run that writes is the verdict of the dry run with the file replaced. -/
lemma verdict_withDryRun (c : Conversion) (t : FileTree) (names : List Text) :
    (c.withDryRun false).verdict t names
      = ((c.withDryRun true).verdict t names).map (Option.map FileReport.asReplaced) := by
  unfold verdict
  simp only [withDryRun_rewritingOf, withDryRun_settings, withDryRun_collector]
  cases Route.ofPath c.settings (Path.ofNames names) with
  | vendored => rfl
  | ignorable => rfl
  | unhandled => rfl
  | exempt => rfl
  | rewrite style =>
    dsimp only
    cases c.rewritingOf t style names with
    | error e => rfl
    | ok r => cases r <;> rfl

/-- Both runs stop at the same files. -/
lemma failure?_withDryRun (c : Conversion) (t : FileTree) :
    (c.withDryRun false).failure? t = (c.withDryRun true).failure? t := by
  funext names
  unfold failure?
  rw [verdict_withDryRun]
  cases (c.withDryRun true).verdict t names <;> rfl

/-- The report of the run that writes is that of the dry run with the file replaced. -/
lemma report?_withDryRun (c : Conversion) (t : FileTree) :
    (c.withDryRun false).report? t
      = fun names => ((c.withDryRun true).report? t names).map FileReport.asReplaced := by
  funext names
  unfold report?
  rw [verdict_withDryRun]
  cases (c.withDryRun true).verdict t names <;> rfl

/-- Both runs take the same files. -/
lemma taken_withDryRun (c : Conversion) (t : FileTree) (files : List (List Text)) :
    (c.withDryRun false).taken t files = (c.withDryRun true).taken t files := by
  unfold taken
  rw [failure?_withDryRun]

/-- A conversion that writes nothing leaves the tree as it is. -/
lemma run_tree_of_dryRun (h : c.options.dryRun = true) : (c.run t).tree = t := by
  have hnone (names : List Text) : c.written? t names = none := by
    unfold written?
    rw [h]
    rfl
  have htree : (c.convertFiles t).tree = t :=
    convertFiles_tree_of_unwritten fun names _ => hnone names
  cases hfailure : (c.convertFiles t).failure with
  | some e => exact (run_of_failure hfailure).2.trans htree
  | none =>
    unfold run
    simp only [hfailure, h, if_true]
    exact htree

/-- A dry run meets what there is in the tree. -/
lemma walk_of_dryRun (c : Conversion) (t : FileTree) :
    (c.withDryRun true).walk t = c.collector.events t :=
  walk_of_unwritten fun _ _ => rfl

/-- A file that would be replaced is told by the report of the dry run. -/
lemma report?_of_written? {content : Text}
    (h : (c.withDryRun false).written? t names = some content) :
    ∃ authors, (c.withDryRun true).report? t names
      = some ⟨c.collector.pathOf names, .wouldReplace, authors⟩ := by
  obtain ⟨style, -, authors, hroute, -, -, hrewriting⟩ :=
    exists_of_replacement? (c := c.withDryRun false) h
  simp only [withDryRun_rewritingOf, withDryRun_settings] at hroute hrewriting
  refine ⟨authors, ?_⟩
  unfold report? verdict
  simp only [withDryRun_rewritingOf, withDryRun_settings, hroute, hrewriting]
  rfl

/-- If no ignore rules are replaced, the run that writes meets what there is in the tree. -/
theorem walk_withDryRun (ht : t.WellNamed)
    (hrules : c.RulesKept t ((c.withDryRun true).run t).reports) :
    (c.withDryRun false).walk t = c.collector.events t := by
  refine Collector.walk_congr (.refl t) (.refl _ t) ?_
  intro start es hstart hes
  refine Collector.LooksLike.of_kept
    (alike_foldl_step (c.withDryRun false) { tree := t } es) fun dir hdir parts hparts l hl => ?_
  obtain ⟨hnodup, place, hplaced⟩ := c.collector.walk_placed ht fun _ => .refl t
  have hfiles : es.filterMap WalkEvent.file? <+: (c.collector.events t).filterMap WalkEvent.file? :=
    hes.filterMap _
  have hconverted := converted (c.withDryRun false) t es
    (hnodup.sublist hfiles.sublist) fun names hmem => (hplaced names (hfiles.subset hmem)).locate
  apply hconverted.tree.kept l
  intro names hmem hwritten hlocate
  -- A file that is written is one that the dry run reports, so no rules are read from it.
  obtain ⟨content, hcontent⟩ := Option.isSome_iff_exists.1 hwritten
  obtain ⟨authors, hreport⟩ := report?_of_written? hcontent
  have htaken : names ∈ (c.withDryRun true).taken t ((c.withDryRun true).metFiles t) := by
    rw [taken_withDryRun] at hmem
    unfold metFiles
    rw [walk_of_dryRun]
    exact (taken_isPrefix hfiles).subset hmem
  have hreported : ⟨c.collector.pathOf names, .wouldReplace, authors⟩
      ∈ ((c.withDryRun true).run t).reports := by
    rw [run_reports, (converted_convertFiles _ ht).reports]
    exact List.mem_filterMap.2 ⟨names, htaken, hreport⟩
  exact hrules start hstart _ hreported rfl l hlocate dir hdir parts hparts hl

/-- A file that is written names the authors it was told to name. -/
lemma flatMap_authors_asReplaced (files : List FileReport) :
    (files.map FileReport.asReplaced).flatMap FileReport.authors
      = files.flatMap FileReport.authors := by
  rw [List.flatMap_map]
  congr 1
  funext f
  unfold FileReport.asReplaced
  split <;> rfl

/-- Both runs come equally far. -/
lemma convertFiles_withDryRun (ht : t.WellNamed)
    (hrules : c.RulesKept t ((c.withDryRun true).run t).reports) :
    ((c.withDryRun false).convertFiles t).failure = ((c.withDryRun true).convertFiles t).failure ∧
      ((c.withDryRun false).convertFiles t).reports
        = ((c.withDryRun true).convertFiles t).reports.map FileReport.asReplaced := by
  have hfiles : (c.withDryRun false).metFiles t = (c.withDryRun true).metFiles t := by
    unfold metFiles
    rw [walk_of_dryRun, walk_withDryRun ht hrules]
  have hdry := converted_convertFiles (c.withDryRun true) ht
  have hreal := converted_convertFiles (c.withDryRun false) ht
  rw [hfiles] at hreal
  refine ⟨?_, ?_⟩
  · rw [hreal.failure, hdry.failure, failure?_withDryRun]
  · rw [hreal.reports, hdry.reports, taken_withDryRun, report?_withDryRun, List.map_filterMap]

/-- A dry run tells what the run that writes does. If it stops, the run that writes stops with the
same error after the same files. If it goes well, the run that writes goes well with the same
report, apart from files that are replaced now, or cannot append the author list. -/
theorem run_of_dryRun (c : Conversion) (t : FileTree) (ht : t.WellNamed)
    (hrules : c.RulesKept t ((c.withDryRun true).run t).reports) :
    ((c.withDryRun false).run t).reports
        = ((c.withDryRun true).run t).reports.map FileReport.asReplaced ∧
      match ((c.withDryRun true).run t).outcome, ((c.withDryRun false).run t).outcome with
      | .error e, outcome => outcome = .error e
      | .ok expected, .ok report =>
        report.files = expected.files.map FileReport.asReplaced ∧
          report.authors = expected.authors ∧ report.authorsMarkdown = expected.authorsMarkdown
      | .ok expected, .error e =>
        ∃ fault, ((c.withDryRun false).run t).tree.append c.authorsFile
            expected.authorsMarkdown.toUtf8 = .error fault ∧
          e = .file c.authorsFile (.access fault) := by
  obtain ⟨hfailure, hreports⟩ := convertFiles_withDryRun ht hrules
  refine ⟨by rw [run_reports, run_reports, hreports], ?_⟩
  -- Only the appending of the author list, behind all files, is left to compare.
  cases hdry : ((c.withDryRun true).convertFiles t).failure with
  | some e =>
    rw [(run_of_failure hdry).1, (run_of_failure (hfailure.trans hdry)).1]
  | none =>
    have hwriting := run_of_writing (hfailure.trans hdry) rfl
    have hauthors :
        ((c.withDryRun false).reportOn ((c.withDryRun false).convertFiles t).reports).authors
        = ((c.withDryRun true).reportOn ((c.withDryRun true).convertFiles t).reports).authors := by
      unfold reportOn
      rw [hreports, flatMap_authors_asReplaced]
    rw [run_of_dry hdry rfl]
    split at hwriting
    case h_1 =>
      rw [hwriting.1]
      exact ⟨hreports, hauthors, congrArg Authors.markdown hauthors⟩
    case h_2 fault happend =>
      rw [hwriting.1]
      refine ⟨fault, ?_, rfl⟩
      rw [hwriting.2, ← happend]
      exact congrArg
        (fun authors => FileTree.append _ c.authorsFile (Authors.markdown authors).toUtf8)
        hauthors.symm

/-- Without ignore files a dry run tells the truth. -/
theorem run_of_dryRun_no_rules :
    let t : FileTree :=
      { nodes := [(["a.h"], .file (Text.toUtf8 "/* @license AGPL-3.0-or-later */"))] }
    t.WellNamed ∧
      plainConversion.RulesKept t ((plainConversion.withDryRun true).run t).reports ∧
      ((plainConversion.withDryRun false).run t).reports
        = ((plainConversion.withDryRun true).run t).reports.map FileReport.asReplaced := by
  intro t
  have ht : t.WellNamed := by decide
  have hrules : plainConversion.RulesKept t ((plainConversion.withDryRun true).run t).reports :=
    .of_withoutRules plainConversion (by decide) _ _
  exact ⟨ht, hrules, (run_of_dryRun plainConversion t ht hrules).1⟩

section LinkedRules
open FileTree Collector

/-- The names of a file with a header. -/
def withHeader : List Text := ["a.html"]

/-- The names of a file without a header. -/
def withoutHeader : List Text := ["b", "-->x.h"]

/-- A header, the last line of which, read as a rule, admits the file without a header. -/
def admittingText : Text := "<!--@license AGPL-3.0-or-later\n!-->x.h"

/-- What is made of that header. The last line, read as a rule, ignores the file. -/
def ignoringText : Text := "<!--\n  - SPDX-License-Identifier: AGPL-3.0-or-later\n-->x.h"

/-- A tree where the `.ignore` of a directory is a link to the file with a header. -/
def linkedTree (text : Text) : FileTree where
  nodes :=
    [(withHeader, .file text.toUtf8), (["b"], .directory), (["b", ".ignore"], .link "/a.html"),
      (withoutHeader, .file ⟨#[]⟩)]

/-- The last line of the header admits the file. -/
lemma lastVerdict?_admittingText :
    IgnoreRule.lastVerdict? (IgnoreFile.ofBytes admittingText.toUtf8).rules "-->x.h" false
      = some .admitted := by
  have hlines : IgnoreFile.byteLines admittingText.toUtf8.toList
      = (["<!--@license AGPL-3.0-or-later", "!-->x.h"] : List Text).map (·.toUtf8.data.toList) := by
    cbv
  rw [IgnoreFile.rules_ofBytes, hlines]
  exact IgnoreFile.lastVerdict?_ofLines_cons _ (by cbv)

/-- The last line of the new header ignores the file. -/
lemma lastVerdict?_ignoringText :
    IgnoreRule.lastVerdict? (IgnoreFile.ofBytes ignoringText.toUtf8).rules "-->x.h" false
      = some .ignored := by
  have hlines : IgnoreFile.byteLines ignoringText.toUtf8.toList
      = (["<!--", "  - SPDX-License-Identifier: AGPL-3.0-or-later", "-->x.h"] : List Text).map
          (·.toUtf8.data.toList) := by
    cbv
  rw [IgnoreFile.rules_ofBytes, hlines]
  exact IgnoreFile.lastVerdict?_ofLines_cons _ (IgnoreFile.lastVerdict?_ofLines_cons _ (by cbv))

/-- The header is replaced. -/
lemma ofContent_admittingText (dryRun : Bool) :
    Rewriting.ofContent .markup (plainConversion.withDryRun dryRun).options admittingText
      = .ok (.changed ignoringText []) := by
  let b : HeaderBlock := ⟨[], "<!--@license AGPL-3.0-or-later\n!-->", "x.h", "-->"⟩
  have hb : HeaderBlock.locate .markup admittingText = .ok b := by rfl
  have hn : b.isNormalized = false := by rfl
  have hlines : Text.lines b.text
      = (["<!--@license AGPL-3.0-or-later", "!-->"] : List Text) := by rfl
  have hlicense : Attribution.meaning "<!--@license AGPL-3.0-or-later"
      = .ok (.license "AGPL-3.0-or-later") := by rfl
  have hother : Attribution.meaning "!-->" = .ok .unrelated :=
    Attribution.meaning_of_notMem (by simp [Attribution.leadChars]) (by decide) (by decide)
  have hparse : Attribution.parse [] b.text = .ok ⟨[], none, [], "AGPL-3.0-or-later"⟩ :=
    Attribution.parse_of_license hlines hlicense hother
  have htags : Attribution.tagLines ⟨[], none, [], "AGPL-3.0-or-later"⟩ []
      = (["SPDX-License-Identifier: AGPL-3.0-or-later"] : List Text) := by decide
  have hnew : b.before ++ Rewriting.newHeader .markup b
      ["SPDX-License-Identifier: AGPL-3.0-or-later"] ++ b.after = ignoringText := by rfl
  have h : Rewriting.ofContent .markup (plainConversion.withDryRun dryRun).options admittingText
      = .ok (.changed (b.before ++ Rewriting.newHeader .markup b
          (Attribution.tagLines ⟨[], none, [], "AGPL-3.0-or-later"⟩ []) ++ b.after) []) :=
    Rewriting.ofContent_of_parse hb hn hparse
  rw [htags, hnew] at h
  exact h

variable {look : List WalkEvent → FileTree} {text : Text}

/-- A walk of the tree meets the file without a header unless the ignore rules that are seen after
the file with a header ignore it. -/
lemma walk_linkedTree {v : IgnoreRule.Verdict} (hbegin : look [] = linkedTree text)
    (h : (linkedTree text).Alike (look [.file withHeader]))
    (hv : IgnoreRule.lastVerdict? (IgnoreFile.read (look [.file withHeader]) ["b"]
      IgnoreLayer.ignoreParts).rules "-->x.h" false = some v) :
    plainConversion.collector.walk look
      = .file withHeader :: if v = .ignored then [] else [.file withoutHeader] := by
  have hroot : (look []).locate .content plainConversion.collector.root = .ok [] := by
    rw [hbegin]
    cbv
  have hdepth : (linkedTree text).depth = 2 := by cbv
  have hnames : (linkedTree text).names [] = (["a.html", "b"] : List Text) := by cbv
  have hbelow : (linkedTree text).names ["b"] = (["-->x.h", ".ignore"] : List Text) := by cbv
  have hlayer : IgnoreLayer.read (linkedTree text) [] = ⟨[], {}, {}, {}⟩ := by cbv
  -- The root has no rules, so both of its entries are taken.
  let rules : IgnoreRules :=
    IgnoreRules.enter ⟨[], UserRules.read (linkedTree text)⟩ (linkedTree text) []
  have hrules (l : Location) (p : Path) (isDirectory : Bool) :
      rules.skips l p isDirectory = (l.getLast?.map IgnoreRules.isHidden).getD false := by
    change IgnoreRules.skips (IgnoreRules.enter _ _ _) l p isDirectory = _
    unfold IgnoreRules.enter
    rw [hlayer]
    rfl
  have hfirst : plainConversion.collector.atEntry look meet [] 2 (linkedTree text) rules [] []
      "a.html" = [.file withHeader] := by
    rw [atEntry_file rfl, hrules]
    rfl
  have hsecond : plainConversion.collector.atEntry look meet [] 2 (linkedTree text) rules []
      [.file withHeader] "b"
        = plainConversion.collector.foldBelow look meet [] 2 rules ["b"] [.file withHeader] := by
    rw [atEntry_directory rfl, hrules]
    rfl
  -- In the other directory the rules of its `.ignore` decide.
  obtain ⟨bytes, hfile⟩ :=
    h.get?_file (show (linkedTree text).get? ["b", "-->x.h"] = some (.file ⟨#[]⟩) from rfl)
  have hlink : (look [.file withHeader]).get? ["b", ".ignore"] = some (.link "/a.html") :=
    h.get?_link rfl
  have hthird : plainConversion.collector.atEntry look meet [] 1 (look [.file withHeader])
      (rules.enter (look [.file withHeader]) ["b"]) ["b"] [.file withHeader] "-->x.h"
        = .file withHeader :: if v = .ignored then [] else [.file withoutHeader] := by
    have hpath (n : Text) : Path.ofNames [n] = n := by
      simp [Path.ofNames, Text.join, List.intercalate]
    rw [← hpath "-->x.h"] at hv
    rw [atEntry_file hfile, List.nil_append, IgnoreRules.skips_enter hv]
    cases v <;> rfl
  have hfourth (es : List WalkEvent) :
      plainConversion.collector.atEntry look meet [] 1 (look [.file withHeader])
        (rules.enter (look [.file withHeader]) ["b"]) ["b"] es ".ignore" = es :=
    atEntry_link hlink
  have habove : (layersAbove (look []) []).reverse.flatMap IgnoreLayer.messages = [] := rfl
  apply (walk_of_directory hroot rfl habove).trans
  rw [foldBelow_succ, hbegin, List.nil_append, hnames, hdepth, List.foldl_cons, List.foldl_cons,
    List.foldl_nil]
  change atEntry _ _ _ _ _ _ rules _ (atEntry _ _ _ _ _ _ rules _ _ _) _ = _
  rw [hfirst, hsecond, foldBelow_succ, List.nil_append, h.names, hbelow, List.foldl_cons,
    List.foldl_cons, List.foldl_nil, hthird, hfourth]

/-- The ignore rules are what is in the file with a header. -/
lemma read_linkedTree {t : FileTree} {text' : Text} (h : (linkedTree text).Alike t)
    (hfile : t.get? withHeader = some (.file text'.toUtf8)) :
    IgnoreFile.read t ["b"] IgnoreLayer.ignoreParts = .ofBytes text'.toUtf8 := by
  have hfollow : (linkedTree text).follow .content maxLinks ["b"] IgnoreLayer.ignoreParts
      = .ok withHeader := by
    cbv
  unfold IgnoreFile.read
  rw [h.follow, hfollow]
  dsimp only [bytesAt]
  rw [hfile]

/-- The path of the file with a header leads to it. -/
lemma locate_linkedTree :
    (linkedTree text).locate .content (plainConversion.collector.pathOf withHeader)
      = .ok withHeader := by
  cbv

/-- The file with a header is one to rewrite. -/
lemma route_withHeader :
    Route.ofPath plainConversion.settings (Path.ofNames withHeader) = .rewrite .markup := by
  decide

/-- Rewriting turns what the header says as a rule into its opposite. -/
lemma rewritingOf_withHeader (dryRun : Bool) :
    (plainConversion.withDryRun dryRun).rewritingOf (linkedTree admittingText) .markup withHeader
      = .ok (.changed ignoringText []) :=
  (rewritingOf_of_get? locate_linkedTree rfl .markup).trans (ofContent_admittingText dryRun)

/-- No run stops at the file with a header. -/
lemma failure?_withHeader (dryRun : Bool) :
    (plainConversion.withDryRun dryRun).failure? (linkedTree admittingText) withHeader = none :=
  failure?_of_rewritingOf route_withHeader (rewritingOf_withHeader dryRun)

/-- What is in the tree at the beginning are both files. -/
lemma files_linkedTree :
    plainConversion.collector.files (linkedTree admittingText) = [withHeader, withoutHeader] := by
  have hread := read_linkedTree (.refl (linkedTree admittingText)) rfl
  unfold Collector.files
  rw [← walk_const, walk_linkedTree rfl (.refl _) (by rw [hread]; exact lastVerdict?_admittingText)]
  rfl

/-- The dry run meets both files, and stops at the second. -/
lemma outcome_dryRun_linkedTree :
    ((plainConversion.withDryRun true).run (linkedTree admittingText)).outcome
      = .error (.file "/b/-->x.h" .noHeader) := by
  have hmet : (plainConversion.withDryRun true).metFiles (linkedTree admittingText)
      = [withHeader, withoutHeader] := by
    unfold metFiles
    rw [walk_of_dryRun]
    exact files_linkedTree
  have hstop : (plainConversion.withDryRun true).failure? (linkedTree admittingText) withoutHeader
      = some (.file "/b/-->x.h" .noHeader) := by
    cbv
  refine (run_of_failure ?_).1
  rw [(converted_convertFiles _ (by decide)).failure, hmet, List.findSome?_cons,
    failure?_withHeader]
  dsimp only
  rw [List.findSome?_cons, hstop]

/-- A run that replaces the header meets the file with a header only. -/
lemma metFiles_linkedTree (hcollector : c.collector = plainConversion.collector)
    (hwritten : c.written? (linkedTree admittingText) withHeader = some ignoringText) :
    c.metFiles (linkedTree admittingText) = [withHeader] := by
  have hlocate : (linkedTree admittingText).locate .content (c.collector.pathOf withHeader)
      = .ok withHeader := by
    rw [hcollector]
    exact locate_linkedTree
  have hwrote : c.Wrote (linkedTree admittingText) ([] ++ [withHeader])
      (c.step { tree := linkedTree admittingText } (.file withHeader)).tree :=
    (Converted.start _ _).tree.step rfl (by simp [taken])
  have hread := read_linkedTree hwrote.alike
    (hwrote.written withHeader (by simp) ignoringText withHeader hwritten hlocate)
  unfold metFiles Conversion.walk
  rw [hcollector, walk_linkedTree rfl hwrote.alike (by exact hread ▸ lastVerdict?_ignoringText)]
  rfl

/-- A dry run can tell an error that the run that writes does not come to: what it writes to the
first file makes it ignore the second. -/
theorem outcome_of_linked_rules :
    ((plainConversion.withDryRun true).run (linkedTree admittingText)).outcome
        = .error (.file "/b/-->x.h" .noHeader) ∧
      ((plainConversion.withDryRun false).run (linkedTree admittingText)).outcome
        ≠ .error (.file "/b/-->x.h" .noHeader) := by
  refine ⟨outcome_dryRun_linkedTree, ?_⟩
  have hmet : (plainConversion.withDryRun false).metFiles (linkedTree admittingText)
      = [withHeader] :=
    metFiles_linkedTree rfl
      (replacement?_of_changed route_withHeader (rewritingOf_withHeader false))
  have hgoing : ((plainConversion.withDryRun false).convertFiles (linkedTree admittingText)).failure
      = none := by
    rw [(converted_convertFiles _ (by decide)).failure, hmet, List.findSome?_cons,
      failure?_withHeader]
    rfl
  have hrun := run_of_writing hgoing rfl
  split at hrun
  · rw [hrun.1]
    exact nofun
  · rw [hrun.1]
    intro h
    cases h

end LinkedRules

end Conversion

end SpdxHeaders
