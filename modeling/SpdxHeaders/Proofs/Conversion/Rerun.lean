import SpdxHeaders.Proofs.Authors
import SpdxHeaders.Proofs.Collector.Members
import SpdxHeaders.Proofs.Conversion.DryRun
import SpdxHeaders.Proofs.Conversion.Mending
import SpdxHeaders.Proofs.FileTree.Growth

/-!
# Running again

A run that goes well leaves nothing to do for a run that comes later, whatever is chosen for that
one (`run_again`). The files that it has converted hold tags, and those that held tags before still
do (`Finished.exists_isTagged`). If the rules are the same afterwards, the later run meets the same
files and, at most, the author list that the first has made (`Finished.mem_files_of_mem`).
-/

namespace SpdxHeaders.Conversion

/-- There is nothing to do for a file: the conversion does not stop there, nothing is written, and
the report names no authors. -/
structure Settled (c : Conversion) (t : FileTree) (names : List Text) : Prop where
  failure : c.failure? t names = none
  written : c.written? t names = none
  report : ∀ f, c.report? t names = some f →
    f.outcome ≠ .replaced ∧ f.outcome ≠ .wouldReplace ∧ f.authors = []

variable {c : Conversion} {t t' u : FileTree} {names : List Text} {a start : Location}
  {bytes : ByteArray} {style : CommentStyle}

/-- There is nothing to do for a file that is not to be rewritten. -/
lemma Settled.of_route
    (h : ∀ style, Route.ofPath c.settings (Path.ofNames names) ≠ .rewrite style) :
    c.Settled t names := by
  have hverdict : ∃ r, c.verdict t names = .ok r ∧ c.written? t names = none ∧
      ∀ f, r = some f → f.outcome ≠ .replaced ∧ f.outcome ≠ .wouldReplace ∧ f.authors = [] := by
    unfold verdict written? replacement?
    cases hroute : Route.ofPath c.settings (Path.ofNames names) with
    | rewrite style => exact absurd hroute (h style)
    | vendored => simp
    | ignorable => simp
    | unhandled => simp
    | exempt => simp
  obtain ⟨r, hr, hwritten, hreport⟩ := hverdict
  refine ⟨?_, hwritten, fun f hf => hreport f ?_⟩
  · unfold failure?
    rw [hr]
  · unfold report? at hf
    rwa [hr] at hf

/-- There is nothing to do for a file whose header holds tags. -/
lemma Settled.of_isTagged {text : Text}
    (hroute : Route.ofPath c.settings (Path.ofNames names) = .rewrite style)
    (htext : t.readText (c.collector.pathOf names) = .ok text)
    (h : Rewriting.IsTagged style text) :
    c.Settled t names ∧
      c.report? t names = some ⟨c.collector.pathOf names, .alreadyTagged, []⟩ := by
  obtain ⟨hverdict, hwritten⟩ := verdict_of_isTagged hroute htext h
  have hreport : c.report? t names = some ⟨c.collector.pathOf names, .alreadyTagged, []⟩ := by
    unfold report?
    rw [hverdict]
  refine ⟨⟨?_, hwritten, fun f hf => ?_⟩, hreport⟩
  · unfold failure?
    rw [hverdict]
  · rw [hreport] at hf
    cases hf
    exact ⟨nofun, nofun, rfl⟩

/-- If there is nothing to do for any file, a conversion meets all that is there, and leaves it as
it is. -/
lemma convertFiles_of_settled (ht : t.WellNamed)
    (h : ∀ names ∈ c.collector.files t, c.Settled t names) :
    c.metFiles t = c.collector.files t ∧ (c.convertFiles t).failure = none ∧
      (c.convertFiles t).tree = t ∧
      (c.convertFiles t).reports = (c.metFiles t).filterMap (c.report? t) := by
  rw [Collector.files_eq] at h ⊢
  have hunwritten : ∀ names ∈ (c.collector.events t).filterMap WalkEvent.file?,
      c.written? t names = none := fun names hnames => (h names hnames).written
  have hmet : c.metFiles t = (c.collector.events t).filterMap WalkEvent.file? := by
    unfold metFiles
    rw [walk_of_unwritten hunwritten]
  have hgoing : (c.metFiles t).findSome? (c.failure? t) = none :=
    List.findSome?_eq_none_iff.2 fun names hnames => (h names (hmet ▸ hnames)).failure
  have hconverted := c.converted_convertFiles ht
  refine ⟨hmet, hconverted.failure.trans hgoing, convertFiles_tree_of_unwritten hunwritten, ?_⟩
  rw [hconverted.reports, taken_of_going hgoing]

/-- If there is nothing to do for any file, a run goes well and reports just this, and changes
nothing but to append its list, which is empty. -/
lemma run_of_settled (ht : t.WellNamed) (h : ∀ names ∈ c.collector.files t, c.Settled t names)
    (ha : t.locate .creation c.authorsFile = .ok a) {old : ByteArray}
    (hfile : t.get? a = some (.file old)) :
    let report := c.reportOn ((c.metFiles t).filterMap (c.report? t))
    (c.run t).outcome = .ok report ∧
      (∀ f ∈ report.files, f.outcome ≠ .replaced ∧ f.outcome ≠ .wouldReplace) ∧
      report.authors = [] ∧
      (c.run t).tree = if c.options.dryRun then t
        else t.insert a (.file (old ++ report.authorsMarkdown.toUtf8)) := by
  intro report
  obtain ⟨hmet, hgoing, htree, hreports⟩ := convertFiles_of_settled ht h
  have hdone : ∀ f ∈ report.files,
      f.outcome ≠ .replaced ∧ f.outcome ≠ .wouldReplace ∧ f.authors = [] := by
    intro f hf
    obtain ⟨names, hmem, hreport⟩ := List.mem_filterMap.1 hf
    exact (h names (hmet ▸ hmem)).report f hreport
  have hrun : (c.run t).outcome = .ok report ∧ (c.run t).tree = if c.options.dryRun then t
      else t.insert a (.file (old ++ report.authorsMarkdown.toUtf8)) := by
    cases hdry : c.options.dryRun with
    | true =>
      have houtcome := run_of_dry hgoing hdry
      rw [hreports] at houtcome
      exact ⟨houtcome, run_tree_of_dryRun hdry⟩
    | false =>
      rw [← htree] at ha hfile
      have happend := run_of_append hgoing hdry (FileTree.append_of_file ha hfile _)
      rwa [htree, hreports] at happend
  refine ⟨hrun.1, fun f hf => ⟨(hdone f hf).1, (hdone f hf).2.1⟩, ?_, hrun.2⟩
  apply List.eq_nil_iff_forall_not_mem.2
  intro author hauthor
  obtain ⟨f, hf, hmem⟩ := List.mem_flatMap.1 (Authors.mem_ofEntries.1 hauthor)
  rw [(hdone f hf).2.2] at hmem
  cases hmem

/-- A tree that a run has left which went well: the files that it met were converted without fault,
and a file was put at a location, which is not the place of a file that was written. -/
structure Finished (c : Conversion) (t : FileTree) (a : Location) (t' : FileTree) : Prop where
  going : ∀ names ∈ c.metFiles t, c.failure? t names = none
  apart : ∀ names ∈ c.metFiles t, ∀ style,
    Route.ofPath c.settings (Path.ofNames names) = .rewrite style →
      t.locate .content (c.collector.pathOf names) ≠ .ok a
  exists_wrote : ∃ u bytes, c.Wrote t (c.metFiles t) u ∧ u.HasRoom a ∧ t' = u.insert a (.file bytes)

namespace Finished

/-- A path that leads somewhere leads there afterwards. -/
lemma locate (h : c.Finished t a t') {purpose : FileTree.Purpose} {p : Path} {l : Location}
    (hl : t.locate purpose p = .ok l) : t'.locate purpose p = .ok l := by
  obtain ⟨-, -, u, bytes, hwrote, hroom, rfl⟩ := h
  exact FileTree.locate_insert hroom ((hwrote.alike.locate ..).trans hl) bytes

/-- A run that is finished does not go to another directory. -/
lemma here (h : c.Finished t a t') : t'.here = t.here := by
  obtain ⟨-, -, u, bytes, hwrote, -, rfl⟩ := h
  exact hwrote.alike.here

/-- A run that is finished makes no names. -/
lemma garbled (h : c.Finished t a t') : t'.garbled = t.garbled := by
  obtain ⟨-, -, u, bytes, hwrote, -, rfl⟩ := h
  exact hwrote.alike.garbled

/-- Directories are where they were. -/
lemma get?_eq_directory_iff (h : c.Finished t a t') {l : Location} :
    t'.get? l = some .directory ↔ t.get? l = some .directory := by
  obtain ⟨-, -, u, bytes, hwrote, hroom, rfl⟩ := h
  rw [hroom.get?_insert_eq_directory_iff]
  constructor
  · exact hwrote.alike.symm.get?_directory
  · exact hwrote.alike.get?_directory

/-- Files are where they were, and where one was put. -/
lemma exists_file_iff (h : c.Finished t a t') {l : Location} :
    (∃ bytes, t'.get? l = some (.file bytes)) ↔ l = a ∨ ∃ bytes, t.get? l = some (.file bytes) := by
  obtain ⟨-, -, u, bytes, hwrote, hroom, rfl⟩ := h
  by_cases hl : l = a
  · subst hl
    rw [FileTree.get?_insert hroom.ne_nil, if_pos rfl]
    simp
  · rw [hroom.get?_insert hl, or_iff_right hl]
    constructor
    · rintro ⟨bytes, hfile⟩
      exact hwrote.alike.symm.get?_file hfile
    · rintro ⟨bytes, hfile⟩
      exact hwrote.alike.get?_file hfile

/-- Where a path led before the run, it leads afterwards. -/
lemma follow (h : c.Finished t a t') {links : Nat} {l l' : Location} {parts : List Text}
    (hl : t.follow .content links l parts = .ok l') :
    t'.follow .content links l parts = .ok l' := by
  obtain ⟨-, -, u, bytes, hwrote, hroom, rfl⟩ := h
  exact FileTree.follow_insert hroom ((hwrote.alike.follow ..).trans hl) bytes

/-- If names lead to the file that was put there, they lead to everything. -/
lemma wellNamed (h : c.Finished t a t') (ht : t.WellNamed) (ha : ∀ m ∈ a, IsName m) :
    t'.WellNamed := by
  obtain ⟨-, -, u, bytes, hwrote, -, rfl⟩ := h
  exact (hwrote.alike.wellNamed ht).insert ha _

/-- What stands in the place of a file that is not the one that was put there. -/
lemma get?_eq (h : c.Finished t a t') (ht : t.WellNamed) (hmem : names ∈ c.metFiles t)
    {l : Location} (hl : t.locate .content (c.collector.pathOf names) = .ok l) (hla : l ≠ a) :
    t'.get? l = match c.written? t names with
      | some content => some (.file content.toUtf8)
      | none => t.get? l := by
  obtain ⟨-, -, u, bytes, hwrote, hroom, rfl⟩ := h
  rw [hroom.get?_insert hla]
  cases hcontent : c.written? t names with
  | some content => exact hwrote.written names hmem content l hcontent hl
  | none =>
    exact hwrote.get?_of_unwritten (List.Subset.refl _) (c.metFiles_apart ht) hmem
      (fun _ => hcontent) hl

/-- If the rules are the same afterwards, the run has met what was there in the beginning. -/
lemma walk_eq (h : c.Finished t a t') (ht : t.WellNamed)
    (hrules : Collector.SameRules c.collector.root t t') :
    c.walk t = c.collector.events t := by
  rw [← Collector.walk_const]
  refine (Collector.walk_congr (.refl t) (.refl _ t) fun start es hstart hes => ?_).symm
  have hsub : es.filterMap WalkEvent.file? ⊆ c.metFiles t := (hes.filterMap _).subset
  have hsofar := (c.converted_of_isPrefix ht (.refl t) hes).tree
  rw [taken_of_going (List.findSome?_eq_none_iff.2 fun ns hns => h.going ns (hsub hns))] at hsofar
  -- What has been written so far is what is there in the end, where the rules are the same.
  refine .of_sameRules t' t hsofar.alike.symm
    (fun dir hdir => (hrules.layers start hstart dir (.inl hdir)).symm) ?_ ?_ fun l => ?_
  · intro links l parts l' hl
    exact h.follow ((hsofar.alike.follow ..).symm.trans hl)
  · intro links l parts l' hl
    exact (hsofar.alike.follow ..).symm.trans hl
  · by_cases hwritten : ∃ ns ∈ es.filterMap WalkEvent.file?, (c.written? t ns).isSome ∧
        t.locate .content (c.collector.pathOf ns) = .ok l
    · obtain ⟨ns, hns, hsome, hl⟩ := hwritten
      obtain ⟨content, hcontent⟩ := Option.isSome_iff_exists.1 hsome
      obtain ⟨style, -, -, hroute, -⟩ := exists_of_written? hcontent
      right
      rw [hsofar.written ns hns content l hcontent hl,
        h.get?_eq ht (hsub hns) hl (by rintro rfl; exact h.apart ns (hsub hns) style hroute hl),
        hcontent]
      exact ⟨rfl, rfl⟩
    · left
      rw [hsofar.kept l fun ns hns hsome hl => hwritten ⟨ns, hns, hsome, hl⟩]

section Members
variable (h : c.Finished t a t') (hstart : t.locate .content c.collector.root = .ok start)
  (hdir : t.get? start = some .directory) (hrules : Collector.SameRules c.collector.root t t')
include h hstart hdir hrules

/-- What is collected afterwards was collected in the beginning, but for the file that was put
there. -/
lemma mem_files_of_mem (hmem : names ∈ c.collector.files t') :
    start ++ names = a ∨ names ∈ c.collector.files t := by
  obtain ⟨hfound, hexcludes⟩ :=
    (Collector.mem_files_iff (h.locate hstart) (h.get?_eq_directory_iff.2 hdir)).1 hmem
  rcases h.exists_file_iff.1 hfound.exists_file with heq | hfile
  · exact .inl heq
  · refine .inr ((Collector.mem_files_iff hstart hdir).2 ⟨hfound.congr ?_ ?_ ?_ ?_ hfile, hexcludes⟩)
    · exact h.here.symm
    · exact h.garbled.symm
    · exact fun dir hdir' => (hrules.rulesIn hstart hdir').symm
    · exact fun l => h.get?_eq_directory_iff.1

/-- What was collected in the beginning is collected afterwards. -/
lemma mem_files (hmem : names ∈ c.collector.files t) : names ∈ c.collector.files t' := by
  obtain ⟨hfound, hexcludes⟩ := (Collector.mem_files_iff hstart hdir).1 hmem
  refine (Collector.mem_files_iff (h.locate hstart) (h.get?_eq_directory_iff.2 hdir)).2
    ⟨hfound.congr h.here h.garbled (fun dir hdir' => hrules.rulesIn hstart hdir')
      (fun l => h.get?_eq_directory_iff.2) ?_, hexcludes⟩
  exact h.exists_file_iff.2 (.inr hfound.exists_file)

end Members

/-- A file that was to be rewritten holds tags afterwards. -/
lemma exists_isTagged (h : c.Finished t a t') (ht : t.WellNamed) (hdry : c.options.dryRun = false)
    (hmem : names ∈ c.metFiles t)
    (hroute : Route.ofPath c.settings (Path.ofNames names) = .rewrite style) :
    ∃ text, t'.readText (c.collector.pathOf names) = .ok text ∧ Rewriting.IsTagged style text := by
  obtain ⟨r, hr⟩ := failure?_eq_none_iff.1 (h.going names hmem) style hroute
  obtain ⟨text, htext, hcontent⟩ := exists_of_rewritingOf hr
  obtain ⟨l, bytes, hl, hfile, hbytes⟩ := FileTree.exists_of_readText htext
  have hnode := h.get?_eq ht hmem hl (by rintro rfl; exact h.apart names hmem style hroute hl)
  have hwritten : c.written? t names = c.replacement? t names := by
    unfold written?
    rw [hdry, if_neg Bool.false_ne_true]
  cases r with
  | alreadyNormalized =>
    have hnone : c.written? t names = none := by
      rw [hwritten]
      unfold replacement?
      simp only [hroute, hr]
    rw [hnone] at hnode
    exact ⟨text, FileTree.readText_of_bytes (h.locate hl) (hnode.trans hfile) hbytes,
      Rewriting.ofContent_eq_alreadyNormalized_iff.1 hcontent⟩
  | changed content authors =>
    rw [hwritten, replacement?_of_changed hroute hr] at hnode
    exact ⟨content, FileTree.readText_of_get? (h.locate hl) hnode,
      Rewriting.isTagged_of_changed hcontent⟩

end Finished

/-- A report that a header was replaced or holds tags is one on a file to rewrite. -/
lemma route_of_report? {f : FileReport} (h : c.report? t names = some f)
    (hf : f.outcome = .replaced ∨ f.outcome = .alreadyTagged) :
    f.path = c.collector.pathOf names ∧
      ∃ style, Route.ofPath c.settings (Path.ofNames names) = .rewrite style := by
  cases reported_of_report? h with
  | tagged hroute | rewritten hroute => exact ⟨rfl, _, hroute⟩
  | _ => rcases hf with hf | hf <;> cases hf

/-- A report under the path of a file that leads somewhere is on this file. -/
lemma eq_of_report? {ns : List Text} {f : FileReport} {l : Location} (ht : t.WellNamed)
    (hns : ns ∈ c.metFiles t) (hnames : names ∈ c.metFiles t) (hgoing : c.failure? t ns = none)
    (hreport : c.report? t ns = some f) (hpath : f.path = c.collector.pathOf names)
    (hl : t.locate .content (c.collector.pathOf names) = .ok l) : ns = names := by
  have hpath' := path_of_report? hgoing
  rw [hreport, Option.map_some, hpath] at hpath'
  split at hpath'
  case isTrue => cases hpath'
  case isFalse =>
    have heq := Option.some.inj hpath'
    exact c.metFiles_apart ht ns hns names hnames l (heq ▸ hl) hl

/-- The name of the file for the author list, unless another is chosen. -/
def authorsName : Text := "AUTHORS.md"

/-- The author list is not rewritten. -/
lemma route_authorsName (settings : Settings) (style : CommentStyle) :
    Route.ofPath settings (Path.ofNames [authorsName]) ≠ .rewrite style :=
  Route.ofPath_ne_rewrite (by decide) settings style

/-- A run that writes and goes well leaves the files that it met converted, and its list in the
place for it below the root. -/
lemma finished_of_run (ht : t.WellNamed) (hdry : c.options.dryRun = false) {report : Report}
    (hrun : (c.run t).outcome = .ok report) (hroot : c.root = c.collector.root)
    (hstart : t.locate .content c.collector.root = .ok start)
    (hdir : t.get? start = some .directory) (hname : c.settings.authorsFile = authorsName)
    (hlink : ∀ target, t.get? (start ++ [authorsName]) ≠ some (.link target)) :
    c.Finished t (start ++ [authorsName]) (c.run t).tree ∧
      report.files = (c.metFiles t).filterMap (c.report? t) ∧
      t.locate .creation c.authorsFile = .ok (start ++ [authorsName]) := by
  obtain ⟨hgoing, rfl, happend⟩ := append_of_run hdry hrun
  obtain ⟨hwrote, hreports, hfailure⟩ := c.converted_convertFiles ht
  rw [hgoing] at hfailure
  rw [taken_of_going hfailure.symm] at hwrote hreports
  obtain ⟨a, ha, -, htree⟩ := FileTree.append_eq happend
  have hplace := (hwrote.alike.locate ..).symm.trans ha
  have hauthors : c.authorsFile = Path.join c.collector.root (Path.ofNames [authorsName]) := by
    unfold authorsFile
    rw [hroot, hname]
    rfl
  have hprefix : ∀ ns, ns <+: [authorsName] →
      ∀ target, t.get? (start ++ ns) ≠ some (.link target) := by
    intro ns hns target
    rcases List.prefix_concat_iff.1 (show ns <+: [] ++ [authorsName] from hns) with rfl | hns
    · exact hlink target
    · rw [List.prefix_nil.1 hns, List.append_nil, hdir]
      exact nofun
  obtain rfl : a = start ++ [authorsName] := by
    rw [hauthors] at hplace
    exact FileTree.locate_join hstart (by simp) (by decide) hprefix hplace
  have hroom : (c.convertFiles t).tree.HasRoom (start ++ [authorsName]) := by
    have hnotDirectory := FileTree.get?_ne_directory_of_append ha happend
    have hnotLink (target : Path) :
        (c.convertFiles t).tree.get? (start ++ [authorsName]) ≠ some (.link target) :=
      fun h => hlink target (hwrote.alike.symm.get?_link h)
    cases hnode : (c.convertFiles t).tree.get? (start ++ [authorsName]) with
    | none => exact .inl hnode
    | some node =>
      cases node with
      | file bytes => exact .inr ⟨bytes, hnode⟩
      | link target => exact absurd hnode (hnotLink target)
      | directory => exact absurd hnode hnotDirectory
  refine ⟨⟨List.findSome?_eq_none_iff.1 hfailure.symm, fun names hmem style hroute hl => ?_,
    _, _, hwrote, hroom, htree⟩, hreports, hplace⟩
  -- The only file in the place for the list has its name, and is not rewritten.
  obtain ⟨-, start', hplaced⟩ := c.metFiles_placed ht
  obtain rfl := Except.ok.inj ((hplaced names hmem).root.symm.trans hstart)
  obtain rfl := List.append_cancel_left ((hplaced names hmem).locate _ hl)
  exact route_authorsName c.settings style hroute

/-- There is nothing to do for the files that are collected after a run that went well, whatever is
chosen. Those that are to be rewritten hold tags. -/
lemma Finished.settled (h : c.Finished t (start ++ [authorsName]) t') (ht : t.WellNamed)
    (hdry : c.options.dryRun = false) (hstart : t.locate .content c.collector.root = .ok start)
    (hdir : t.get? start = some .directory) (hrules : Collector.SameRules c.collector.root t t')
    (options : ConversionOptions) (hmem : names ∈ c.collector.files t') :
    (c.withOptions options).Settled t' names ∧
      ∀ style, Route.ofPath c.settings (Path.ofNames names) = .rewrite style →
        (c.withOptions options).report? t' names
          = some ⟨c.collector.pathOf names, .alreadyTagged, []⟩ := by
  by_cases hroute : ∃ style, Route.ofPath c.settings (Path.ofNames names) = .rewrite style
  · obtain ⟨style, hroute⟩ := hroute
    have hold : names ∈ c.collector.files t := by
      refine (h.mem_files_of_mem hstart hdir hrules hmem).resolve_left fun heq => ?_
      obtain rfl := List.append_cancel_left heq
      exact route_authorsName c.settings style hroute
    have hmet : names ∈ c.metFiles t := by
      unfold metFiles
      rw [h.walk_eq ht hrules]
      exact hold
    obtain ⟨text, htext, htagged⟩ := h.exists_isTagged ht hdry hmet hroute
    obtain ⟨hsettled, hreport⟩ :=
      Settled.of_isTagged (c := c.withOptions options) hroute htext htagged
    exact ⟨hsettled, fun _ _ => hreport⟩
  · have hnot : ∀ style, Route.ofPath c.settings (Path.ofNames names) ≠ .rewrite style :=
      fun style h => hroute ⟨style, h⟩
    exact ⟨.of_route hnot, fun style h => absurd h (hnot style)⟩

/-- A file whose header was replaced or held tags is reported as one that holds tags by the run that
comes later, and not otherwise. -/
lemma Finished.mem_reports (h : c.Finished t (start ++ [authorsName]) t') (ht : t.WellNamed)
    (ht' : t'.WellNamed) (hdry : c.options.dryRun = false)
    (hstart : t.locate .content c.collector.root = .ok start)
    (hdir : t.get? start = some .directory)
    (hrules : Collector.SameRules c.collector.root t t') (options : ConversionOptions)
    {f : FileReport} (hf : f ∈ (c.metFiles t).filterMap (c.report? t))
    (houtcome : f.outcome = .replaced ∨ f.outcome = .alreadyTagged) :
    let c' := c.withOptions options
    ⟨f.path, .alreadyTagged, []⟩ ∈ (c'.metFiles t').filterMap (c'.report? t') ∧
      ∀ g ∈ (c'.metFiles t').filterMap (c'.report? t'), g.path = f.path →
        g.outcome = .alreadyTagged := by
  intro c'
  have hsettled : ∀ names ∈ c'.collector.files t', c'.Settled t' names :=
    fun names hmem => (h.settled ht hdry hstart hdir hrules options hmem).1
  obtain ⟨hmet, -⟩ := convertFiles_of_settled ht' hsettled
  obtain ⟨names, hmem, hreport⟩ := List.mem_filterMap.1 hf
  obtain ⟨hpath, style, hroute⟩ := route_of_report? hreport houtcome
  have hlater : names ∈ c'.metFiles t' := by
    rw [hmet]
    refine h.mem_files hstart hdir hrules ?_
    unfold metFiles at hmem
    rwa [h.walk_eq ht hrules] at hmem
  have htagged : c'.report? t' names = some ⟨f.path, .alreadyTagged, []⟩ := by
    rw [hpath]
    exact (h.settled ht hdry hstart hdir hrules options (hmet ▸ hlater)).2 style hroute
  refine ⟨List.mem_filterMap.2 ⟨names, hlater, htagged⟩, fun g hg hsame => ?_⟩
  -- Another report under this path would be on a file in the same place.
  obtain ⟨text, htext, -⟩ := h.exists_isTagged ht hdry hmem hroute
  obtain ⟨l, -, hl, -⟩ := FileTree.exists_of_readText htext
  obtain ⟨ns, hns, hreport'⟩ := List.mem_filterMap.1 hg
  obtain rfl := eq_of_report? ht' hns hlater (hsettled ns (hmet ▸ hns)).failure hreport'
    (hsame.trans hpath) hl
  rw [htagged] at hreport'
  cases hreport'
  rfl

/-- A run that comes after one that went well goes well too, and has nothing to do: it replaces no
header, and would replace none, and it finds tags where the first run has left them. Its author list
is empty, and it changes nothing but to append this list, unless it is a dry run. -/
theorem run_again {root : Path} {settings : Settings} {options : ConversionOptions}
    {report : Report} (hprepare : (prepare t root settings options).2 = .ok c) (ht : t.WellNamed)
    (hdry : options.dryRun = false) (hstart : t.locate .content root = .ok start)
    (hdir : t.get? start = some .directory) (hname : settings.authorsFile = authorsName)
    (hlink : ∀ target, t.get? (start ++ [authorsName]) ≠ some (.link target))
    (hrun : (c.run t).outcome = .ok report)
    (hrules : Collector.SameRules root t (c.run t).tree) (options' : ConversionOptions) :
    ∃ c' report', (prepare (c.run t).tree root settings options').2 = .ok c' ∧
      (c'.run (c.run t).tree).outcome = .ok report' ∧
      (∀ f ∈ report'.files, f.outcome ≠ .replaced ∧ f.outcome ≠ .wouldReplace) ∧
      (∀ f ∈ report.files, f.outcome = .replaced ∨ f.outcome = .alreadyTagged →
        ⟨f.path, .alreadyTagged, []⟩ ∈ report'.files ∧
          ∀ g ∈ report'.files, g.path = f.path → g.outcome = .alreadyTagged) ∧
      report'.authors = [] ∧
      ∃ old, (c.run t).tree.get? (start ++ [authorsName]) = some (.file old) ∧
        (c'.run (c.run t).tree).tree
          = if options'.dryRun then (c.run t).tree
            else (c.run t).tree.insert (start ++ [authorsName])
              (.file (old ++ report'.authorsMarkdown.toUtf8)) := by
  obtain ⟨hroot, rfl, hsettings, hoptions⟩ := eq_of_prepare hprepare
  have hdry' : c.options.dryRun = false := by rw [hoptions, hdry]
  obtain ⟨hfinished, hfiles, hplace⟩ :=
    finished_of_run ht hdry' hrun hroot hstart hdir (hsettings ▸ hname) hlink
  have hnames : ∀ m ∈ start ++ [authorsName], IsName m := by
    simp only [List.forall_mem_append, List.forall_mem_singleton]
    exact ⟨ht.isName_of_get? hdir, by decide⟩
  have ht' := hfinished.wellNamed ht hnames
  obtain ⟨old, hold⟩ := hfinished.exists_file_iff.2 (.inl rfl)
  obtain ⟨houtcome, hdone, hauthors, htree⟩ := run_of_settled (c := c.withOptions options') ht'
    (fun names hmem => (hfinished.settled ht hdry' hstart hdir hrules options' hmem).1)
    (hfinished.locate hplace) hold
  refine ⟨c.withOptions options', _,
    prepare_withOptions (prepare_of_sameRules hrules hprepare) options', houtcome, hdone,
    fun f hf => ?_, hauthors, old, hold, htree⟩
  rw [hfiles] at hf
  exact hfinished.mem_reports ht ht' hdry' hstart hdir hrules options' hf

section Manifest
variable {target : Path} {first second : Text}

/-- After a run that has rewritten a file there is nothing to do for it. -/
theorem run_again_headers :
    let t := manifestTree "/none" firstText firstText
    (prepare t "/" {} {}).2 = .ok plainConversion ∧ t.WellNamed ∧
      (∃ report, (plainConversion.run t).outcome = .ok report) ∧
      Collector.SameRules "/" t (plainConversion.run t).tree ∧
      ∃ c' report', (prepare (plainConversion.run t).tree "/" {} {}).2 = .ok c' ∧
        (c'.run (plainConversion.run t).tree).outcome = .ok report' ∧
        (∀ f ∈ report'.files, f.outcome ≠ .replaced ∧ f.outcome ≠ .wouldReplace) ∧
        report'.authors = [] := by
  intro t
  have ht : t.WellNamed := wellNamed_manifestTree
  have hprepare : (prepare t "/" {} {}).2 = .ok plainConversion := prepare_withoutManifest
  have hroot : t.locate .content "/" = .ok [] := by cbv
  have hlink (target : Path) : t.get? ([] ++ [authorsName]) ≠ some (.link target) := by
    intro h
    cases h
  have hgoing {names : List Text} (h : names = firstFile ∨ names = secondFile) :
      plainConversion.failure? t names = none :=
    (written?_manifestTree (.refl t) h (by rcases h with rfl | rfl <;> rfl) ofContent_firstText).1
  obtain ⟨⟨report, hrun⟩, u, hwrote, halike, -⟩ :=
    run_manifestTree (.refl t) (metFiles_manifestTree (.refl t) {})
      (List.forall_mem_cons.2 ⟨(unwritten_listFile plainConversion t).1,
        List.forall_mem_cons.2 ⟨hgoing (.inl rfl),
          List.forall_mem_singleton.2 (hgoing (.inr rfl))⟩⟩)
  have hrules : Collector.SameRules "/" t (plainConversion.run t).tree :=
    sameRules_manifestTree (.refl t) (hwrote.alike.trans halike)
  obtain ⟨c', report', hprepare', hrun', hdone, -, hauthors, -⟩ :=
    run_again hprepare ht rfl hroot rfl rfl hlink hrun hrules {}
  exact ⟨hprepare, ht, ⟨report, hrun⟩, hrules, c', report', hprepare', hrun', hdone, hauthors⟩

/-- A header with a line that lists the second file if it is read as a manifest. -/
def excludingText : Text := "/*\nFiles: b.h\n@license AGPL-3.0-or-later*/"

/-- Rewriting takes this line away. -/
lemma ofContent_excludingText :
    Rewriting.ofContent .block plainConversion.options excludingText
      = .ok (.changed rewrittenText []) :=
  Rewriting.ofContent_of_parse (b := ⟨[], excludingText, [], "*/"⟩)
    (a := ⟨[], none, [], "AGPL-3.0-or-later"⟩) rfl rfl (by decide +kernel)

/-- If the manifest is a link to a file that a run rewrites, a run that comes later can stop at a
file that was excluded before. -/
theorem run_again_manifest :
    let t := manifestTree "/a.h" excludingText []
    let c := excluding ⟨[], ["b.h"]⟩
    (prepare t "/" {} {}).2 = .ok c ∧ (∃ report, (c.run t).outcome = .ok report) ∧
      (prepare (c.run t).tree "/" {} {}).2 = .ok plainConversion ∧
      (plainConversion.run (c.run t).tree).outcome = .error (.file "/b.h" .noHeader) := by
  intro t c
  have hfirst : t.get? firstFile = some (.file excludingText.toUtf8) := rfl
  have hprepare : (prepare t "/" {} {}).2 = .ok c :=
    prepare_manifestTree (.refl t) (by cbv) hfirst rfl
  have hmet : c.metFiles t = [listFile, firstFile] :=
    (metFiles_manifestTree (.refl t) _).trans (by decide)
  obtain ⟨hgoing, hwritten⟩ :=
    written?_manifestTree (.refl t) (.inl rfl) hfirst ofContent_excludingText
  obtain ⟨houtcome, u, hwrote, halike, hsame⟩ := run_manifestTree (.refl t) hmet
    (List.forall_mem_cons.2 ⟨(unwritten_listFile c t).1, List.forall_mem_singleton.2 hgoing⟩)
  have halike' : t.Alike (c.run t).tree := hwrote.alike.trans halike
  have hmem : firstFile ∈ [listFile, firstFile] := by simp
  -- The header was rewritten, so that the manifest is empty now.
  have hrewritten : (c.run t).tree.get? firstFile = some (.file rewrittenText.toUtf8) :=
    (hsame _ (by decide)).trans
      (hwrote.written _ hmem _ _ hwritten (locate_manifestTree (.inl rfl)))
  have hprepare' : (prepare (c.run t).tree "/" {} {}).2 = .ok plainConversion :=
    prepare_manifestTree halike' (by cbv) hrewritten rfl
  have hsecond : (c.run t).tree.get? secondFile = some (.file (Text.toUtf8 [])) :=
    (hsame _ (by decide)).trans (hwrote.kept_manifestTree (.refl t) (.inl rfl) (by decide))
  obtain ⟨hstop, hfail, -⟩ := stopsAt_manifestTree halike'
    (failure?_of_rewrittenText halike' (.inl rfl) hrewritten) hsecond
  exact ⟨hprepare, houtcome, hprepare',
    (hstop.run (halike'.wellNamed wellNamed_manifestTree) hfail).1⟩

end Manifest

end SpdxHeaders.Conversion
