import SpdxHeaders.Proofs.Conversion.Footprint
import SpdxHeaders.Proofs.Conversion.Preparation
import SpdxHeaders.Proofs.Conversion.Resuming

/-!
# Mending what stopped a run

A run that stops at a file can be repeated when the file has been mended. The tree that such a
history leaves is ahead of the tree that was mended only (`Mended.ahead`), so that the run which
goes well in the end leaves what a single run leaves in the mended tree (`run_of_mended`).
-/

namespace SpdxHeaders

/-- A file without an extension that stands for a kind of source is not rewritten. -/
lemma Route.ofPath_ne_rewrite {p : Path} (h : family? p.extension = none) (settings : Settings)
    (style : CommentStyle) : ofPath settings p ≠ .rewrite style := by
  unfold ofPath
  rw [h]
  dsimp only
  unfold other
  split
  · exact nofun
  · split <;> exact nofun

namespace Conversion

/-- A run stops at the file that names lead to: the first one it meets that it cannot convert. -/
def StopsAt (c : Conversion) (t : FileTree) (names : List Text) : Prop :=
  (c.metFiles t).find? (fun ns => (c.failure? t ns).isSome) = some names

/-- The trees that two histories have come to. In the first, files were given a new content and
nothing was run. In the second, runs stopped at these files, one after the other, and each time the
file was given this content before the next run. The new content leaves the rules that are read
there the same. -/
inductive Mended (root : Path) (settings : Settings) (options : ConversionOptions)
    (t₀ : FileTree) : FileTree → FileTree → Prop where
  | start : Mended root settings options t₀ t₀ t₀
  | mend {u t u' t' : FileTree} {c : Conversion} {names : List Text} {bytes : ByteArray}
    (h : Mended root settings options t₀ u t)
    (hprepare : (prepare t root settings options).2 = .ok c) (hstop : c.StopsAt t names)
    (hmend : u.write (c.collector.pathOf names) bytes = .ok u')
    (hmend' : (c.run t).tree.write (c.collector.pathOf names) bytes = .ok t')
    (hrules : Collector.SameRules root u u') (hrules' : Collector.SameRules root t t') :
    Mended root settings options t₀ u' t'

variable {c : Conversion} {t t' u u' t₀ : FileTree} {before files : List (List Text)}
  {names ns : List Text} {l : Location} {old bytes : ByteArray} {root : Path} {settings : Settings}
  {options : ConversionOptions}

/-- A run that stops at a file has met others before, at which it does not stop. -/
lemma StopsAt.exists_split (h : c.StopsAt t names) :
    ∃ before later e, c.metFiles t = before ++ names :: later ∧
      (∀ ns ∈ before, c.failure? t ns = none) ∧ c.failure? t names = some e := by
  obtain ⟨hfail, before, later, hmet, hbefore⟩ := List.find?_eq_some_iff_append.1 h
  obtain ⟨e, he⟩ := Option.isSome_iff_exists.1 hfail
  exact ⟨before, later, e, hmet, fun ns hns => by simpa using hbefore ns hns, he⟩

/-- A run that stops at a file tells so, and writes nothing more. -/
lemma StopsAt.run (ht : t.WellNamed) (h : c.StopsAt t names) {e : ConversionError}
    (he : c.failure? t names = some e) :
    (c.run t).outcome = .error e ∧ (c.run t).tree = (c.convertFiles t).tree := by
  obtain ⟨before, later, e', hmet, hbefore, hfail⟩ := h.exists_split
  obtain rfl := Option.some.inj (hfail.symm.trans he)
  refine run_of_failure ?_
  rw [(c.converted_convertFiles ht).failure, hmet]
  exact List.findSome?_eq_some_iff.2 ⟨before, names, later, rfl, he, hbefore⟩

/-- The root itself is not a file at which a conversion stops. -/
lemma ne_nil_of_failure? {e : ConversionError} (h : c.failure? t names = some e) : names ≠ [] := by
  rintro rfl
  obtain ⟨style, cause, hroute, -⟩ := failure?_eq_some_iff.1 h
  exact Route.ofPath_ne_rewrite (by decide) c.settings style hroute

section Insert
variable (hfile : u.get? l = some (.file old))
include hfile

/-- A file is not the root of the tree. -/
lemma ne_nil_of_file : l ≠ [] := by
  rintro rfl
  cases hfile

/-- To mend a file does not matter to other files. -/
lemma failure?_insert (hother : u.locate .content (c.collector.pathOf ns) ≠ .ok l)
    (bytes : ByteArray) :
    c.failure? (u.insert l (.file bytes)) ns = c.failure? u ns := by
  refine failure?_congr (.insert hfile _) fun l' hl' => ?_
  rw [FileTree.get?_insert (ne_nil_of_file hfile), if_neg]
  rintro rfl
  exact hother hl'

/-- What is written to other files does not depend on the bytes of this one. -/
lemma written?_insert (hother : u.locate .content (c.collector.pathOf ns) ≠ .ok l)
    (bytes : ByteArray) :
    c.written? (u.insert l (.file bytes)) ns = c.written? u ns := by
  refine written?_congr (.insert hfile _) fun l' hl' => ?_
  rw [FileTree.get?_insert (ne_nil_of_file hfile), if_neg]
  rintro rfl
  exact hother hl'

/-- A file can be mended before or after others are converted. -/
lemma Wrote.insert_both (h : c.Wrote u files t)
    (hother : ∀ ns ∈ files, u.locate .content (c.collector.pathOf ns) ≠ .ok l)
    (bytes : ByteArray) :
    c.Wrote (u.insert l (.file bytes)) files (t.insert l (.file bytes)) := by
  have hroot := ne_nil_of_file hfile
  have halike : u.Alike (u.insert l (.file bytes)) := .insert hfile bytes
  obtain ⟨old', hfile'⟩ := h.alike.get?_file hfile
  refine ⟨(halike.symm.trans h.alike).trans (.insert hfile' bytes), ?_, fun l' hl' => ?_⟩
  · intro ns hns content l' hcontent hl'
    rw [halike.locate] at hl'
    rw [written?_insert hfile (hother ns hns)] at hcontent
    rw [FileTree.get?_insert hroot, if_neg, h.written ns hns content l' hcontent hl']
    rintro rfl
    exact hother ns hns hl'
  · rw [FileTree.get?_insert hroot, FileTree.get?_insert hroot]
    split
    case isTrue => rfl
    case isFalse =>
      apply h.kept l'
      intro ns hns hsome
      rw [← halike.locate]
      refine hl' ns hns ?_
      rwa [written?_insert hfile (hother ns hns)]

/-- A conversion meets the same up to the file that was mended. -/
lemma isPrefix_walk_insert (hu : u.WellNamed) {es : List WalkEvent} {names : List Text}
    (hes : es ++ [.file names] <+: c.walk u) (hnew : .file names ∉ es)
    (hother : ∀ ns ∈ c.metFiles u, ns ≠ names →
      u.locate .content (c.collector.pathOf ns) ≠ .ok l)
    (hrules : Collector.SameRules c.collector.root u (u.insert l (.file bytes))) :
    es <+: c.walk (u.insert l (.file bytes)) := by
  have halike : u.Alike (u.insert l (.file bytes)) := .insert hfile bytes
  have hsame : Collector.SameUntil (.file names ∈ ·) (c.walk u)
      (c.walk (u.insert l (.file bytes))) := by
    refine Collector.walk_sameUntil halike hrules fun start es' hstart hes' hnot => ?_
    have hout : ∀ ns ∈ es'.filterMap WalkEvent.file?,
        u.locate .content (c.collector.pathOf ns) ≠ .ok l := by
      intro ns hns
      refine hother ns ((hes'.filterMap _).subset hns) ?_
      rintro rfl
      obtain ⟨e, he, hfile⟩ := List.mem_filterMap.1 hns
      cases e <;> cases hfile
      exact hnot he
    have hold := (c.converted_of_isPrefix hu (.refl u) hes').tree
    have hmended := (c.converted_of_isPrefix hu halike hes').tree
    rw [(taken_congr fun ns hns => failure?_insert hfile (hout ns hns) bytes).1] at hmended
    have hsub : c.taken u (es'.filterMap WalkEvent.file?) ⊆ es'.filterMap WalkEvent.file? :=
      (List.takeWhile_prefix _).subset
    refine .of_sameRules u (u.insert l (.file bytes))
      ((hold.alike.symm.trans halike).trans hmended.alike)
      (fun dir hdir => hrules.layers start hstart dir (.inl hdir)) ?_ ?_ fun l' => ?_
    · intro links l parts l' hl
      exact (hold.alike.follow ..).symm.trans hl
    · intro links l parts l' hl
      exact (halike.follow ..).trans ((hold.alike.follow ..).symm.trans hl)
    · -- The mended file has not been met yet, and the others are not mended.
      by_cases hl' : l' = l
      · subst hl'
        refine .inr ⟨hold.kept l' fun ns hns _ => hout ns (hsub hns),
          hmended.kept l' fun ns hns _ => ?_⟩
        rw [halike.locate]
        exact hout ns (hsub hns)
      · left
        rw [(hold.insert_both hfile (fun ns hns => hout ns (hsub hns)) bytes).unique hmended l',
          FileTree.get?_insert (ne_nil_of_file hfile), if_neg hl']
  have hes' : es <+: c.walk u := (List.prefix_append ..).trans hes
  rcases hsame with heq | ⟨common, hmem, hcommon, hcommon'⟩
  · rw [heq]
    exact hes'
  · rcases List.prefix_or_prefix_of_prefix hes' hcommon with h | h
    · exact h.trans hcommon'
    · exact absurd (h.subset hmem) hnew

end Insert

/-- A tree that is ahead stays ahead when a run has stopped at a file of it and the file is
mended in both trees. -/
lemma Ahead.mend (hu : u.WellNamed) (h : c.Ahead u t) (hstop : c.StopsAt t names)
    (hmend : u.write (c.collector.pathOf names) bytes = .ok u')
    (hmend' : (c.run t).tree.write (c.collector.pathOf names) bytes = .ok t')
    (hrules : Collector.SameRules c.collector.root u u')
    (hrules' : Collector.SameRules c.collector.root t t') : u.Alike u' ∧ c.Ahead u' t' := by
  obtain ⟨before, later, e, hmet, hbefore, hfail⟩ := hstop.exists_split
  have hwalk : c.metFiles t = c.metFiles u := by
    unfold metFiles
    rw [h.walk_eq hu]
  rw [hwalk] at hmet
  have hnames : names ∈ c.metFiles u := by simp [hmet]
  have hbefore' : ∀ ns ∈ before, c.failure? u ns = none := by
    intro ns hns
    rw [← h.failure?_eq hu (by simp [hmet, hns]), hbefore ns hns]
  have hfail' : c.failure? u names = some e := by
    rw [← h.failure?_eq hu hnames, hfail]
  -- The run has converted just the files in front of the one where it stopped.
  have hwrote : c.Wrote u before (c.run t).tree := by
    have hconverted := (h.convertFiles hu).2
    rw [hmet, taken_of_stop hbefore' hfail'] at hconverted
    rwa [(hstop.run (h.alike.wellNamed hu) hfail).2]
  -- The file is mended in its place, where no other file is met.
  obtain ⟨hnodup, start, hplaced⟩ := c.metFiles_placed hu
  obtain ⟨l, hl, rfl⟩ := FileTree.exists_of_write hmend
  obtain ⟨l', hl', rfl⟩ := FileTree.exists_of_write hmend'
  obtain rfl : l = l' := Except.ok.inj (hl.symm.trans ((hwrote.alike.locate ..).symm.trans hl'))
  have hne := ne_nil_of_failure? hfail'
  have hplace := (hplaced names hnames).locate_below hne _ l hl
  obtain ⟨old, hfile⟩ := (hplaced names hnames).file hne
  rw [← hplace] at hfile
  have hother : ∀ ns ∈ c.metFiles u, ns ≠ names →
      u.locate .content (c.collector.pathOf ns) ≠ .ok l := by
    intro ns hns hne' hl'
    exact hne' (List.append_cancel_left (((hplaced ns hns).locate l hl').symm.trans hplace))
  rw [hmet] at hnodup
  have hnew : names ∉ before := fun hmem =>
    (List.nodup_append.1 hnodup).2.2 names hmem names List.mem_cons_self rfl
  have hout : ∀ ns ∈ before, u.locate .content (c.collector.pathOf ns) ≠ .ok l := by
    intro ns hns
    refine hother ns (by simp [hmet, hns]) ?_
    rintro rfl
    exact hnew hns
  -- So the files that are converted come first on the walk of the mended tree too.
  obtain ⟨es, hes, rfl⟩ := exists_isPrefix_walk hmet
  have halike : u.Alike (u.insert l (.file bytes)) := .insert hfile bytes
  refine ⟨halike, ⟨?_, es, ?_, fun ns hns => ?_, hwrote.insert_both hfile hout bytes⟩⟩
  · exact (hrules.symm halike).trans (h.rules.trans hrules' h.alike) halike.symm
  · refine isPrefix_walk_insert hfile hu hes (fun hmem => hnew ?_) hother hrules
    exact List.mem_filterMap.2 ⟨_, hmem, rfl⟩
  · rw [failure?_insert hfile (hout ns hns), hbefore' ns hns]

/-- What the runs that stopped have left is ahead of the tree that was mended only, and all the runs
are runs of the same conversion. -/
theorem Mended.ahead (hprepare : (prepare t₀ root settings options).2 = .ok c) (ht : t₀.WellNamed)
    (h : Mended root settings options t₀ u t) :
    t₀.Alike u ∧ c.Ahead u t ∧ (prepare u root settings options).2 = .ok c ∧
      (prepare t root settings options).2 = .ok c := by
  obtain ⟨-, hroot, -⟩ := eq_of_prepare hprepare
  induction h with
  | start => exact ⟨.refl t₀, .refl c t₀, hprepare, hprepare⟩
  | mend h hagain hstop hmend hmend' hrules hrules' ih =>
    obtain ⟨halike, hahead, hprepareu, hpreparet⟩ := ih
    obtain rfl := Except.ok.inj (hpreparet.symm.trans hagain)
    obtain ⟨halike', hahead'⟩ := hahead.mend (halike.wellNamed ht) hstop hmend hmend'
      (hroot ▸ hrules) (hroot ▸ hrules')
    exact ⟨halike.trans halike', hahead', prepare_of_sameRules hrules hprepareu,
      prepare_of_sameRules hrules' hpreparet⟩

/-- Runs that stop, are mended and are repeated until they go well leave what a single run leaves in
the mended tree, which goes well too. Only the file of the author list can be different. -/
theorem run_of_mended {report : Report} (hprepare : (prepare t₀ root settings options).2 = .ok c)
    (ht : t₀.WellNamed) (hdry : options.dryRun = false)
    (h : Mended root settings options t₀ u t) (hrun : (c.run t).outcome = .ok report) :
    (prepare t root settings options).2 = .ok c ∧ (prepare u root settings options).2 = .ok c ∧
      (∃ report', (c.run u).outcome = .ok report') ∧
      ∀ l, u.locate .creation c.authorsFile ≠ .ok l →
        (c.run u).tree.get? l = (c.run t).tree.get? l := by
  obtain ⟨halike, hahead, hprepareu, hpreparet⟩ := h.ahead hprepare ht
  obtain ⟨-, -, -, hoptions⟩ := eq_of_prepare hprepare
  have hdry' : c.options.dryRun = false := by rw [hoptions, hdry]
  have hu := halike.wellNamed ht
  refine ⟨hpreparet, hprepareu, ?_⟩
  obtain ⟨hfailure, htree⟩ := hahead.convertFiles hu
  have hwrote := (c.converted_convertFiles hu).tree
  -- Both runs append their lists in the same place, to files that can differ.
  obtain ⟨hgoing, -, happend⟩ := append_of_run hdry' hrun
  obtain ⟨u', happend'⟩ := (htree.alike.symm.trans hwrote.alike).exists_append happend
    (c.reportOn (c.convertFiles u).reports).authorsMarkdown.toUtf8
  obtain ⟨houtcome, rfl⟩ := run_of_append (hfailure.symm.trans hgoing) hdry' happend'
  refine ⟨⟨_, houtcome⟩, fun l hl => ?_⟩
  obtain ⟨a, ha, hne, heq⟩ := FileTree.append_eq happend
  obtain ⟨a', ha', hne', heq'⟩ := FileTree.append_eq happend'
  rw [htree.alike.locate] at ha
  rw [hwrote.alike.locate] at ha'
  rw [heq, heq', FileTree.get?_insert hne, FileTree.get?_insert hne', if_neg, if_neg,
    htree.unique hwrote l]
  · rintro rfl
    exact hl ha
  · rintro rfl
    exact hl ha'

section LinkedManifest
open Collector

/-- A header, and behind it a line that lists the first file if it is read as a manifest. -/
def listingText : Text := "/*@license AGPL-3.0-or-later*/\nFiles: a.h"

/-- Rewriting leaves this line as it is. -/
lemma ofContent_listingText :
    Rewriting.ofContent .block plainConversion.options listingText
      = .ok (.changed (rewrittenText ++ "\nFiles: a.h".toList) []) :=
  Rewriting.ofContent_of_parse (b := ⟨[], firstText, "\nFiles: a.h", "*/"⟩)
    (a := ⟨[], none, [], "AGPL-3.0-or-later"⟩) rfl rfl rfl

/-- The names of an author list. -/
def listFile : List Text := ["AUTHORS.md"]

/-- A tree with an author list and two files, where the manifest is a link. -/
def manifestTree (target : Path) (first second : Text) : FileTree where
  nodes :=
    [(listFile, .file ⟨#[]⟩), (firstFile, .file first.toUtf8), (secondFile, .file second.toUtf8),
      ([".reuse"], .directory), ([".reuse", "dep5"], .link target)]

/-- What is in this tree. -/
def manifestLocations : List Location :=
  [listFile, firstFile, secondFile, [".reuse"], [".reuse", "dep5"]]

/-- The conversion of all files below the root that a manifest does not exclude. -/
def excluding (manifest : Manifest) : Conversion :=
  { plainConversion with collector := { plainConversion.collector with manifest := manifest } }

variable {target : Path} {first second text : Text} {manifest : Manifest}

/-- The tree has no ignore files. -/
lemma withoutRules_manifestTree : WithoutRules (manifestTree target first second) := by
  change ∀ l ∈ manifestLocations, ∀ parts ∈ ruleParts, l.getLast? ≠ parts.head?
  decide

/-- The names in the tree can stand in paths. -/
lemma wellNamed_manifestTree : (manifestTree target first second).WellNamed := by
  change ∀ l ∈ manifestLocations, ∀ n ∈ l, IsName n
  decide

/-- The paths of both files lead to them. -/
lemma locate_manifestTree (h : names = firstFile ∨ names = secondFile) :
    (manifestTree target first second).locate .content (plainConversion.collector.pathOf names)
      = .ok names := by
  rcases h with rfl | rfl <;> cbv

/-- The author list is not rewritten. -/
lemma unwritten_listFile (c : Conversion) (t : FileTree) :
    c.failure? t listFile = none ∧ c.written? t listFile = none := by
  have hroute (style : CommentStyle) :
      Route.ofPath c.settings (Path.ofNames listFile) ≠ .rewrite style :=
    Route.ofPath_ne_rewrite (by decide) c.settings style
  refine ⟨failure?_eq_none_iff.2 fun style h => absurd h (hroute style), ?_⟩
  rw [Option.eq_none_iff_forall_ne_some]
  intro content hcontent
  obtain ⟨style, -, -, h, -⟩ := exists_of_written? hcontent
  exact hroute style h

section Like
variable (h : (manifestTree target first second).Alike t)
include h

/-- The author list and the files are met, but for those that the manifest excludes. -/
lemma metFiles_manifestTree (manifest : Manifest) :
    (excluding manifest).metFiles t = ((["AUTHORS.md", "a.h", "b.h"] : List Text).filter
      fun n => !manifest.excludes (Path.ofNames [n])).map fun n => [n] := by
  rw [metFiles_of_entries [".reuse", "AUTHORS.md", "a.h", "b.h"]
    (withoutRules_manifestTree.congr h) h.home ((h.locate ..).trans (by cbv))
    ((h.names ..).trans (by cbv)) ?_]
  · rfl
  · simp only [List.forall_mem_cons]
    exact ⟨fun hhidden => absurd hhidden (by decide), fun _ => h.get?_file rfl,
      fun _ => h.get?_file rfl, fun _ => h.get?_file rfl, by simp⟩

/-- The manifest is read from the file that the link leads to. -/
lemma prepare_manifestTree
    (htarget : (manifestTree target first second).locate .content (Path.join "/" manifestPath)
      = .ok l)
    (hfile : t.get? l = some (.file text.toUtf8))
    (hmanifest : Manifest.ofEntries (Manifest.entries text) = .ok manifest) :
    (prepare t "/" {} {}).2 = .ok (excluding manifest) := by
  unfold prepare Collector.prepare
  rw [manifestEntries_of_get? ((h.locate ..).trans htarget) hfile]
  dsimp only
  rw [hmanifest]
  rfl

/-- A file the text of which rewriting changes is written. -/
lemma written?_manifestTree (hnames : names = firstFile ∨ names = secondFile)
    (hfile : t.get? names = some (.file text.toUtf8)) {content : Text} {authors : List Text}
    (hchanged : Rewriting.ofContent .block plainConversion.options text
      = .ok (.changed content authors)) :
    plainConversion.failure? t names = none ∧
      plainConversion.written? t names = some content := by
  have hroute : Route.ofPath plainConversion.settings (Path.ofNames names) = .rewrite .block := by
    rcases hnames with rfl | rfl <;> decide
  have hrewriting : plainConversion.rewritingOf t .block names = .ok (.changed content authors) :=
    (rewritingOf_of_get? ((h.locate ..).trans (locate_manifestTree hnames)) hfile .block).trans
      hchanged
  exact ⟨failure?_of_rewritingOf hroute hrewriting, replacement?_of_changed hroute hrewriting⟩

/-- A conversion does not stop at a file that rewriting has made. -/
lemma failure?_of_rewrittenText (hnames : names = firstFile ∨ names = secondFile)
    (hfile : t.get? names = some (.file rewrittenText.toUtf8)) :
    plainConversion.failure? t names = none := by
  have hroute : Route.ofPath plainConversion.settings (Path.ofNames names) = .rewrite .block := by
    rcases hnames with rfl | rfl <;> decide
  have hl := (h.locate .content _).trans (locate_manifestTree hnames)
  unfold failure?
  rw [(verdict_of_isTagged hroute (FileTree.readText_of_get? hl hfile)
    (Rewriting.isTagged_of_changed ofContent_firstText)).1]

/-- A conversion that writes one of the two files at most leaves the other as it is. -/
lemma Wrote.kept_manifestTree (hwrote : (excluding manifest).Wrote t [listFile, names] u)
    (hnames : names = firstFile ∨ names = secondFile) (hl : l ≠ names) : u.get? l = t.get? l := by
  refine hwrote.kept l
    (List.forall_mem_cons.2 ⟨fun hsome => ?_, List.forall_mem_singleton.2 fun _ hl' => ?_⟩)
  · rw [(unwritten_listFile _ t).2] at hsome
    cases hsome
  · exact hl (Except.ok.inj (hl'.symm.trans ((h.locate ..).trans (locate_manifestTree hnames))))

/-- A conversion stops at the second file if it is empty, and not at the first. -/
lemma stopsAt_manifestTree (hfirst : plainConversion.failure? t firstFile = none)
    (hsecond : t.get? secondFile = some (.file (Text.toUtf8 []))) :
    plainConversion.StopsAt t secondFile ∧
      plainConversion.failure? t secondFile = some (.file "/b.h" .noHeader) ∧
      firstFile ∈ plainConversion.taken t (plainConversion.metFiles t) := by
  have hlist := (unwritten_listFile plainConversion t).1
  have hstop : plainConversion.failure? t secondFile = some (.file "/b.h" .noHeader) := by
    refine failure?_eq_some_iff.2 ⟨.block, .noHeader, by decide, ?_, rfl⟩
    rw [rewritingOf_of_get? ((h.locate ..).trans (locate_manifestTree (.inr rfl))) hsecond]
    rfl
  have hmet : plainConversion.metFiles t = [listFile, firstFile, secondFile] :=
    metFiles_manifestTree h {}
  unfold StopsAt
  rw [hmet]
  exact ⟨by simp [hlist, hfirst, hstop], hstop, by simp [taken, hlist, hfirst]⟩

/-- A run that stops at no file goes well. It writes these files, and besides them the author list
only. -/
lemma run_manifestTree {files : List (List Text)} (hmet : (excluding manifest).metFiles t = files)
    (hgoing : ∀ names ∈ files, plainConversion.failure? t names = none) :
    (∃ report, ((excluding manifest).run t).outcome = .ok report) ∧
      ∃ u, (excluding manifest).Wrote t files u ∧ u.Alike ((excluding manifest).run t).tree ∧
        ∀ l, l ≠ listFile → ((excluding manifest).run t).tree.get? l = u.get? l := by
  subst hmet
  have hfile : t.HasRoom listFile := .inr (h.get?_file rfl)
  obtain ⟨houtcome, u, bytes, hwrote, htree⟩ := run_of_going (h.wellNamed wellNamed_manifestTree)
    hgoing rfl ((h.locate ..).trans (by cbv)) hfile
  obtain ⟨old, hold⟩ := (h.trans hwrote.alike).get?_file (l := listFile) rfl
  rw [htree]
  exact ⟨houtcome, u, hwrote, .insert hold bytes,
    fun l hl => (hfile.of_alike hwrote.alike).get?_insert hl bytes⟩

/-- A run on a tree where the first file is listed leaves this file as it is. -/
lemma run_listing (htarget : target = "/b.h")
    (hsecond : t.get? secondFile = some (.file listingText.toUtf8)) :
    let c := excluding ⟨[], ["a.h"]⟩
    (prepare t "/" {} {}).2 = .ok c ∧ (∃ report, (c.run t).outcome = .ok report) ∧
      (c.run t).tree.get? firstFile = t.get? firstFile := by
  intro c
  subst htarget
  have hprepare : (prepare t "/" {} {}).2 = .ok c :=
    prepare_manifestTree h (by cbv) hsecond rfl
  have hmet : c.metFiles t = [listFile, secondFile] :=
    (metFiles_manifestTree h _).trans (by decide)
  obtain ⟨hgoing, -⟩ := written?_manifestTree h (.inr rfl) hsecond ofContent_listingText
  obtain ⟨houtcome, u, hwrote, -, hsame⟩ := run_manifestTree h hmet
    (List.forall_mem_cons.2 ⟨(unwritten_listFile c t).1, List.forall_mem_singleton.2 hgoing⟩)
  exact ⟨hprepare, houtcome, (hsame firstFile (by decide)).trans
    (hwrote.kept_manifestTree h (.inr rfl) (by decide))⟩

end Like

/-- A run that has stopped at an empty file leaves the other file rewritten. -/
lemma run_stopped (target : Path) :
    let t := manifestTree target firstText []
    plainConversion.StopsAt t secondFile ∧
      (plainConversion.run t).outcome = .error (.file "/b.h" .noHeader) ∧
      t.Alike (plainConversion.run t).tree ∧
      (plainConversion.run t).tree.get? firstFile = some (.file rewrittenText.toUtf8) := by
  intro t
  obtain ⟨hfirst, hwritten⟩ := written?_manifestTree (.refl t) (.inl rfl) rfl ofContent_firstText
  obtain ⟨hstop, hfail, htaken⟩ := stopsAt_manifestTree (.refl t) hfirst rfl
  obtain ⟨houtcome, htree⟩ := hstop.run wellNamed_manifestTree hfail
  have hwrote := (plainConversion.converted_convertFiles (t := t) wellNamed_manifestTree).tree
  rw [← htree] at hwrote
  exact ⟨hstop, houtcome, hwrote.alike,
    hwrote.written _ htaken _ _ hwritten (locate_manifestTree (.inl rfl))⟩

/-- The second file can be mended in any tree like this one. -/
lemma write_manifestTree (h : (manifestTree target first second).Alike t) (bytes : ByteArray) :
    ∃ t', t.write "/b.h" bytes = .ok t' ∧ t.Alike t' ∧
      t'.get? secondFile = some (.file bytes) ∧ t'.get? firstFile = t.get? firstFile := by
  obtain ⟨old, hold⟩ := h.get?_file (l := secondFile) rfl
  have hnode (l : Location) := FileTree.get?_insert (t := t) (k := l) (n := .file bytes)
    (ne_nil_of_file hold)
  exact ⟨_, FileTree.write_of_read ((h.locate ..).trans (locate_manifestTree (.inr rfl))) hold _,
    .insert hold bytes, (hnode _).trans (if_pos rfl), (hnode _).trans (if_neg (by decide))⟩

/-- Where the link leads nowhere there is no manifest. -/
lemma prepare_withoutManifest :
    (prepare (manifestTree "/none" first second) "/" {} {}).2 = .ok plainConversion := by
  unfold prepare Collector.prepare
  rw [manifestEntries_of_absent (by cbv)]
  rfl

/-- Where the link leads nowhere the rules do not change. -/
lemma sameRules_manifestTree (h : (manifestTree "/none" first second).Alike t)
    (h' : t.Alike t') : SameRules "/" t t' :=
  .of_withoutRules h' (withoutRules_manifestTree.congr h) h.home ((h.isFile _).trans (by cbv))

/-- A run that stopped at an empty file goes well when a header has been put there. -/
theorem run_of_mended_header :
    let t := manifestTree "/none" firstText []
    (prepare t "/" {} {}).2 = .ok plainConversion ∧ t.WellNamed ∧
      ∃ u t' report, Mended "/" {} {} t u t' ∧ t'.get? firstFile ≠ u.get? firstFile ∧
        (plainConversion.run t').outcome = .ok report ∧
        (∃ report', (plainConversion.run u).outcome = .ok report') ∧
        ∀ l, u.locate .creation plainConversion.authorsFile ≠ .ok l →
          (plainConversion.run u).tree.get? l = (plainConversion.run t').tree.get? l := by
  intro t
  have ht : t.WellNamed := wellNamed_manifestTree
  have hprepare : (prepare t "/" {} {}).2 = .ok plainConversion := prepare_withoutManifest
  obtain ⟨hstop, -, halike, hfirst⟩ := run_stopped "/none"
  obtain ⟨u, hwrite, halikeu, hsecondu, hfirstu⟩ := write_manifestTree (.refl t) firstText.toUtf8
  obtain ⟨t', hwrite', halike', hsecond', hfirst'⟩ := write_manifestTree halike firstText.toUtf8
  have hmended : Mended "/" {} {} t u t' :=
    .mend .start hprepare hstop hwrite hwrite' (sameRules_manifestTree (.refl t) halikeu)
      (sameRules_manifestTree (.refl t) (halike.trans halike'))
  -- The run finds tags in the first file, and rewrites the second.
  have hlist := (unwritten_listFile plainConversion t').1
  have htagged : plainConversion.failure? t' firstFile = none :=
    failure?_of_rewrittenText (halike.trans halike') (.inl rfl) (hfirst'.trans hfirst)
  obtain ⟨hheader, -⟩ :=
    written?_manifestTree (halike.trans halike') (.inr rfl) hsecond' ofContent_firstText
  obtain ⟨⟨report, hrun⟩, -⟩ :=
    run_manifestTree (halike.trans halike') (metFiles_manifestTree (halike.trans halike') {})
      (List.forall_mem_cons.2 ⟨hlist, List.forall_mem_cons.2 ⟨htagged,
        List.forall_mem_singleton.2 hheader⟩⟩)
  obtain ⟨-, -, hrunu, hsame⟩ := run_of_mended hprepare ht rfl hmended hrun
  refine ⟨hprepare, ht, u, t', report, hmended, ?_, hrun, hrunu, hsame⟩
  rw [hfirst', hfirst, hfirstu]
  exact file_rewrittenText_ne

/-- If the mended file holds the manifest, a run that is repeated does not leave what a single run
leaves: the file that was converted first is listed then. -/
theorem run_of_mended_manifest :
    let t := manifestTree "/b.h" firstText []
    let c := excluding ⟨[], ["a.h"]⟩
    (prepare t "/" {} {}).2 = .ok plainConversion ∧
      (plainConversion.run t).outcome = .error (.file "/b.h" .noHeader) ∧
      ∃ t' u, (plainConversion.run t).tree.write "/b.h" listingText.toUtf8 = .ok t' ∧
        t.write "/b.h" listingText.toUtf8 = .ok u ∧
        (prepare t' "/" {} {}).2 = .ok c ∧ (∃ report, (c.run t').outcome = .ok report) ∧
        (prepare u "/" {} {}).2 = .ok c ∧ (∃ report, (c.run u).outcome = .ok report) ∧
        (c.run t').tree.get? firstFile ≠ (c.run u).tree.get? firstFile := by
  intro t c
  have hsecond : t.get? secondFile = some (.file (Text.toUtf8 [])) := rfl
  have hprepare : (prepare t "/" {} {}).2 = .ok plainConversion :=
    prepare_manifestTree (.refl t) (by cbv) hsecond rfl
  obtain ⟨-, houtcome, halike, hconverted⟩ := run_stopped "/b.h"
  obtain ⟨t', hwrite, halike', hlisting, hfirst⟩ :=
    write_manifestTree halike listingText.toUtf8
  obtain ⟨u, hwriteu, halikeu, hlistingu, hfirstu⟩ :=
    write_manifestTree (.refl t) listingText.toUtf8
  -- In both trees the first file is listed now, and is left as it is.
  obtain ⟨hprepare', houtcome', hkept⟩ := run_listing (halike.trans halike') rfl hlisting
  obtain ⟨hprepareu, houtcomeu, hkeptu⟩ := run_listing halikeu rfl hlistingu
  refine ⟨hprepare, houtcome, t', u, hwrite, hwriteu, hprepare', houtcome', hprepareu, houtcomeu,
    ?_⟩
  rw [hkept, hfirst, hconverted, hkeptu, hfirstu]
  exact file_rewrittenText_ne

end LinkedManifest

end Conversion

end SpdxHeaders
