import SpdxHeaders.Proofs.Collector.Order
import SpdxHeaders.Proofs.Manifest

/-!
# Ignored directories and excluded files

Not entering the ignored directories comes to the same as leaving out what is below them
(`files_eq_filter`): neither are files lost elsewhere, nor does it change what is ignored there. The
walk with ignored directories enters the directories that the walk without them enters, but for
those at and below an ignored one (`entered_iff`); as both walks meet files in order, it does not
matter where on the way a file is left out.

A name that is not UTF-8 counts as the empty text, and so does an entry of slashes only, which looks
as if it stood for the root: it keeps the walk from entering the directories with such names
(`ignores_iff_of_slashes`, `entry_for_root_takes_files_away`).
-/

namespace SpdxHeaders.Collector

/-- The entry for ignored directories stands for a directory of the tree: it is its name as text, or
it is its path from the root as far as components go. The slashes around the entry do not count. -/
def Ignores (t : FileTree) (entry : Text) (dir : List Text) : Prop :=
  dir.getLast?.map t.nameText = some (trimSlashes entry) ∨
    Path.components (trimSlashes entry) = Path.components (Path.ofNames dir)

instance (t : FileTree) (entry : Text) (dir : List Text) : Decidable (Ignores t entry dir) :=
  inferInstanceAs (Decidable (_ ∨ _))

/-- A file is kept: no directory on the way to it from the root is ignored, and the manifest does
not exclude it. -/
structure Kept (t : FileTree) (ignoredDirs : List Text) (m : Manifest) (names : List Text) :
    Prop where
  entered : ∀ dir, dir <+: names → dir ≠ [] → dir ≠ names → ∀ entry ∈ ignoredDirs,
    ¬Ignores t entry dir
  included : m.excludes (Path.ofNames names) = false

instance (t : FileTree) (ignoredDirs : List Text) (m : Manifest) (names : List Text) :
    Decidable (Kept t ignoredDirs m names) :=
  decidable_of_iff
    ((∀ dir ∈ names.inits, dir ≠ [] → dir ≠ names → ∀ entry ∈ ignoredDirs, ¬Ignores t entry dir) ∧
      m.excludes (Path.ofNames names) = false)
    ⟨fun ⟨h, h'⟩ => ⟨fun dir hdir => h dir ((List.mem_inits _ _).2 hdir), h'⟩,
      fun ⟨h, h'⟩ => ⟨fun dir hdir => h dir ((List.mem_inits _ _).1 hdir), h'⟩⟩

/-- The collector without ignored directories and without a manifest. -/
abbrev bare (root : Path) : Collector :=
  ⟨root, [], {}⟩

variable {c : Collector} {t t' : FileTree} {root : Path} {start : Location} {names dir : List Text}
  {ignoredDirs ignoredDirs' entries entries' : List Text} {m m' : Manifest}

/-- The directories that are entered are those that are entered if none is ignored, without those at
or below an ignored one. -/
lemma entered_iff :
    Entered c t start names ↔ Entered (bare c.root) t start names ∧
      ∀ dir, dir <+: names → dir ≠ [] → c.prunes t dir = false := by
  constructor
  · intro h
    induction h with
    | root => exact ⟨.root, fun dir hdir hne => absurd (List.prefix_nil.1 hdir) hne⟩
    | entry _ hdirectory hskips hprunes ih =>
      refine ⟨ih.1.entry hdirectory hskips rfl, fun dir hdir hne => ?_⟩
      rcases List.prefix_concat_iff.1 hdir with rfl | hdir
      · exact hprunes
      · exact ih.2 dir hdir hne
  · rintro ⟨h, hprunes⟩
    induction h with
    | root => exact .root
    | entry _ hdirectory hskips _ ih =>
      refine Entered.entry (ih fun dir hdir => ?_) hdirectory hskips ?_
      · exact hprunes dir (hdir.trans (List.prefix_append ..))
      · exact hprunes _ List.prefix_rfl (List.append_ne_nil_of_right_ne_nil _ (by simp))

/-- The files that are come by are those that are if no directory is ignored, without those below an
ignored one. -/
lemma found_iff :
    Found c t start names ↔ Found (bare c.root) t start names ∧
      ∀ dir, dir <+: names → dir ≠ [] → dir ≠ names → c.prunes t dir = false := by
  constructor
  · rintro ⟨h, hfile, hskips⟩
    obtain ⟨h, hprunes⟩ := entered_iff.1 h
    refine ⟨.file h hfile hskips, fun dir hdir hne hne' => ?_⟩
    exact hprunes dir ((List.prefix_concat_iff.1 hdir).resolve_left hne') hne
  · rintro ⟨⟨h, hfile, hskips⟩, hprunes⟩
    refine .file (entered_iff.2 ⟨h, fun dir hdir hne => ?_⟩) hfile hskips
    refine hprunes dir (hdir.trans (List.prefix_append ..)) hne ?_
    rintro rfl
    exact absurd hdir.length_le (by simp)

/-- On the way to a directory that is entered lie directories. -/
lemma Entered.get?_of_isPrefix (h : Entered c t start names) (hdir : dir <+: names)
    (hne : dir ≠ []) : t.get? (start ++ dir) = some .directory := by
  induction h with
  | root => exact absurd (List.prefix_nil.1 hdir) hne
  | entry _ hdirectory _ _ ih =>
    rcases List.prefix_concat_iff.1 hdir with rfl | hdir
    · exact hdirectory
    · exact ih hdir

/-- On the way to a file that is collected lie directories. -/
lemma exists_directory_of_mem_files (h : names ∈ c.files t) (hdir : dir <+: names) (hne : dir ≠ [])
    (hne' : dir ≠ names) :
    ∃ start, t.locate .content c.root = .ok start ∧ t.get? (start ++ dir) = some .directory := by
  cases hstart : t.locate .content c.root with
  | error fault =>
    rw [files_of_error hstart] at h
    cases h
  | ok start =>
    refine ⟨start, rfl, ?_⟩
    by_cases hroot : t.get? start = some .directory
    · obtain ⟨⟨hentered, -, -⟩, -⟩ := (mem_files_iff hstart hroot).1 h
      exact hentered.get?_of_isPrefix ((List.prefix_concat_iff.1 hdir).resolve_left hne') hne
    · rw [files_of_not_directory hstart hroot] at h
      split at h
      case isTrue => cases h
      case isFalse =>
        rw [List.mem_singleton.1 h] at hdir
        exact absurd (List.prefix_nil.1 hdir) hne

/-- A directory is entered if no entry stands for it. -/
lemma prunes_eq_false_iff (h : ∀ n ∈ dir, IsName n) :
    (⟨root, ignoredDirs.map trimSlashes, m⟩ : Collector).prunes t dir = false ↔
      ∀ entry ∈ ignoredDirs, ¬Ignores t entry dir := by
  unfold prunes Ignores
  rw [Path.components_ofNames h]
  simp

/-- A file is kept if nothing on the way to it is pruned and the manifest does not exclude it. -/
lemma kept_iff (h : ∀ n ∈ names, IsName n) :
    Kept t ignoredDirs m names ↔
      (∀ dir, dir <+: names → dir ≠ [] → dir ≠ names →
        (⟨root, ignoredDirs.map trimSlashes, m⟩ : Collector).prunes t dir = false) ∧
      m.excludes (Path.ofNames names) = false := by
  have hdir (dir : List Text) (hd : dir <+: names) :
      (⟨root, ignoredDirs.map trimSlashes, m⟩ : Collector).prunes t dir = false ↔
        ∀ entry ∈ ignoredDirs, ¬Ignores t entry dir :=
    prunes_eq_false_iff fun n hn => h n (hd.subset hn)
  constructor
  · rintro ⟨hentered, hincluded⟩
    exact ⟨fun dir hd hne hne' => (hdir dir hd).2 (hentered dir hd hne hne'), hincluded⟩
  · rintro ⟨hprunes, hincluded⟩
    exact ⟨fun dir hd hne hne' => (hdir dir hd).1 (hprunes dir hd hne hne'), hincluded⟩

/-- A root that is a file is kept unless the manifest excludes it. -/
lemma kept_nil_iff : Kept t ignoredDirs m [] ↔ m.excludes (Path.ofNames []) = false :=
  ⟨(·.included), fun h => ⟨fun _ hdir hne => absurd (List.prefix_nil.1 hdir) hne, h⟩⟩

/-- The names of a file that is found can stand in paths. -/
lemma Found.isName (h : Found c t start names) (ht : t.WellNamed) : ∀ n ∈ names, IsName n := by
  obtain ⟨bytes, hfile⟩ := h.exists_file
  exact fun n hn => ht.isName_of_get? hfile n (List.mem_append_right start hn)

/-- A file is collected just if it is collected without ignored directories and without a manifest,
and is kept. -/
lemma mem_files_iff_kept (ht : t.WellNamed) :
    names ∈ (⟨root, ignoredDirs.map trimSlashes, m⟩ : Collector).files t ↔
      names ∈ (bare root).files t ∧ Kept t ignoredDirs m names := by
  cases hstart : t.locate .content root with
  | error fault =>
    rw [files_of_error hstart, files_of_error (c := bare root) hstart]
    simp
  | ok start =>
    by_cases hdir : t.get? start = some .directory
    · rw [mem_files_iff hstart hdir, mem_files_iff (c := bare root) hstart hdir, found_iff]
      constructor
      · rintro ⟨⟨h, hprunes⟩, hincluded⟩
        exact ⟨⟨h, rfl⟩, (kept_iff (h.isName ht)).2 ⟨hprunes, hincluded⟩⟩
      · rintro ⟨⟨h, -⟩, hkept⟩
        obtain ⟨hprunes, hincluded⟩ := (kept_iff (h.isName ht)).1 hkept
        exact ⟨⟨h, hprunes⟩, hincluded⟩
    · rw [files_of_not_directory hstart hdir, files_of_not_directory (c := bare root) hstart hdir]
      constructor
      · intro h
        split at h
        case isTrue => cases h
        case isFalse hincluded =>
          obtain rfl := List.mem_singleton.1 h
          exact ⟨List.mem_singleton.2 rfl, kept_nil_iff.2 (Bool.eq_false_of_not_eq_true hincluded)⟩
      · rintro ⟨h, hkept⟩
        obtain rfl := List.mem_singleton.1 h
        rw [kept_nil_iff.1 hkept, if_neg Bool.false_ne_true]
        exact List.mem_singleton.2 rfl

/-- With fewer ignored directories, and where less is excluded, more is kept. -/
lemma Kept.anti (h : Kept t ignoredDirs' m' names) (hdirs : ignoredDirs ⊆ ignoredDirs')
    (hm : ∀ p, m.excludes p = true → m'.excludes p = true) : Kept t ignoredDirs m names := by
  refine ⟨fun dir hdir hne hne' entry hentry => ?_, ?_⟩
  · exact h.entered dir hdir hne hne' entry (hdirs hentry)
  · refine Bool.eq_false_iff.2 fun hexcludes => ?_
    exact Bool.false_ne_true (h.included.symm.trans (hm _ hexcludes))

/-- An entry of slashes only stands for a directory just if its name is not UTF-8. -/
lemma ignores_iff_of_slashes {entry : Text} (hentry : ∀ c ∈ entry, c = '/') (hne : dir ≠ [])
    (hdir : ∀ n ∈ dir, IsName n) :
    Ignores t entry dir ↔ ∃ n, dir.getLast? = some n ∧ n ∈ t.garbled := by
  have htrim : trimSlashes entry = [] := by
    unfold trimSlashes
    rw [List.dropWhile_eq_nil_iff.2 (by simpa using hentry)]
    rfl
  obtain ⟨n, hn⟩ := Option.ne_none_iff_exists'.1 (mt List.getLast?_eq_none_iff.1 hne)
  have hname : t.nameText n = [] ↔ n ∈ t.garbled := by
    unfold FileTree.nameText
    split
    case isTrue hgarbled => exact iff_of_true rfl hgarbled
    case isFalse hgarbled => exact iff_of_false (hdir n (List.mem_of_getLast? hn)).ne_nil hgarbled
  -- No path with names has no components, so only the name can make the entry stand for it.
  have hpath : Path.components [] ≠ Path.components (Path.ofNames dir) := by
    rw [Path.components_ofNames hdir, show Path.components [] = [] from rfl]
    simpa [eq_comm] using hne
  unfold Ignores
  rw [htrim, or_iff_left hpath, hn]
  simp [hname]

section Filter
variable (ht : t.WellNamed)
include ht

/-- The files that are collected are those that are kept, in the same order. -/
lemma files_eq_filter_kept (root : Path) (ignoredDirs : List Text) (m : Manifest) :
    (⟨root, ignoredDirs.map trimSlashes, m⟩ : Collector).files t
      = ((bare root).files t).filter (Kept t ignoredDirs m ·) := by
  refine List.Pairwise.eq_of_mem_iff (files_ordered _ ht).1 ((files_ordered _ ht).1.filter _) ?_
  intro names
  rw [List.mem_filter, decide_eq_true_iff]
  exact mem_files_iff_kept ht

/-- Where the same files are kept, the same files are collected. -/
lemma files_congr_of_kept
    (h : ∀ names ∈ (bare root).files t,
      Kept t ignoredDirs' m' names ↔ Kept t ignoredDirs m names) :
    (⟨root, ignoredDirs'.map trimSlashes, m'⟩ : Collector).files t
      = (⟨root, ignoredDirs.map trimSlashes, m⟩ : Collector).files t := by
  rw [files_eq_filter_kept ht, files_eq_filter_kept ht]
  exact List.filter_congr fun names hmem => decide_eq_decide.2 (h names hmem)

/-- Where less is kept, less is collected. -/
lemma sublist_files_of_kept
    (h : ∀ names, Kept t ignoredDirs' m' names → Kept t ignoredDirs m names) :
    ((⟨root, ignoredDirs'.map trimSlashes, m'⟩ : Collector).files t).Sublist
      ((⟨root, ignoredDirs.map trimSlashes, m⟩ : Collector).files t) := by
  rw [files_eq_filter_kept ht, files_eq_filter_kept ht]
  refine List.monotone_filter_right _ fun names hkept => ?_
  exact decide_eq_true (h names (of_decide_eq_true hkept))

/-- Entries that stand for no directory below the root take nothing away. -/
lemma files_of_ignores_nothing (hdirs : ignoredDirs ⊆ ignoredDirs')
    (hnone : ∀ start dir, t.locate .content root = .ok start → dir ≠ [] →
      t.get? (start ++ dir) = some .directory →
      ∀ entry ∈ ignoredDirs', entry ∉ ignoredDirs → ¬Ignores t entry dir) :
    (⟨root, ignoredDirs'.map trimSlashes, m⟩ : Collector).files t
      = (⟨root, ignoredDirs.map trimSlashes, m⟩ : Collector).files t := by
  refine files_congr_of_kept ht fun names hmem => ⟨(·.anti hdirs fun _ => id), fun hkept => ?_⟩
  refine ⟨fun dir hdir hne hne' entry hentry => ?_, hkept.included⟩
  by_cases hold : entry ∈ ignoredDirs
  · exact hkept.entered dir hdir hne hne' entry hold
  · obtain ⟨start, hstart, hdirectory⟩ := exists_directory_of_mem_files hmem hdir hne hne'
    exact hnone start dir hstart hne hdirectory entry hentry hold

/-- Manifests that exclude the same files below a root which is a directory leave the same. -/
lemma files_of_excludes_eq (hstart : t.locate .content root = .ok start)
    (hdir : t.get? start = some .directory)
    (hsame : ∀ names bytes, t.get? (start ++ names) = some (.file bytes) →
      m'.excludes (Path.ofNames names) = m.excludes (Path.ofNames names)) :
    (⟨root, ignoredDirs.map trimSlashes, m'⟩ : Collector).files t
      = (⟨root, ignoredDirs.map trimSlashes, m⟩ : Collector).files t := by
  refine files_congr_of_kept ht fun names hmem => ?_
  obtain ⟨hfound, -⟩ := (mem_files_iff (c := bare root) hstart hdir).1 hmem
  obtain ⟨bytes, hfile⟩ := hfound.exists_file
  have hexcludes := hsame names bytes hfile
  exact ⟨fun h => ⟨h.entered, hexcludes ▸ h.included⟩,
    fun h => ⟨h.entered, hexcludes.symm ▸ h.included⟩⟩

/-- A manifest that excludes every path leaves no files. -/
lemma files_of_excludes_all (hall : ∀ names, m.excludes (Path.ofNames names) = true) :
    (⟨root, ignoredDirs.map trimSlashes, m⟩ : Collector).files t = [] := by
  rw [files_eq_filter_kept ht]
  refine List.filter_eq_nil_iff.2 fun names _ hkept => ?_
  have hincluded := (of_decide_eq_true hkept).included
  rw [hall] at hincluded
  cases hincluded

end Filter

/-- Not entering the ignored directories, and leaving out what the manifest excludes, keeps just the
files that are kept of those that are collected without, in the same order. So more ignored
directories and more entries of the manifest only take files away. An entry for an ignored directory
that stands for no directory below the root takes nothing away, and one of slashes only stands for
the directories whose names are not UTF-8. A manifest that excludes no other file below a root which
is a directory takes no other away, and one with an entry that spells the root takes all. -/
theorem files_eq_filter (root : Path) (ht : t.WellNamed) (ignoredDirs : List Text)
    (hm : Manifest.ofEntries entries = .ok m) :
    let files ignoredDirs m := (⟨root, ignoredDirs.map trimSlashes, m⟩ : Collector).files t
    files ignoredDirs m = (files [] {}).filter (Kept t ignoredDirs m ·) ∧
    (∀ ignoredDirs' entries' m', ignoredDirs ⊆ ignoredDirs' → entries ⊆ entries' →
      Manifest.ofEntries entries' = .ok m' →
      (files ignoredDirs' m').Sublist (files ignoredDirs m)) ∧
    (∀ ignoredDirs', ignoredDirs ⊆ ignoredDirs' →
      (∀ start dir, t.locate .content root = .ok start → dir ≠ [] →
        t.get? (start ++ dir) = some .directory →
        ∀ entry ∈ ignoredDirs', entry ∉ ignoredDirs → ¬Ignores t entry dir) →
      files ignoredDirs' m = files ignoredDirs m) ∧
    (∀ entry dir, (∀ c ∈ entry, c = '/') → dir ≠ [] → (∀ n ∈ dir, IsName n) →
      (Ignores t entry dir ↔ ∃ n, dir.getLast? = some n ∧ n ∈ t.garbled)) ∧
    (∀ m' start, t.locate .content root = .ok start → t.get? start = some .directory →
      (∀ names bytes, t.get? (start ++ names) = some (.file bytes) →
        m'.excludes (Path.ofNames names) = m.excludes (Path.ofNames names)) →
      files ignoredDirs m' = files ignoredDirs m) ∧
    ((∃ entry ∈ entries, ∀ c ∈ Manifest.fromRoot entry, c = '/') → files ignoredDirs m = []) := by
  intro files
  refine ⟨files_eq_filter_kept ht .., ?_, ?_, ?_, ?_, ?_⟩
  · intro ignoredDirs' entries' m' hdirs hentries hm'
    exact sublist_files_of_kept ht fun names hkept =>
      hkept.anti hdirs fun p => Manifest.excludes_mono hm hm' hentries
  · intro ignoredDirs' hdirs hnone
    exact files_of_ignores_nothing ht hdirs hnone
  · intro entry dir hentry hne hdir
    exact ignores_iff_of_slashes hentry hne hdir
  · intro m' start hstart hdir hsame
    exact files_of_excludes_eq ht hstart hdir hsame
  · rintro ⟨entry, hentry, hslashes⟩
    exact files_of_excludes_all ht fun names => Manifest.excludes_of_root hm hentry hslashes _

/-- What is in an ignored directory is left out. -/
theorem files_eq_filter_siblings :
    let c : Collector := ⟨"/", ["/a/".toList].map trimSlashes, ⟨[], ["x.h".toList]⟩⟩
    siblings.WellNamed ∧ Manifest.ofEntries ["./x.h".toList] = .ok c.manifest ∧
      c.files siblings = [["a.h".toList]] ∧
      c.files siblings =
        ((bare "/").files siblings).filter (Kept siblings ["/a/".toList] c.manifest ·) := by
  intro c
  have ht : siblings.WellNamed := by decide
  have hm : Manifest.ofEntries ["./x.h".toList] = .ok c.manifest := by rfl
  exact ⟨ht, hm, by cbv, (files_eq_filter "/" ht ["/a/".toList] hm).1⟩

/-- A tree with a file in a directory whose name is not UTF-8. -/
def garbledTree : FileTree where
  nodes := [(["\ufffd"], .directory), (["\ufffd", "a.h"], .file .empty)]
  garbled := ["\ufffd"]

/-- An entry for the root can take files away. Among the ignored directories one of slashes only,
which is neither the name nor the path of the directory with the file, takes the file from it if the
name is not UTF-8. In the manifest an entry that spells the root takes everything. -/
theorem entry_for_root_takes_files_away :
    let files ignoredDirs m := (⟨"/", ignoredDirs.map trimSlashes, m⟩ : Collector).files
    garbledTree.WellNamed ∧ files [] {} garbledTree = [["\ufffd".toList, "a.h".toList]] ∧
      trimSlashes "/" ≠ "\ufffd".toList ∧
      Path.components (trimSlashes "/") ≠ Path.components "\ufffd" ∧
      files ["/".toList] {} garbledTree = [] ∧
      siblings.WellNamed ∧ files [] {} siblings = [["a".toList, "x.h".toList], ["a.h".toList]] ∧
      ∃ m, Manifest.ofEntries ["./".toList] = .ok m ∧ files [] m siblings = [] := by
  intro files
  have hgarbled : (bare "/").files garbledTree = [["\ufffd".toList, "a.h".toList]] := by cbv
  have hpruned : (⟨"/", ["/".toList].map trimSlashes, {}⟩ : Collector).files garbledTree = [] := by
    cbv
  have hsiblings : (bare "/").files siblings = [["a".toList, "x.h".toList], ["a.h".toList]] := by
    cbv
  have hexcluded : (⟨"/", [], { paths := [[]] }⟩ : Collector).files siblings = [] := by cbv
  exact ⟨by decide, hgarbled, by decide, by decide, hpruned, by decide, hsiblings,
    { paths := [[]] }, by rfl, hexcluded⟩

end SpdxHeaders.Collector
