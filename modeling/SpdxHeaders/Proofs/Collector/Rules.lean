import SpdxHeaders.Collector
import SpdxHeaders.Proofs.FileTree.Names
import SpdxHeaders.Proofs.FileTree.Overwriting

/-!
# The rules of a walk

What a walk goes by: the ignore rules of the directories above, at and below the root, the user's
own rules, and the manifest. Two trees can have the same rules (`SameRules`), and a tree can look
like another for as long as a walk goes on below a location (`LooksLike`). Rules are read from the
node that a path leads to, so a file matters to them only if a path of theirs leads there.
-/

namespace SpdxHeaders.Collector

/-- The paths from a directory to the files with its ignore rules. -/
def ruleParts : List (List Text) :=
  [IgnoreLayer.ignoreParts, IgnoreLayer.gitignoreParts, IgnoreLayer.excludeParts]

/-- There are no ignore files in the tree. -/
def WithoutRules (t : FileTree) : Prop :=
  ∀ l ∈ t.nodes.map Prod.fst, ∀ parts ∈ ruleParts, l.getLast? ≠ parts.head?

instance (t : FileTree) : Decidable (WithoutRules t) :=
  inferInstanceAs
    (Decidable (∀ l ∈ t.nodes.map Prod.fst, ∀ parts ∈ ruleParts, l.getLast? ≠ parts.head?))

/-- Two trees have the same rules for what is below a root. -/
structure SameRules (root : Path) (t t' : FileTree) : Prop where
  /-- The directories above, at and below the root have the same ignore rules. -/
  layers : ∀ start, t.locate .content root = .ok start → ∀ dir, start <+: dir ∨ dir <+: start →
    IgnoreLayer.read t' dir = IgnoreLayer.read t dir
  /-- The user has the same rules. -/
  own : UserRules.read t' = UserRules.read t
  /-- The manifest has the same entries. -/
  manifest : manifestEntries t' root = manifestEntries t root

/-- A tree that a walk from a location cannot tell from another: it is like the other, and the
directories at and below the location have the same ignore rules. -/
structure LooksLike (start : Location) (t t' : FileTree) : Prop where
  alike : t.Alike t'
  rules : ∀ dir, start <+: dir → IgnoreLayer.read t' dir = IgnoreLayer.read t dir

variable {root : Path} {start dir : Location} {t t' t'' : FileTree} {parts : List Text}

/-- A directory is pruned by its name in all trees in which the same names are not UTF-8. -/
lemma prunes_congr (c : Collector) (h : t'.garbled = t.garbled) (names : List Text) :
    c.prunes t' names = c.prunes t names := by
  unfold prunes FileTree.nameText
  rw [h]

/-- In a tree without ignore files no path leads to one. -/
lemma WithoutRules.follow_ne (h : WithoutRules t) {links : Nat} {l : Location}
    (hparts : parts ∈ ruleParts) : t.follow .content links dir parts ≠ .ok l := by
  have hname : ∀ ps ∈ ruleParts, ∃ n rest, ps = n :: rest ∧ IsName n := by
    simp only [ruleParts, List.forall_mem_cons, List.not_mem_nil, false_implies, implies_true,
      and_true]
    exact ⟨⟨_, _, rfl, by decide⟩, ⟨_, _, rfl, by decide⟩, ⟨_, _, rfl, by decide⟩⟩
  obtain ⟨n, rest, rfl, hn⟩ := hname parts hparts
  intro hl
  exact h _ (FileTree.mem_locations_of_follow hn hl) _ hparts (by simp)

/-- In a tree without ignore files no directory has rules. -/
lemma WithoutRules.read (h : WithoutRules t) (dir : Location) :
    IgnoreLayer.read t dir = ⟨dir, {}, {}, {}⟩ := by
  have hnone {parts : List Text} (hparts : parts ∈ ruleParts) :
      IgnoreFile.read t dir parts = {} := by
    unfold IgnoreFile.read
    split
    case h_1 => rfl
    case h_2 l hl => exact absurd hl (h.follow_ne hparts)
  unfold IgnoreLayer.read
  rw [hnone (by simp [ruleParts]), hnone (by simp [ruleParts]), hnone (by simp [ruleParts])]

/-- Trees that are alike have no ignore files both. -/
lemma WithoutRules.congr (h : WithoutRules t) (halike : t.Alike t') : WithoutRules t' :=
  fun l hl => h l ((halike.locations l).1 hl)

/-- Directories have the same rules just if they have the same ignore files. -/
lemma ignoreLayer_eq_iff :
    IgnoreLayer.read t' dir = IgnoreLayer.read t dir ↔
      ∀ parts ∈ ruleParts, IgnoreFile.read t' dir parts = IgnoreFile.read t dir parts := by
  simp [IgnoreLayer.read, ruleParts]

/-- Ignore files depend on the node that the path leads to only. -/
lemma ignoreFile_eq_of_follow {l : Location}
    (h : t.follow .content FileTree.maxLinks dir parts = .ok l)
    (h' : t'.follow .content FileTree.maxLinks dir parts = .ok l) (hsame : t'.get? l = t.get? l) :
    IgnoreFile.read t' dir parts = IgnoreFile.read t dir parts := by
  unfold IgnoreFile.read
  rw [h, h']
  dsimp only [FileTree.bytesAt]
  rw [hsame]

/-- An ignore file is the same in trees that are alike and agree on it. -/
lemma ignoreFile_congr (h : t.Alike t')
    (hsame : ∀ l, t.follow .content FileTree.maxLinks dir parts = .ok l → t'.get? l = t.get? l) :
    IgnoreFile.read t' dir parts = IgnoreFile.read t dir parts := by
  cases hl : t.follow .content FileTree.maxLinks dir parts with
  | error e =>
    unfold IgnoreFile.read
    rw [h.follow, hl]
  | ok l => exact ignoreFile_eq_of_follow hl ((h.follow ..).trans hl) (hsame l hl)

/-- A tree looks like itself. -/
lemma LooksLike.refl (start : Location) (t : FileTree) : LooksLike start t t :=
  ⟨.refl t, fun _ _ => rfl⟩

/-- Trees look alike if the files with ignore rules are the same. -/
lemma LooksLike.of_kept (h : t.Alike t')
    (hsame : ∀ dir, start <+: dir → ∀ parts ∈ ruleParts, ∀ l,
      t.follow .content FileTree.maxLinks dir parts = .ok l → t'.get? l = t.get? l) :
    LooksLike start t t' :=
  ⟨h, fun dir hdir => ignoreLayer_eq_iff.2 fun parts hparts =>
    ignoreFile_congr h (hsame dir hdir parts hparts)⟩

/-- Trees look alike if they differ only where two trees with the same rules differ. -/
lemma LooksLike.of_sameRules (u u' : FileTree) (h : t.Alike t')
    (hrules : ∀ dir, start <+: dir → IgnoreLayer.read u' dir = IgnoreLayer.read u dir)
    (hu : ∀ links l parts l', t.follow .content links l parts = .ok l' →
      u.follow .content links l parts = .ok l')
    (hu' : ∀ links l parts l', t.follow .content links l parts = .ok l' →
      u'.follow .content links l parts = .ok l')
    (hsame : ∀ l, t'.get? l = t.get? l ∨ t.get? l = u.get? l ∧ t'.get? l = u'.get? l) :
    LooksLike start t t' := by
  refine ⟨h, fun dir hdir => ignoreLayer_eq_iff.2 fun parts hparts => ?_⟩
  cases hl : t.follow .content FileTree.maxLinks dir parts with
  | error e =>
    unfold IgnoreFile.read
    rw [h.follow, hl]
  | ok l =>
    have hl' := (h.follow ..).trans hl
    rcases hsame l with hsame | ⟨hold, hnew⟩
    · exact ignoreFile_eq_of_follow hl hl' hsame
    · calc IgnoreFile.read t' dir parts
          = IgnoreFile.read u' dir parts :=
            ignoreFile_eq_of_follow (hu' _ _ _ _ hl) hl' hnew
        _ = IgnoreFile.read u dir parts := ignoreLayer_eq_iff.1 (hrules dir hdir) parts hparts
        _ = IgnoreFile.read t dir parts :=
            (ignoreFile_eq_of_follow (hu _ _ _ _ hl) hl hold).symm

/-- The entries of the manifest are those in the file that its path leads to. -/
lemma manifestEntries_of_get? {l : Location} {text : Text}
    (hl : t.locate .content (Path.join root manifestPath) = .ok l)
    (hfile : t.get? l = some (.file text.toUtf8)) :
    manifestEntries t root = .ok (Manifest.entries text) := by
  have hisFile : t.isFile (Path.join root manifestPath) = true := by
    unfold FileTree.isFile FileTree.node?
    simp only [hl, hfile]
  unfold manifestEntries
  rw [if_pos hisFile, FileTree.readText_of_get? hl hfile]

/-- Without a manifest there are no entries. -/
lemma manifestEntries_of_absent (h : t.isFile (Path.join root manifestPath) = false) :
    manifestEntries t root = .ok [] := by
  unfold manifestEntries
  rw [if_neg (by rw [h]; exact Bool.false_ne_true)]

/-- The collector that is prepared for a root walks this root, and leaves out the ignored
directories without the slashes around them. -/
lemma eq_of_prepare {ignoredDirs : List Text} {c : Collector}
    (h : (Collector.prepare t root ignoredDirs).2 = .ok c) :
    c = ⟨root, ignoredDirs.map trimSlashes, c.manifest⟩ := by
  unfold prepare at h
  split at h
  · cases h
  · dsimp only at h
    split at h
    · cases h
      rfl
    · cases h

/-- A collector is prepared for its root. -/
lemma root_of_prepare {ignoredDirs : List Text} {c : Collector}
    (h : (Collector.prepare t root ignoredDirs).2 = .ok c) : c.root = root := by
  rw [eq_of_prepare h]

namespace SameRules

/-- A tree has the rules that it has. -/
lemma refl (root : Path) (t : FileTree) : SameRules root t t :=
  ⟨fun _ _ _ _ => rfl, rfl, rfl⟩

/-- Without ignore files, a home directory and a manifest there are no rules to differ. -/
lemma of_withoutRules (halike : t.Alike t') (h : WithoutRules t) (hhome : t.home = none)
    (hmanifest : t.isFile (Path.join root manifestPath) = false) : SameRules root t t' := by
  have hmanifest' : t'.isFile (Path.join root manifestPath) = false := by
    rwa [halike.isFile]
  have hown {t : FileTree} (hhome : t.home = none) : UserRules.read t = {} := by
    simp [UserRules.read, UserRules.file?, hhome]
  refine ⟨fun _ _ dir _ => (h.congr halike).read dir ▸ (h.read dir).symm, ?_, ?_⟩
  · rw [hown hhome, hown (halike.home.trans hhome)]
  · rw [manifestEntries_of_absent hmanifest, manifestEntries_of_absent hmanifest']

/-- What has the same rules as a tree with the same rules has the same rules, where the root is the
same place in them. -/
lemma trans (h : SameRules root t t') (h' : SameRules root t' t'') (halike : t.Alike t') :
    SameRules root t t'' :=
  ⟨fun start hstart dir hdir =>
    (h'.layers start ((halike.locate ..).trans hstart) dir hdir).trans
      (h.layers start hstart dir hdir),
    h'.own.trans h.own, h'.manifest.trans h.manifest⟩

/-- Which of two trees that are alike comes first does not matter. -/
lemma symm (h : SameRules root t t') (halike : t.Alike t') : SameRules root t' t :=
  ⟨fun start hstart dir hdir =>
    (h.layers start ((halike.locate ..).symm.trans hstart) dir hdir).symm,
    h.own.symm, h.manifest.symm⟩

/-- The collector that is prepared depends on the rules only. -/
lemma prepare (h : SameRules root t t') (ignoredDirs : List Text) :
    Collector.prepare t' root ignoredDirs = Collector.prepare t root ignoredDirs := by
  unfold Collector.prepare
  rw [h.manifest]

/-- The rules of the directories above a directory at or below the root. -/
lemma layersAbove (h : SameRules root t t') (hstart : t.locate .content root = .ok start)
    (hdir : start <+: dir) : Collector.layersAbove t' dir = Collector.layersAbove t dir := by
  unfold Collector.layersAbove
  congr 1
  apply List.map_congr_left
  intro n _
  -- What is above a directory below the root is above the root or below it.
  exact h.layers start hstart _ (List.prefix_or_prefix_of_prefix hdir (List.take_prefix n dir))

end SameRules

end SpdxHeaders.Collector
