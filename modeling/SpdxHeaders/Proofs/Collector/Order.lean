import Mathlib
import SpdxHeaders.Proofs.Collector.Members
import SpdxHeaders.Proofs.FileTree.Growth
import SpdxHeaders.Proofs.FileTree.Listing
import SpdxHeaders.Proofs.Path
import SpdxHeaders.Proofs.Text.ByteOrder

/-!
# The order of the files

The files that are collected come in strict order of their paths, compared component by component
and each component by its bytes (`files_in_order`). So what is in a directory `a` comes before a
file `a.h` next to it, though a slash comes behind a dot.
-/

namespace SpdxHeaders

/-- The components of a path, each by its bytes. -/
def Path.componentBytes (p : Path) : List (List UInt8) :=
  p.components.map fun component => Text.bytes component.spelling

namespace Collector

/-- The path of the names stands below the root, and a regular file is there: the path leads to it
whether or not links are followed. -/
structure IsFileBelow (c : Collector) (t : FileTree) (start : Location) (names : List Text) :
    Prop where
  ne_nil : names ≠ []
  components : (c.pathOf names).components = c.root.components ++ names.map .name
  file : ∃ bytes, t.get? (start ++ names) = some (.file bytes)
  locate : ∀ purpose l, t.locate purpose (c.pathOf names) = .ok l → l = start ++ names

variable {c : Collector} {t t' : FileTree} {start : Location} {names names' : List Text}

/-- The path of a file goes through the root and then through its names. -/
lemma components_pathOf (c : Collector) (h : ∀ n ∈ names, IsName n) :
    (c.pathOf names).components = c.root.components ++ names.map .name := by
  unfold pathOf
  split
  case isTrue hnil => rw [List.isEmpty_iff.1 hnil, List.map_nil, List.append_nil]
  case isFalse => exact Path.components_join c.root h

/-- Paths below the root stand in the order of the names that lead to them. -/
lemma componentBytes_pathOf_lt (h : ∀ n ∈ names, IsName n) (h' : ∀ n ∈ names', IsName n)
    (hlt : names < names') :
    (c.pathOf names).componentBytes < (c.pathOf names').componentBytes := by
  unfold Path.componentBytes
  rw [components_pathOf c h, components_pathOf c h', List.map_append, List.map_append,
    List.map_map, List.map_map]
  exact List.append_left_lt (List.map_lt (fun _ _ => Text.bytes_lt_bytes) hlt)

/-- The files that are collected come in order, each in its place. -/
lemma files_ordered (c : Collector) (ht : t.WellNamed) :
    (c.files t).Pairwise (· < ·) ∧ ∃ start, ∀ names ∈ c.files t, Placed c t start names :=
  c.walk_ordered ht fun _ => FileTree.Alike.refl t

/-- The names of a file in its place can stand in paths. -/
lemma Placed.isName (h : Placed c t start names) (ht : t.WellNamed) : ∀ n ∈ names, IsName n := by
  intro n hn
  obtain ⟨bytes, hfile⟩ := h.file (List.ne_nil_of_mem hn)
  exact ht.isName_of_get? hfile n (List.mem_append_right start hn)

/-- A root that is no directory is all there is to collect. -/
lemma files_of_not_directory (hstart : t.locate .content c.root = .ok start)
    (hdir : t.get? start ≠ some .directory) :
    c.files t = if c.manifest.excludes (Path.ofNames []) then [] else [[]] := by
  have hevents : c.events t = [c.event []] := by
    unfold events fold
    dsimp only
    rw [hstart]
    dsimp only
    split
    case h_1 hroot => exact absurd hroot hdir
    case h_2 => rfl
  rw [files_eq, hevents]
  unfold event
  split <;> rfl

/-- Where the root leads nowhere, no files are collected. -/
lemma files_of_error {fault : AccessFault} (h : t.locate .content c.root = .error fault) :
    c.files t = [] := by
  have hevents : ∃ description, c.events t = [.unreadable description] := by
    unfold events fold
    dsimp only
    rw [h]
    exact ⟨_, rfl⟩
  obtain ⟨description, hevents⟩ := hevents
  rw [files_eq, hevents]
  rfl

/-- Where the same is found there are the same rules. -/
lemma SameRules.of_get? {root : Path} (h : t.Alike t') (hget : ∀ l, t'.get? l = t.get? l) :
    SameRules root t t' := by
  have hreadText (p : Path) : t'.readText p = t.readText p := by
    unfold FileTree.readText
    rw [h.read hget]
  refine ⟨fun _ _ dir _ => ?_, ?_, ?_⟩
  · exact ignoreLayer_eq_iff.2 fun _ _ => ignoreFile_congr h fun l _ => hget l
  · unfold UserRules.read UserRules.file?
    simp only [hreadText, h.read hget, h.home]
  · unfold manifestEntries
    simp only [hreadText, h.isFile]

/-- The order in which the tree lists its entries does not matter. -/
lemma files_of_perm (c : Collector) {ns : List (Location × Node)} (h : ns.Perm t.nodes)
    (hns : (t.nodes.map Prod.fst).Nodup) : c.files { t with nodes := ns } = c.files t := by
  have halike := FileTree.Alike.of_perm h hns
  have hrules (root : Path) : SameRules root t { t with nodes := ns } :=
    .of_get? halike (FileTree.get?_of_perm h hns)
  rw [files_eq, files_eq, ← walk_const, ← walk_const]
  refine congrArg _ (walk_congr halike (hrules c.root) fun start _ hstart _ => ⟨halike, ?_⟩)
  exact fun dir hdir => (hrules c.root).layers start hstart dir (.inl hdir)

/-- The files that are collected come in strict order of their paths, and so none comes twice. Each
is a regular file below the root, but for a root that is no directory: then nothing else is
collected than the root itself. How the tree lists its entries does not matter. -/
theorem files_in_order (c : Collector) (ht : t.WellNamed) :
    ((c.files t).map c.pathOf).Pairwise (fun p q => p.componentBytes < q.componentBytes) ∧
    ((c.files t).map c.pathOf).Nodup ∧
    (∀ names ∈ c.files t, ∃ start, t.locate .content c.root = .ok start ∧
      ((t.get? start = some .directory ∧ IsFileBelow c t start names) ∨
        (t.get? start ≠ some .directory ∧ c.files t = [[]] ∧
          (t.Grounded → ∃ bytes, t.get? start = some (.file bytes))))) ∧
    ∀ ns : List (Location × Node), ns.Perm t.nodes → (t.nodes.map Prod.fst).Nodup →
      c.files { t with nodes := ns } = c.files t := by
  obtain ⟨hordered, start, hplaced⟩ := c.files_ordered ht
  have hpaths : ((c.files t).map c.pathOf).Pairwise
      (fun p q => p.componentBytes < q.componentBytes) := by
    refine List.pairwise_map.2 (hordered.imp_of_mem fun hmem hmem' hlt => ?_)
    exact componentBytes_pathOf_lt ((hplaced _ hmem).isName ht) ((hplaced _ hmem').isName ht) hlt
  refine ⟨hpaths, hpaths.imp ?_, fun names hmem => ?_, fun _ h hns => c.files_of_perm h hns⟩
  · rintro p _ hlt rfl
    exact List.lt_irrefl _ hlt
  · have hplace := hplaced names hmem
    refine ⟨start, hplace.root, ?_⟩
    by_cases hdir : t.get? start = some .directory
    · have hne : names ≠ [] := by
        obtain ⟨hfound, -⟩ := (mem_files_iff hplace.root hdir).1 hmem
        cases hfound
        exact List.append_ne_nil_of_right_ne_nil _ (List.cons_ne_nil _ _)
      exact .inl ⟨hdir, hne, components_pathOf c (hplace.isName ht), hplace.file hne,
        hplace.locate_below hne⟩
    · have hfiles := files_of_not_directory hplace.root hdir
      rw [if_neg fun hexcludes => by rw [hfiles, if_pos hexcludes] at hmem; cases hmem] at hfiles
      refine .inr ⟨hdir, hfiles, fun hgrounded => ?_⟩
      obtain ⟨n, hn, hlink⟩ := hgrounded.exists_of_locate hplace.root
      cases n with
      | file bytes => exact ⟨bytes, hn⟩
      | link target => exact absurd rfl (hlink target)
      | directory => exact absurd hn hdir

/-- A tree with a directory and a file whose name goes on where that of the directory ends. -/
def siblings : FileTree where
  nodes := [(["a.h"], .file .empty), (["a", "x.h"], .file .empty), (["a"], .directory)]

/-- What is in a directory is collected before the file next to it. -/
theorem files_in_order_siblings :
    let c : Collector := ⟨"/", [], {}⟩
    siblings.WellNamed ∧ c.files siblings = [["a".toList, "x.h".toList], ["a.h".toList]] ∧
      ((c.files siblings).map c.pathOf).Pairwise
        fun p q => p.componentBytes < q.componentBytes := by
  intro c
  have ht : siblings.WellNamed := by decide
  exact ⟨ht, by cbv, (c.files_in_order ht).1⟩

/-- A root that is a file is collected itself, and is not below itself. -/
theorem file_root_collected :
    let c : Collector := ⟨"/a.h", [], {}⟩
    (c.files siblings).map c.pathOf = [c.root] ∧
      ¬∀ names ∈ c.files siblings, ∃ start, IsFileBelow c siblings start names := by
  intro c
  have hfiles : c.files siblings = [[]] := by cbv
  refine ⟨hfiles ▸ rfl, fun h => ?_⟩
  obtain ⟨start, hbelow⟩ := h [] (hfiles ▸ List.mem_cons_self)
  exact hbelow.ne_nil rfl

end Collector

end SpdxHeaders
