import Mathlib.Tactic.Lemma
import SpdxHeaders.Proofs.FileTree.Following
import SpdxHeaders.Proofs.Text.Order

/-!
# Trees that differ in bytes only

Two trees are alike if they differ at most in the bytes of files. Paths lead to the same places in
both (`Alike.locate`), directories hold the same names (`Alike.names`), and overwriting a file
leaves a tree that is like the old one (`Alike.insert`).
-/

namespace SpdxHeaders.FileTree

/-- The same kind of node, or no node, with links to the same target. -/
inductive SameShape : Option Node → Option Node → Prop where
  | none : SameShape none none
  | file (b b' : ByteArray) : SameShape (some (.file b)) (some (.file b'))
  | link (target : Path) : SameShape (some (.link target)) (some (.link target))
  | directory : SameShape (some .directory) (some .directory)

/-- A node has its own shape. -/
lemma SameShape.refl : ∀ n, SameShape n n
  | .none => .none
  | some (.file b) => .file b b
  | some (.link target) => .link target
  | some .directory => .directory

/-- Nodes of one shape with a third have one shape. -/
lemma SameShape.trans {n n' n'' : Option Node} (h : SameShape n n') (h' : SameShape n' n'') :
    SameShape n n'' := by
  cases h with
  | none => exact h'
  | file b b' =>
    cases h' with
    | file => exact .file ..
  | link target => exact h'
  | directory => exact h'

/-- Which of two nodes comes first does not matter to their shape. -/
lemma SameShape.symm {n n' : Option Node} (h : SameShape n n') : SameShape n' n := by
  cases h with
  | none => exact .none
  | file b b' => exact .file b' b
  | link target => exact .link target
  | directory => exact .directory

/-- A node of the shape of a file is a file. -/
lemma SameShape.exists_file {n : Option Node} {bytes : ByteArray}
    (h : SameShape n (some (.file bytes))) : ∃ bytes', n = some (.file bytes') := by
  cases h with
  | file b => exact ⟨b, rfl⟩

/-- Two trees that differ at most in the bytes of files. -/
structure Alike (t t' : FileTree) : Prop where
  here : t'.here = t.here
  home : t'.home = t.home
  garbled : t'.garbled = t.garbled
  locations : ∀ l, l ∈ t'.nodes.map Prod.fst ↔ l ∈ t.nodes.map Prod.fst
  shape : ∀ l, SameShape (t.get? l) (t'.get? l)

variable {t t' t'' : FileTree}

/-- Files are where there were files. -/
lemma Alike.get?_file (h : Alike t t') {l : Location} {bytes : ByteArray}
    (hl : t.get? l = some (.file bytes)) : ∃ bytes', t'.get? l = some (.file bytes') := by
  have hshape := (h.shape l).symm
  rw [hl] at hshape
  exact hshape.exists_file

/-- Nothing is where nothing was. -/
lemma Alike.get?_none (h : Alike t t') {l : Location} (hl : t.get? l = none) :
    t'.get? l = none := by
  have hshape := h.shape l
  rw [hl] at hshape
  generalize t'.get? l = n at hshape ⊢
  cases hshape with
  | none => rfl

/-- Directories are where there were directories. -/
lemma Alike.get?_directory (h : Alike t t') {l : Location} (hl : t.get? l = some .directory) :
    t'.get? l = some .directory := by
  have hshape := h.shape l
  rw [hl] at hshape
  generalize t'.get? l = n at hshape ⊢
  cases hshape with
  | directory => rfl

/-- Links are where there were links, and lead to the same. -/
lemma Alike.get?_link (h : Alike t t') {l : Location} {target : Path}
    (hl : t.get? l = some (.link target)) : t'.get? l = some (.link target) := by
  have hshape := h.shape l
  rw [hl] at hshape
  generalize t'.get? l = n at hshape ⊢
  cases hshape with
  | link => rfl

/-- A tree is like itself. -/
lemma Alike.refl (t : FileTree) : Alike t t :=
  ⟨rfl, rfl, rfl, fun _ => Iff.rfl, fun _ => .refl _⟩

/-- Which of two trees comes first does not matter. -/
lemma Alike.symm (h : Alike t t') : Alike t' t :=
  ⟨h.here.symm, h.home.symm, h.garbled.symm, fun l => (h.locations l).symm,
    fun l => (h.shape l).symm⟩

/-- Trees that are like a third one are alike. -/
lemma Alike.trans (h : Alike t t') (h' : Alike t' t'') : Alike t t'' :=
  ⟨h'.here.trans h.here, h'.home.trans h.home, h'.garbled.trans h.garbled,
    fun l => (h'.locations l).trans (h.locations l), fun l => (h.shape l).trans (h'.shape l)⟩

/-- The first part of a path is taken in the same way. -/
lemma Alike.stepInto (h : Alike t t') (purpose : Purpose) (links : Nat) (l : Location) (part : Text)
    (parts : List Text) :
    t'.stepInto purpose links l part parts = t.stepInto purpose links l part parts := by
  have henter : t'.enter purpose links l part parts = t.enter purpose links l part parts := by
    have hshape := h.shape (l ++ [part])
    unfold enter
    revert hshape
    generalize t.get? (l ++ [part]) = n, t'.get? (l ++ [part]) = n'
    rintro (_ | _ | _ | _) <;> rfl
  have hshape := h.shape l
  unfold FileTree.stepInto
  rw [henter]
  revert hshape
  generalize t.get? l = n, t'.get? l = n'
  rintro (_ | _ | _ | _) <;> rfl

/-- Paths lead to the same places from every location. -/
lemma Alike.follow (h : Alike t t') (purpose : Purpose) (links : Nat) (l : Location)
    (parts : List Text) : t'.follow purpose links l parts = t.follow purpose links l parts := by
  induction links, l, parts using followInduction t purpose with
  | nil links l => rw [follow_nil, follow_nil]
  | cons links l part parts ih =>
    rw [follow_cons, follow_cons, h.stepInto]
    cases hs : t.stepInto purpose links l part parts with
    | error e => rfl
    | ok s => exact ih s hs

/-- Paths lead to the same places. -/
lemma Alike.locate (h : Alike t t') (purpose : Purpose) (p : Path) :
    t'.locate purpose p = t.locate purpose p := by
  unfold FileTree.locate
  rw [h.follow, h.here]

/-- Paths lead to files where they led to files. -/
lemma Alike.isFile (h : Alike t t') (p : Path) : t'.isFile p = t.isFile p := by
  unfold FileTree.isFile FileTree.node?
  rw [h.locate]
  cases t.locate .content p with
  | error e => rfl
  | ok l =>
    have hshape := h.shape l
    dsimp only
    revert hshape
    generalize t.get? l = n, t'.get? l = n'
    rintro (_ | _ | _ | _) <;> rfl

/-- A name in a directory belongs to an entry below it. -/
lemma mem_names_iff {dir : Location} {n : Text} :
    n ∈ t.names dir ↔ dir ++ [n] ∈ t.nodes.map Prod.fst := by
  have hname (l : Location) : nameIn? dir l = some n ↔ l = dir ++ [n] := by
    unfold nameIn?
    constructor
    · intro hl
      split at hl
      case isTrue hdir =>
        obtain ⟨l', rfl⟩ := List.getLast?_eq_some_iff.1 hl
        simpa using hdir
      case isFalse => cases hl
    · rintro rfl
      simp
  simp only [names, Text.sort, List.mem_mergeSort, List.mem_eraseDups, List.mem_filterMap, hname,
    List.mem_map, Prod.exists]

/-- No name is listed twice in a directory. -/
lemma nodup_names (t : FileTree) (dir : Location) : (t.names dir).Nodup :=
  (List.mergeSort_perm _ _).nodup_iff.2 (Text.nodup_eraseDups _)

/-- The names in a directory are in strict order. -/
lemma pairwise_names (t : FileTree) (dir : Location) : (t.names dir).Pairwise (· < ·) := by
  have hsorted : (t.names dir).Pairwise fun n m => Text.le n m = true :=
    List.pairwise_mergeSort Text.le_trans Text.le_total _
  exact (hsorted.and (t.nodup_names dir)).imp Text.lt_iff.2

/-- Directories hold the same names. -/
lemma Alike.names (h : Alike t t') (dir : Location) : t'.names dir = t.names dir := by
  apply Text.sort_eq_of_perm
  rw [List.perm_ext_iff_of_nodup (Text.nodup_eraseDups _) (Text.nodup_eraseDups _)]
  intro n
  have hmem (t : FileTree) : n ∈ (t.nodes.filterMap fun n => nameIn? dir n.1).eraseDups ↔
      dir ++ [n] ∈ t.nodes.map Prod.fst :=
    List.mem_mergeSort.symm.trans mem_names_iff
  rw [hmem, hmem, h.locations]

/-- The depth is the length of the longest location. -/
lemma depth_le_iff {n : Nat} : t.depth ≤ n ↔ ∀ l ∈ t.nodes.map Prod.fst, l.length ≤ n := by
  have hfold (ns : List (Location × Node)) (d : Nat) :
      ns.foldl (fun d n => max d n.1.length) d ≤ n ↔
        d ≤ n ∧ ∀ l ∈ ns.map Prod.fst, l.length ≤ n := by
    induction ns generalizing d with
    | nil => simp
    | cons m ns ih =>
      rw [List.foldl_cons, ih, Nat.max_le, List.map_cons, List.forall_mem_cons, and_assoc]
  simpa [depth] using hfold t.nodes 0

/-- Trees that are alike are equally deep. -/
lemma Alike.depth (h : Alike t t') : t'.depth = t.depth := by
  have hle (n : Nat) : t'.depth ≤ n ↔ t.depth ≤ n := by
    simp only [depth_le_iff, h.locations]
  exact Nat.le_antisymm ((hle _).2 (Nat.le_refl _)) ((hle _).1 (Nat.le_refl _))

/-- A node below the root has its location in the tree. -/
lemma mem_locations_of_get? {l : Location} (hl : l ≠ []) (h : (t.get? l).isSome) :
    l ∈ t.nodes.map Prod.fst := by
  obtain ⟨a, l, rfl⟩ := List.exists_cons_of_ne_nil hl
  obtain ⟨x, hx, hxl⟩ := List.lookup_isSome_iff.1 h
  exact List.mem_map.2 ⟨x, hx, (beq_iff_eq.1 hxl).symm⟩

/-- Overwriting a file changes its bytes only. -/
lemma Alike.insert {l : Location} {bytes : ByteArray} (hfile : t.get? l = some (.file bytes))
    (bytes' : ByteArray) : Alike t (t.insert l (.file bytes')) := by
  have hl : l ≠ [] := by
    rintro rfl
    cases hfile
  refine ⟨rfl, rfl, rfl, fun k => ?_, fun k => ?_⟩
  · have hmem : l ∈ t.nodes.map Prod.fst := mem_locations_of_get? hl (by simp [hfile])
    by_cases hk : k = l
    · subst hk
      simpa [FileTree.insert] using hmem
    · simp [FileTree.insert, hk]
  · rw [get?_insert hl]
    split
    case isTrue hk =>
      rw [hk, hfile]
      exact .file ..
    case isFalse => exact .refl _

end SpdxHeaders.FileTree
