import SpdxHeaders.Error
import SpdxHeaders.Path

/-!
# File trees

A file tree is a table from locations to what is there. The main facts are how looking up sees the
other operations: `get?_insert` and `get?_erase`.
-/

namespace SpdxHeaders

/-- What is at a place of a file tree. -/
inductive Node where
  /-- A file with its bytes. -/
  | file (bytes : ByteArray)
  /-- A link to another path. -/
  | link (target : Path)
  /-- A directory. What it holds is found at the locations below it. -/
  | directory

/-- The names that lead from the root of a file tree to a place in it. -/
abbrev Location := List Text

/-- The absolute path of a location. -/
def Location.path (l : Location) : Path :=
  '/' :: Path.ofNames l

/-- Files, links and directories, and the places that matter to whoever works with them.

Every node can be reached: there are no permissions, and a directory can be opened at any depth. No
file is at two locations other than through a link. A name that is not UTF-8 stands as a text in its
place, which takes the same place in the order of names and is spelled like no other name or path;
what its bytes are is left out. -/
structure FileTree where
  /-- What is where. Of several nodes at a location the first counts. -/
  nodes : List (Location × Node) := []
  /-- The current directory, where relative paths start from. -/
  here : Location := []
  /-- The home directory of the user. -/
  home : Option Path := none
  /-- The names that are not UTF-8. -/
  garbled : List Text := []

namespace FileTree

/-- What is at a location. The root is a directory. -/
def get? (t : FileTree) : Location → Option Node
  | [] => some .directory
  | l => t.nodes.lookup l

/-- Puts a node at a location. -/
def insert (t : FileTree) (l : Location) (n : Node) : FileTree :=
  { t with nodes := (l, n) :: t.nodes.filter (·.1 ≠ l) }

/-- Takes a location and all below it away. -/
def erase (t : FileTree) (l : Location) : FileTree :=
  { t with nodes := t.nodes.filter (!l.isPrefixOf ·.1) }

/-- The name of a location in a directory. -/
def nameIn? (dir l : Location) : Option Text :=
  if l.dropLast = dir then l.getLast? else none

/-- A name as text. One that is not UTF-8 counts as empty. -/
def nameText (t : FileTree) (name : Text) : Text :=
  if name ∈ t.garbled then [] else name

/-- All parts of a path are UTF-8. -/
def isText (t : FileTree) (p : Path) : Bool :=
  (Text.pieces '/' p).all (· ∉ t.garbled)

/-- The names in a directory, in order. -/
def names (t : FileTree) (dir : Location) : List Text :=
  Text.sort (t.nodes.filterMap fun n => nameIn? dir n.1).eraseDups

/-- A bound on the number of directories within each other. -/
def depth (t : FileTree) : Nat :=
  t.nodes.foldl (fun d n => max d n.1.length) 0

/-- The files of the tree with their bytes. -/
def files (t : FileTree) : List (Location × ByteArray) :=
  t.nodes.filterMap fun n =>
    match n.2 with
    | .file bytes => some (n.1, bytes)
    | _ => none

/-- Leaving out the entries of one location leaves those of all others. -/
theorem lookup_filter_ne {l k : Location} {ns : List (Location × Node)} (h : k ≠ l) :
    (ns.filter (·.1 ≠ l)).lookup k = ns.lookup k := by
  induction ns with
  | nil => rfl
  | cons n ns ih =>
    obtain ⟨m, n⟩ := n
    by_cases hm : m = l
    · subst hm
      have : (k == m) = false := by simpa using h
      simp [List.lookup_cons, this]
      simpa using ih
    · by_cases hk : k = m
      · subst hk
        simp [hm]
      · have : (k == m) = false := by simpa using hk
        simp [hm, List.lookup_cons, this]
        simpa using ih

/-- A node that is inserted is found at its place, and nothing else has changed. -/
theorem get?_insert {t : FileTree} {l k : Location} {n : Node} (hl : l ≠ []) :
    (t.insert l n).get? k = if k = l then some n else t.get? k := by
  cases k with
  | nil => simp [get?, Ne.symm hl]
  | cons a k =>
    by_cases h : a :: k = l
    · subst h
      simp [get?, insert]
    · have hb : ((a :: k) == l) = false := by simpa using h
      simp only [get?, insert, List.lookup_cons, hb, if_neg h]
      exact lookup_filter_ne h

/-- What is erased is gone with all below it, and nothing else has changed. -/
theorem get?_erase {t : FileTree} {l k : Location} (hk : k ≠ []) :
    (t.erase l).get? k = if l <+: k then none else t.get? k := by
  obtain ⟨a, k, rfl⟩ := List.exists_cons_of_ne_nil hk
  simp only [get?, erase]
  induction t.nodes with
  | nil => simp
  | cons n ns ih =>
    obtain ⟨m, n⟩ := n
    by_cases hm : l <+: m
    · have : l.isPrefixOf m = true := by simpa using hm
      by_cases he : a :: k = m
      · subst he
        simp [this, hm] at ih ⊢
        exact ih
      · have hb : ((a :: k) == m) = false := by simpa using he
        simp only [List.filter_cons, this, Bool.not_true, Bool.false_eq_true, if_false, ih,
          List.lookup_cons, hb]
    · have : l.isPrefixOf m = false := Bool.eq_false_iff.2 (by simpa using hm)
      by_cases he : a :: k = m
      · subst he
        simp [this, hm]
      · have hb : ((a :: k) == m) = false := by simpa using he
        simp only [List.filter_cons, this, Bool.not_false, if_true, List.lookup_cons, hb, ih]

end FileTree

end SpdxHeaders
