import SpdxHeaders.Proofs.FileTree.Names
import SpdxHeaders.Proofs.FileTree.Overwriting

/-!
# Trees that grow by a file

A file that is made where nothing was, or put in the place of another, is in nobody's way: where a
path led before, it leads now (`locate_insert`).
-/

namespace SpdxHeaders.FileTree

/-- A file can be put at a location: nothing is there yet, or a file. -/
def HasRoom (t : FileTree) (a : Location) : Prop :=
  t.get? a = none ∨ ∃ bytes, t.get? a = some (.file bytes)

variable {t t' : FileTree} {a l l' : Location} {n : Node} {bytes : ByteArray}

/-- There is no room for a file at the root of the tree. -/
lemma HasRoom.ne_nil (ha : t.HasRoom a) : a ≠ [] := by
  rintro rfl
  obtain h | ⟨_, h⟩ := ha <;> cases h

/-- Trees that are alike have room at the same locations. -/
lemma HasRoom.of_alike (ha : t.HasRoom a) (h : t.Alike t') : t'.HasRoom a := by
  obtain hnone | ⟨bytes, hfile⟩ := ha
  · exact .inl (h.get?_none hnone)
  · exact .inr (h.get?_file hfile)

/-- Nothing but the place of the file has changed. -/
lemma HasRoom.get?_insert (ha : t.HasRoom a) (hl : l ≠ a) (bytes : ByteArray) :
    (t.insert a (.file bytes)).get? l = t.get? l := by
  rw [FileTree.get?_insert ha.ne_nil, if_neg hl]

/-- Directories are where they were. -/
lemma HasRoom.get?_insert_eq_directory_iff (ha : t.HasRoom a) (bytes : ByteArray) :
    (t.insert a (.file bytes)).get? l = some .directory ↔ t.get? l = some .directory := by
  rw [FileTree.get?_insert ha.ne_nil]
  split
  case isTrue hl =>
    subst hl
    obtain h | ⟨_, h⟩ := ha <;> simp [h]
  case isFalse => exact Iff.rfl

/-- Where there is room for a file, something can be appended. -/
lemma HasRoom.exists_append (ha : t.HasRoom a) {p : Path} (hl : t.locate .creation p = .ok a)
    (bytes : ByteArray) : ∃ bytes', t.append p bytes = .ok (t.insert a (.file bytes')) := by
  obtain hnone | ⟨old, hfile⟩ := ha
  · exact ⟨_, append_of_absent hl hnone bytes⟩
  · exact ⟨_, append_of_file hl hfile bytes⟩

section Follow
variable {purpose : Purpose} {links : Nat} {part : Text} {parts : List Text}

/-- A part of a path can be taken as before. -/
lemma stepInto_insert (ha : t.HasRoom a) {s : Nat × Location × List Text}
    (h : t.stepInto purpose links l part parts = .ok s) (bytes : ByteArray) :
    (t.insert a (.file bytes)).stepInto purpose links l part parts = .ok s := by
  have henter (h : t.enter purpose links l part parts = .ok s) :
      (t.insert a (.file bytes)).enter purpose links l part parts = .ok s := by
    unfold enter at h ⊢
    by_cases hla : l ++ [part] = a
    · -- Only a path that ends there came to a place where nothing was.
      rw [FileTree.get?_insert ha.ne_nil, if_pos hla]
      obtain hnone | ⟨old, hfile⟩ := ha
      · rw [hla, hnone] at h
        dsimp only at h
        split at h
        case isTrue hlast =>
          simp only [Bool.and_eq_true, List.isEmpty_iff] at hlast
          rw [← h, hlast.2, hla]
        case isFalse => cases h
      · rw [hla, hfile] at h
        rw [← h, hla]
    · rw [ha.get?_insert hla]
      exact h
  have hdir := (ha.get?_insert_eq_directory_iff (l := l) bytes).2 (stepped_of_stepInto h).1
  unfold stepInto at h ⊢
  rw [(stepped_of_stepInto (by unfold stepInto; exact h)).1] at h
  rw [hdir]
  dsimp only at h ⊢
  split_ifs at h ⊢
  · exact h
  · exact h
  · exact henter h

/-- What a path led to, it leads to. -/
lemma follow_insert (ha : t.HasRoom a) (h : t.follow purpose links l parts = .ok l')
    (bytes : ByteArray) :
    (t.insert a (.file bytes)).follow purpose links l parts = .ok l' := by
  induction links, l, parts using followInduction t purpose with
  | nil links l =>
    rw [follow_nil] at h ⊢
    exact h
  | cons links l part parts ih =>
    rw [follow_cons, bind_eq_ok_iff] at h
    obtain ⟨s, hs, h⟩ := h
    rw [follow_cons, stepInto_insert ha hs]
    exact ih s hs h

/-- A path leads where it led before the file was put there. -/
lemma locate_insert {p : Path} (ha : t.HasRoom a) (h : t.locate purpose p = .ok l)
    (bytes : ByteArray) : (t.insert a (.file bytes)).locate purpose p = .ok l := by
  unfold locate at h ⊢
  split_ifs at h ⊢
  · exact follow_insert ha h bytes
  · exact follow_insert ha h bytes

end Follow

/-- What is somewhere in a well-named tree is there by names. -/
lemma WellNamed.isName_of_get? (ht : t.WellNamed) (h : t.get? l = some n) : ∀ m ∈ l, IsName m := by
  by_cases hl : l = []
  · simp [hl]
  · exact ht l (mem_locations_of_get? hl (by simp [h]))

/-- A tree in which names lead to something new is well named. -/
lemma WellNamed.insert (ht : t.WellNamed) (ha : ∀ m ∈ a, IsName m) (n : Node) :
    (t.insert a n).WellNamed := by
  intro l hl
  unfold FileTree.insert at hl
  rw [List.map_cons, List.mem_cons] at hl
  rcases hl with rfl | hl
  · exact ha
  · exact ht l ((List.filter_sublist.map Prod.fst).subset hl)

end SpdxHeaders.FileTree
