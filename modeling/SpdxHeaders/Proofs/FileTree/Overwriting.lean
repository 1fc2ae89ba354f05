import Mathlib.Tactic.Lemma
import SpdxHeaders.Proofs.FileTree.Alike

/-!
# Reading and overwriting

A path under which a file is read is also the path under which it is overwritten (`write_of_read`):
nothing else comes to be, and the tree stays like the old one.
-/

namespace SpdxHeaders.FileTree

variable {t t' : FileTree} {p : Path} {l : Location} {bytes : ByteArray}

/-- The bytes at a location are those of a file there. -/
lemma bytesAt_eq_ok_iff : t.bytesAt l = .ok bytes ↔ t.get? l = some (.file bytes) := by
  unfold bytesAt
  split <;> simp_all

/-- A text is read from the bytes of the file that the path leads to. -/
lemma exists_of_readText {text : Text} (h : t.readText p = .ok text) :
    ∃ l bytes, t.locate .content p = .ok l ∧ t.get? l = some (.file bytes) ∧
      Text.ofUtf8? bytes = some text := by
  obtain ⟨bytes, hread, h⟩ := bind_eq_ok_iff.1 h
  obtain ⟨l, hl, hbytes⟩ := bind_eq_ok_iff.1 hread
  refine ⟨l, bytes, hl, bytesAt_eq_ok_iff.1 hbytes, ?_⟩
  split at h
  case h_1 heq =>
    cases h
    exact heq
  case h_2 => cases h

/-- The text of the bytes of a file is read. -/
lemma readText_of_bytes {text : Text} (hl : t.locate .content p = .ok l)
    (hfile : t.get? l = some (.file bytes)) (htext : Text.ofUtf8? bytes = some text) :
    t.readText p = .ok text := by
  unfold readText read
  rw [hl, ok_bind, bytesAt_eq_ok_iff.2 hfile, ok_bind, htext]
  rfl

/-- What was written as text is read as this text. -/
lemma readText_of_get? {text : Text} (hl : t.locate .content p = .ok l)
    (hfile : t.get? l = some (.file text.toUtf8)) : t.readText p = .ok text :=
  readText_of_bytes hl hfile (Text.ofUtf8?_toUtf8 text)

/-- Reading depends on the node that the path leads to only. -/
lemma Alike.readText (h : Alike t t')
    (hsame : ∀ l, t.locate .content p = .ok l → t'.get? l = t.get? l) :
    t'.readText p = t.readText p := by
  unfold FileTree.readText FileTree.read
  rw [h.locate]
  cases hl : t.locate .content p with
  | error e => rfl
  | ok l =>
    unfold bytesAt
    rw [ok_bind, ok_bind, hsame l hl]

/-- A path that leads to a file leads there for writing too. -/
lemma locate_creation (hl : t.locate .content p = .ok l) (hfile : t.get? l = some (.file bytes)) :
    t.locate .creation p = .ok l := by
  unfold locate at hl ⊢
  split at hl
  · cases hl
  · split at hl
    · cases hl
    · split at hl
      · cases hl
      · rename_i hnul hempty hlong
        rw [if_neg hnul, if_neg hempty, if_neg hlong]
        exact follow_creation hfile hl

/-- Writing where a file is replaces its bytes. -/
lemma write_of_read (hl : t.locate .content p = .ok l) (hfile : t.get? l = some (.file bytes))
    (bytes' : ByteArray) : t.write p bytes' = .ok (t.insert l (.file bytes')) := by
  unfold write writeAt
  rw [locate_creation hl hfile, ok_bind, hfile]

/-- Writing puts the bytes where the path leads, and nowhere else. -/
lemma exists_of_write (h : t.write p bytes = .ok t') :
    ∃ l, t.locate .creation p = .ok l ∧ t' = t.insert l (.file bytes) := by
  obtain ⟨l, hl, h⟩ := bind_eq_ok_iff.1 h
  unfold writeAt at h
  split at h <;> cases h
  exact ⟨l, hl, rfl⟩

/-- What can be appended to in a tree can be appended to in one like it. -/
lemma Alike.exists_append {t'' : FileTree} (h : Alike t t') (happend : t.append p bytes = .ok t'')
    (bytes' : ByteArray) : ∃ t'', t'.append p bytes' = .ok t'' := by
  obtain ⟨l, hl, happend⟩ := bind_eq_ok_iff.1 happend
  have hshape := h.shape l
  unfold append writeAt at *
  rw [h.locate, hl, ok_bind]
  revert hshape happend
  generalize t.get? l = n, t'.get? l = n'
  rintro happend (_ | _ | _ | _)
  · exact ⟨_, rfl⟩
  · exact ⟨_, rfl⟩
  · exact ⟨_, rfl⟩
  · cases happend

/-- Appending to a file puts the bytes behind those in it. -/
lemma append_of_file {old : ByteArray} (hl : t.locate .creation p = .ok l)
    (hfile : t.get? l = some (.file old)) (bytes : ByteArray) :
    t.append p bytes = .ok (t.insert l (.file (old ++ bytes))) := by
  unfold append writeAt
  rw [hl, ok_bind, hfile]

/-- Nothing can be appended to a directory. -/
lemma get?_ne_directory_of_append (hl : t.locate .creation p = .ok l)
    (happend : t.append p bytes = .ok t') : t.get? l ≠ some .directory := by
  intro hdir
  unfold append writeAt at happend
  rw [hl, ok_bind, hdir] at happend
  cases happend

/-- Appending where nothing is makes a file. -/
lemma append_of_absent (hl : t.locate .creation p = .ok l) (hnone : t.get? l = none)
    (bytes : ByteArray) : t.append p bytes = .ok (t.insert l (.file bytes)) := by
  unfold append writeAt
  rw [hl, ok_bind, hnone]

end SpdxHeaders.FileTree
