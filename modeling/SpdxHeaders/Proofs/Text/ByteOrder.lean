import Mathlib.Tactic.Lemma
import SpdxHeaders.Proofs.Text.Order

/-!
# The order of bytes

UTF-8 keeps the order: a text that comes before another by code points comes before it by bytes
(`bytes_lt_bytes`). This rests on the bytes of two characters, which differ at a place that both
have (`differ_utf8EncodeChar`), so that what follows the characters does not matter.
-/

namespace SpdxHeaders.Text

/-- The bytes of a text, one after the other. -/
def bytes (t : Text) : List UInt8 :=
  t.toUtf8.data.toList

/-- The bytes differ at a place that both have, and the first have the lesser byte there. -/
inductive Differ : List UInt8 → List UInt8 → Prop where
  | here {x y : UInt8} {a b : List UInt8} (h : x < y) : Differ (x :: a) (y :: b)
  | later {x : UInt8} {a b : List UInt8} (h : Differ a b) : Differ (x :: a) (x :: b)

/-- Bytes differ at the first one or behind it. -/
lemma differ_cons_iff {x y : UInt8} {a b : List UInt8} :
    Differ (x :: a) (y :: b) ↔ x.toNat < y.toNat ∨ x.toNat = y.toNat ∧ Differ a b := by
  constructor
  · intro h
    cases h with
    | here h => exact .inl h
    | later h => exact .inr ⟨rfl, h⟩
  · rintro (h | ⟨e, h⟩)
    · exact .here h
    · obtain rfl := UInt8.toNat_inj.1 e
      exact .later h

/-- Bytes that differ decide the order, whatever follows them. -/
lemma Differ.append_lt_append {a b : List UInt8} (h : Differ a b) (r r' : List UInt8) :
    a ++ r < b ++ r' := by
  induction h with
  | here h => exact .rel h
  | later _ ih => exact .cons ih

/-- Small numbers are bytes. -/
lemma toNat_ofNat_of_lt {n : ℕ} (h : n < 256) : (UInt8.ofNat n).toNat = n := by
  rw [UInt8.toNat_ofNat', Nat.mod_eq_of_lt h]

/-- The bytes of a character differ from those of every character behind it. -/
lemma differ_utf8EncodeChar {c d : Char} (h : c < d) :
    Differ (String.utf8EncodeChar c) (String.utf8EncodeChar d) := by
  have hlt : c.val.toNat < d.val.toNat := h
  have hlast : d.val.toNat < 0x110000 := by
    rcases d.valid with h | ⟨-, h⟩
    · omega
    · exact h
  unfold String.utf8EncodeChar
  generalize c.val.toNat = v, d.val.toNat = w at hlt hlast
  -- Bytes hold the digits to the base 64, and the greatest digit that differs decides.
  have hleast : v / 64 < w / 64 ∨ v / 64 = w / 64 ∧ v % 64 < w % 64 := by omega
  have hnext : v / 64 < w / 64 →
      v / 4096 < w / 4096 ∨ v / 4096 = w / 4096 ∧ v / 64 % 64 < w / 64 % 64 := by
    intro
    omega
  have hgreatest : v / 4096 < w / 4096 →
      v / 262144 < w / 262144 ∨ v / 262144 = w / 262144 ∧ v / 4096 % 64 < w / 4096 % 64 := by
    intro
    omega
  have hv : v / 262144 % 8 = v / 262144 := by omega
  have hw : w / 262144 % 8 = w / 262144 := by omega
  dsimp only
  -- One case for each pair of lengths. Where the second is the shorter one, the order is wrong.
  split_ifs
  all_goals first
    | omega
    | simp (disch := omega) only [differ_cons_iff, toNat_ofNat_of_lt, hv, hw]
      omega

/-- The bytes of a text begin with those of its first character. -/
lemma bytes_cons (c : Char) (t : Text) : bytes (c :: t) = String.utf8EncodeChar c ++ bytes t := by
  simp only [bytes, toUtf8, String.toUTF8_eq_toByteArray, String.toByteArray_ofList]
  rw [List.utf8Encode_cons, List.utf8Encode_singleton, ByteArray.toList_data_append,
    List.toList_data_toByteArray]

/-- Texts stand in the order of their bytes. -/
lemma bytes_lt_bytes {t u : Text} (h : t < u) : bytes t < bytes u := by
  induction t generalizing u with
  | nil =>
    cases u with
    | nil => exact absurd h (List.not_lt_nil _)
    | cons d u =>
      obtain ⟨b, bs, hb⟩ := List.exists_cons_of_ne_nil (String.utf8EncodeChar_ne_nil (c := d))
      rw [bytes_cons, hb]
      exact .nil
  | cons c t ih =>
    cases u with
    | nil => exact absurd h (List.not_lt_nil _)
    | cons d u =>
      rw [bytes_cons, bytes_cons]
      rcases List.cons_lt_cons_iff.1 h with hlt | ⟨rfl, hlt⟩
      · exact (differ_utf8EncodeChar hlt).append_lt_append _ _
      · exact List.append_left_lt (ih hlt)

end SpdxHeaders.Text
