import Mathlib.Tactic.Lemma
import SpdxHeaders.Glob.Matching
import SpdxHeaders.Proofs.Text.ByteOrder

/-!
# Characters among bytes

A glob takes bytes off a path, but what it takes off are characters. The bytes of a character are
followed by those of others only (`afterBytes?_utf8EncodeChar_iff`), and where bytes end in front of
the first byte of a character, they are the bytes of a text (`exists_bytesOf_eq`).
-/

namespace SpdxHeaders.Glob

open String (utf8EncodeChar)

variable {c d : Char} {p : Text} {b : UInt8} {bs run r s : List UInt8}

/-- The byte does not begin a character. -/
def Continues (b : UInt8) : Prop :=
  128 ≤ b.toNat ∧ b.toNat < 192

/-- A character of ASCII is its own byte. -/
lemma utf8EncodeChar_of_ascii (h : c.toNat < 128) : utf8EncodeChar c = [UInt8.ofNat c.toNat] :=
  if_pos (Nat.le_of_lt_succ h)

/-- A character beyond ASCII takes more than one byte, and only the first one begins a character. -/
lemma exists_utf8EncodeChar_eq (h : 128 ≤ c.toNat) :
    ∃ b bs, utf8EncodeChar c = b :: bs ∧ 192 ≤ b.toNat ∧ ∀ x ∈ bs, Continues x := by
  have hlast : c.val.toNat < 0x110000 := by
    rcases c.valid with h | ⟨-, h⟩
    · omega
    · exact h
  have h : 128 ≤ c.val.toNat := h
  unfold utf8EncodeChar Continues
  generalize c.val.toNat = v at h hlast
  dsimp only
  split_ifs
  · omega
  all_goals
    refine ⟨_, _, rfl, ?_, ?_⟩
    · rw [Text.toNat_ofNat_of_lt (by omega)]
      omega
    · simp only [List.forall_mem_cons, List.not_mem_nil, false_imp_iff, implies_true, and_true]
      simp (disch := omega) only [Text.toNat_ofNat_of_lt]
      omega

/-- The bytes of a text begin with those of its first character. -/
lemma bytesOf_cons (c : Char) (p : Text) : bytesOf (c :: p) = utf8EncodeChar c ++ bytesOf p :=
  rfl

/-- The bytes of a text are those of one part and then of the other. -/
lemma bytesOf_append (p q : Text) : bytesOf (p ++ q) = bytesOf p ++ bytesOf q :=
  List.flatMap_append

/-- Only the empty text has no bytes. -/
lemma bytesOf_eq_nil_iff : bytesOf p = [] ↔ p = [] := by
  cases p with
  | nil => exact iff_of_true rfl rfl
  | cons c p => simp [bytesOf_cons, String.utf8EncodeChar_ne_nil]

/-- The bytes of different characters do not begin the same bytes. -/
lemma utf8EncodeChar_append_inj (h : utf8EncodeChar c ++ r = utf8EncodeChar d ++ s) :
    c = d ∧ r = s := by
  have hne {c d : Char} {r s : List UInt8} (h : utf8EncodeChar c ++ r = utf8EncodeChar d ++ s) :
      ¬c < d := fun hlt => by
    have hbytes := (Text.differ_utf8EncodeChar hlt).append_lt_append r s
    rw [h] at hbytes
    exact List.lt_irrefl _ hbytes
  have hcd : c = d := Char.le_antisymm (Char.not_lt.1 (hne h.symm)) (Char.not_lt.1 (hne h))
  subst hcd
  exact ⟨rfl, List.append_cancel_left h⟩

/-- The byte of a slash is in no other character. -/
lemma slash_mem_utf8EncodeChar_iff : slash ∈ utf8EncodeChar c ↔ c = '/' := by
  constructor
  · intro h
    by_cases hc : c.toNat < 128
    · rw [utf8EncodeChar_of_ascii hc, List.mem_singleton] at h
      have hn := congrArg UInt8.toNat h
      rw [Text.toNat_ofNat_of_lt (by omega)] at hn
      exact Char.toNat_inj.1 hn.symm
    · obtain ⟨b, bs, e, hb, hbs⟩ := exists_utf8EncodeChar_eq (Nat.le_of_not_lt hc)
      rw [e] at h
      rcases List.mem_cons.1 h with rfl | h
      · exact absurd hb (by decide)
      · exact absurd (hbs _ h).1 (by decide)
  · rintro rfl
    decide

/-- A text has the byte of a slash just if it has a slash. -/
lemma slash_mem_bytesOf_iff : slash ∈ bytesOf p ↔ '/' ∈ p := by
  simp [bytesOf, slash_mem_utf8EncodeChar_iff]

/-- Bytes that end where a character begins are those of a text. -/
lemma exists_bytesOf_eq (h : bytesOf p = run ++ r) (hr : ∀ b ∈ r.head?, ¬Continues b) :
    ∃ q p', p = q ++ p' ∧ run = bytesOf q ∧ r = bytesOf p' := by
  induction p generalizing run with
  | nil =>
    obtain ⟨rfl, rfl⟩ := List.append_eq_nil_iff.1 h.symm
    exact ⟨[], [], rfl, rfl, rfl⟩
  | cons d p ih =>
    cases run with
    | nil => exact ⟨[], d :: p, rfl, rfl, h.symm⟩
    | cons x run =>
      rw [bytesOf_cons] at h
      rcases List.append_eq_append_iff.1 h with ⟨rest, hrun, hp⟩ | ⟨rest, hd, rfl⟩
      · obtain ⟨q, p', rfl, rfl, hr⟩ := ih hp
        exact ⟨d :: q, p', rfl, hrun, hr⟩
      · cases rest with
        | nil => exact ⟨[d], p, rfl, by simpa [bytesOf] using hd.symm, rfl⟩
        | cons y rest =>
          -- The rest would begin with a byte inside the character.
          by_cases hc : d.toNat < 128
          · rw [utf8EncodeChar_of_ascii hc] at hd
            simp at hd
          · obtain ⟨b, bs, e, -, hbs⟩ := exists_utf8EncodeChar_eq (Nat.le_of_not_lt hc)
            rw [e] at hd
            obtain ⟨-, rfl⟩ := List.cons.inj hd
            exact absurd (hbs y (by simp)) (hr y rfl)

/-- Only the capitals of ASCII have another character in lower case, 32 further on. -/
lemma toNat_toLower (c : Char) :
    c.toLower.toNat = if 65 ≤ c.toNat ∧ c.toNat ≤ 90 then c.toNat + 32 else c.toNat := by
  unfold Char.toLower
  split
  case isTrue h =>
    have hlow : 65 ≤ c.toNat := h.1
    have hhigh : c.toNat ≤ 90 := h.2
    rw [if_pos ⟨hlow, hhigh⟩]
    change (c.val + 32).toNat = _
    rw [UInt32.toNat_add]
    change (c.toNat + 32) % _ = _
    omega
  case isFalse h => exact (if_neg h).symm

/-- The letters of ASCII have a byte of the other case, 32 further on or back. -/
lemma toNat_otherCase (b : UInt8) :
    (otherCase b).toNat = if 65 ≤ b.toNat ∧ b.toNat ≤ 90 then b.toNat + 32
      else if 97 ≤ b.toNat ∧ b.toNat ≤ 122 then b.toNat - 32 else b.toNat := by
  unfold otherCase
  simp only [UInt8.le_iff_toNat_le, UInt8.reduceToNat]
  split
  case isTrue h =>
    rw [UInt8.toNat_add]
    simp only [UInt8.reduceToNat]
    omega
  case isFalse =>
    split
    case isTrue h => exact UInt8.toNat_sub_of_le _ _ (UInt8.le_iff_toNat_le.2 (by simp; omega))
    case isFalse => rfl

/-- Up to case, a byte is the same as itself and its other case. -/
lemma sameByte_iff {a b : UInt8} :
    sameByte true a b = true ↔ a.toNat = b.toNat ∨ (otherCase a).toNat = b.toNat := by
  simp [sameByte, UInt8.toNat_inj]

/-- Beyond ASCII, bytes have to be the same. -/
lemma sameByte_iff_of_le {a b : UInt8} (h : 128 ≤ a.toNat) : sameByte true a b = true ↔ a = b := by
  have hother : (otherCase a).toNat = a.toNat := by
    rw [toNat_otherCase, if_neg (by omega), if_neg (by omega)]
  rw [sameByte_iff, hother, or_self, UInt8.toNat_inj]

/-- Bytes are taken off one by one. -/
lemma afterBytes?_cons_iff {a : UInt8} {as : List UInt8} :
    afterBytes? true (a :: as) s = some r ↔
      ∃ b t, s = b :: t ∧ sameByte true a b = true ∧ afterBytes? true as t = some r := by
  cases s with
  | nil => simp [afterBytes?]
  | cons b t => simp [afterBytes?]

/-- Beyond ASCII, bytes are taken off as they stand. -/
lemma afterBytes?_iff_of_le {as : List UInt8} (h : ∀ a ∈ as, 128 ≤ a.toNat) :
    afterBytes? true as s = some r ↔ s = as ++ r := by
  induction as generalizing s with
  | nil => simp [afterBytes?]
  | cons a as ih =>
    obtain ⟨ha, has⟩ := List.forall_mem_cons.1 h
    simp only [afterBytes?_cons_iff, sameByte_iff_of_le ha, ih has]
    constructor
    · rintro ⟨_, _, rfl, rfl, rfl⟩
      rfl
    · rintro rfl
      exact ⟨a, _, rfl, rfl, rfl⟩

/-- A character beyond ASCII has no bytes of ASCII. -/
lemma le_of_mem_utf8EncodeChar (hc : 128 ≤ c.toNat) : ∀ b ∈ utf8EncodeChar c, 128 ≤ b.toNat := by
  obtain ⟨b, bs, e, hb, hbs⟩ := exists_utf8EncodeChar_eq hc
  rw [e, List.forall_mem_cons]
  exact ⟨by omega, fun x hx => (hbs x hx).1⟩

/-- Lower cases are compared by their numbers. -/
lemma toLower_eq_toLower_iff :
    c.toLower = d.toLower ↔ c.toLower.toNat = d.toLower.toNat :=
  Char.toNat_inj.symm

/-- Beyond ASCII, characters are the same up to case just if they are the same. -/
lemma toLower_eq_iff_of_le (hc : 128 ≤ c.toNat) : c.toLower = d.toLower ↔ c = d := by
  rw [toLower_eq_toLower_iff, ← Char.toNat_inj, toNat_toLower, toNat_toLower]
  split_ifs <;> omega

/-- No other character is a slash up to case. -/
lemma toLower_eq_slash_iff : c.toLower = '/'.toLower ↔ c = '/' := by
  rw [toLower_eq_toLower_iff, ← Char.toNat_inj, toNat_toLower]
  change _ = 47 ↔ c.toNat = 47
  split_ifs <;> omega

/-- What is the same as a character of ASCII up to case is in ASCII too. -/
lemma lt_of_toLower_eq (hc : c.toNat < 128) (h : c.toLower = d.toLower) : d.toNat < 128 := by
  rw [toLower_eq_toLower_iff, toNat_toLower, toNat_toLower] at h
  split_ifs at h <;> omega

/-- The byte of an ASCII character is met by a character that is the same up to case. -/
lemma sameByte_head_iff (hc : c.toNat < 128) (hd : utf8EncodeChar d = b :: bs) :
    sameByte true (UInt8.ofNat c.toNat) b = true ↔ c.toLower = d.toLower := by
  rw [sameByte_iff, toNat_otherCase, toLower_eq_toLower_iff, toNat_toLower, toNat_toLower,
    Text.toNat_ofNat_of_lt (by omega)]
  by_cases hd' : d.toNat < 128
  · rw [utf8EncodeChar_of_ascii hd'] at hd
    obtain ⟨rfl, -⟩ := List.cons.inj hd
    rw [Text.toNat_ofNat_of_lt (by omega)]
    split_ifs <;> omega
  · obtain ⟨b', bs', e, hb, -⟩ := exists_utf8EncodeChar_eq (Nat.le_of_not_lt hd')
    obtain ⟨rfl, -⟩ := List.cons.inj (hd.symm.trans e)
    split_ifs <;> omega

/-- The bytes of a character are taken off a text by taking off a character that is the same up to
the case of ASCII letters. -/
lemma afterBytes?_utf8EncodeChar_iff :
    afterBytes? true (utf8EncodeChar c) (bytesOf p) = some r ↔
      ∃ d p', p = d :: p' ∧ c.toLower = d.toLower ∧ r = bytesOf p' := by
  by_cases hc : c.toNat < 128
  · simp only [utf8EncodeChar_of_ascii hc, afterBytes?_cons_iff, afterBytes?, Option.some.injEq]
    constructor
    · rintro ⟨b, t, hp, hsame, rfl⟩
      cases p with
      | nil => cases hp
      | cons d p =>
        obtain ⟨b', bs, hd⟩ := List.exists_cons_of_ne_nil (String.utf8EncodeChar_ne_nil (c := d))
        rw [bytesOf_cons, hd, List.cons_append] at hp
        obtain ⟨rfl, rfl⟩ := List.cons.inj hp
        have hlower := (sameByte_head_iff hc hd).1 hsame
        rw [utf8EncodeChar_of_ascii (lt_of_toLower_eq hc hlower)] at hd
        obtain ⟨-, rfl⟩ := List.cons.inj hd
        exact ⟨d, p, rfl, hlower, rfl⟩
    · rintro ⟨d, p, rfl, hlower, rfl⟩
      have hd := utf8EncodeChar_of_ascii (lt_of_toLower_eq hc hlower)
      exact ⟨_, _, by rw [bytesOf_cons, hd]; rfl, (sameByte_head_iff hc hd).2 hlower, rfl⟩
  · have hc := Nat.le_of_not_lt hc
    simp only [afterBytes?_iff_of_le (le_of_mem_utf8EncodeChar hc), toLower_eq_iff_of_le hc]
    constructor
    · intro h
      cases p with
      | nil =>
        exact absurd (List.append_eq_nil_iff.1 h.symm).1 String.utf8EncodeChar_ne_nil
      | cons d p =>
        obtain ⟨rfl, rfl⟩ := utf8EncodeChar_append_inj h
        exact ⟨_, _, rfl, rfl, rfl⟩
    · rintro ⟨_, _, rfl, rfl, rfl⟩
      rfl

/-- A character is only taken off where one begins. -/
lemma not_continues_of_afterBytes? (h : afterBytes? true (utf8EncodeChar c) s = some r) :
    ∀ b ∈ s.head?, ¬Continues b := by
  rintro b hb ⟨hlow, hhigh⟩
  by_cases hc : c.toNat < 128
  · rw [utf8EncodeChar_of_ascii hc, afterBytes?_cons_iff] at h
    obtain ⟨b', t, rfl, hsame, -⟩ := h
    obtain rfl : b' = b := Option.some.inj hb
    rw [sameByte_iff, toNat_otherCase, Text.toNat_ofNat_of_lt (by omega)] at hsame
    split_ifs at hsame <;> omega
  · obtain ⟨x, xs, e, hx, -⟩ := exists_utf8EncodeChar_eq (Nat.le_of_not_lt hc)
    rw [e, afterBytes?_cons_iff] at h
    obtain ⟨b', t, rfl, hsame, -⟩ := h
    obtain rfl : b' = b := Option.some.inj hb
    obtain rfl := (sameByte_iff_of_le (by omega)).1 hsame
    omega

end SpdxHeaders.Glob
