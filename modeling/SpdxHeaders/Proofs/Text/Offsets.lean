import Mathlib.Order.Bounds.Basic
import SpdxHeaders.Proofs.Text.Occurrence

/-!
# Byte offsets in a text

A place in a text is told by the number of bytes in front of it. The main facts:

* `matchesAt_iff`: where the bytes of a needle stand in the bytes of a text, its characters stand in
  the text, so that both ends of an occurrence lie between two characters;
* `firstCut_iff_isLeast`: the first occurrence is the one with the least offset.
-/

namespace SpdxHeaders.Text

/-- The bytes of the needle stand in those of the text at the offset. -/
def MatchesAt (needle t : Text) (o : Nat) : Prop :=
  t.toUtf8.extract o (o + needle.byteLength) = needle.toUtf8

/-- The offset does not lie inside a character. -/
def IsBoundary (t : Text) (o : Nat) : Prop :=
  ∃ front rest, t = front ++ rest ∧ front.byteLength = o

variable {needle t front rest front' rest' : Text} {o : Nat}

section Bytes

/-- A text is as long as its parts together. -/
lemma byteLength_append (t u : Text) : (t ++ u).byteLength = t.byteLength + u.byteLength := by
  induction t with
  | nil => exact (Nat.zero_add _).symm
  | cons c t ih => rw [List.cons_append, byteLength, byteLength, ih, Nat.add_assoc]

/-- A text with characters has bytes. -/
lemma byteLength_pos (h : t ≠ []) : 0 < t.byteLength := by
  obtain ⟨c, t, rfl⟩ := List.exists_cons_of_ne_nil h
  exact Nat.add_pos_left c.utf8Size_pos _

/-- The length in bytes is that of the string. -/
lemma byteLength_eq_utf8ByteSize (t : Text) : t.byteLength = (String.ofList t).utf8ByteSize := by
  induction t with
  | nil => rfl
  | cons c t ih =>
    rw [byteLength, ih, String.ofList_cons, String.utf8ByteSize_append,
      String.utf8ByteSize_singleton]

/-- The length in bytes is that of the encoding. -/
lemma size_toUtf8 (t : Text) : t.toUtf8.size = t.byteLength :=
  (byteLength_eq_utf8ByteSize t).symm

/-- The encoding of a text is that of one part and then of the other. -/
lemma toUtf8_append (t u : Text) : (t ++ u).toUtf8 = t.toUtf8 ++ u.toUtf8 := by
  simp only [toUtf8, String.toUTF8_eq_toByteArray, String.ofList_append, String.toByteArray_append]

/-- The bytes in front of a place of a text are those of the characters in front of it. -/
lemma extract_front (front rest : Text) :
    (front ++ rest).toUtf8.extract 0 front.byteLength = front.toUtf8 := by
  rw [toUtf8_append, ByteArray.extract_append_eq_left (size_toUtf8 front).symm]

/-- The bytes behind a place of a text are those of the characters behind it. -/
lemma extract_rest (front rest : Text) :
    (front ++ rest).toUtf8.extract front.byteLength (front ++ rest).byteLength = rest.toUtf8 := by
  rw [toUtf8_append, byteLength_append, ← size_toUtf8 front, ← size_toUtf8 rest,
    ByteArray.extract_append_eq_right rfl rfl]

/-- The bytes of a needle stand behind a front just where they stand in what follows it. -/
lemma matchesAt_append_iff :
    MatchesAt needle (front ++ t) (front.byteLength + o) ↔ MatchesAt needle t o := by
  rw [MatchesAt, MatchesAt, toUtf8_append, Nat.add_assoc,
    ByteArray.extract_append_size_add' (size_toUtf8 front).symm]

/-- The bytes of a needle stand at the beginning of a text that begins with it. -/
lemma matchesAt_zero (needle rest : Text) : MatchesAt needle (needle ++ rest) 0 := by
  rw [MatchesAt, Nat.zero_add, extract_front]

/-- A needle is found at the offset where its front ends. -/
lemma matchesAt_front (front needle rest : Text) :
    MatchesAt needle (front ++ needle ++ rest) front.byteLength := by
  rw [List.append_assoc, ← Nat.add_zero front.byteLength, matchesAt_append_iff]
  exact matchesAt_zero needle rest

end Bytes

section Characters

/-- A boundary is a valid position of the string that the text makes up. -/
lemma isBoundary_iff_isValid :
    IsBoundary t o ↔ (⟨o⟩ : String.Pos.Raw).IsValid (String.ofList t) := by
  rw [String.Pos.Raw.isValid_iff_exists_append]
  constructor
  · rintro ⟨front, rest, rfl, rfl⟩
    refine ⟨String.ofList front, String.ofList rest, String.ofList_append, ?_⟩
    rw [byteLength_eq_utf8ByteSize]
    rfl
  · rintro ⟨s₁, s₂, hs, ho⟩
    refine ⟨s₁.toList, s₂.toList, ?_, ?_⟩
    · rw [← String.toList_append, ← hs, String.toList_ofList]
    · rw [byteLength_eq_utf8ByteSize, String.ofList_toList]
      exact congrArg String.Pos.Raw.byteIdx ho.symm

/-- A needle whose bytes stand in a text begins and ends at boundaries. -/
lemma MatchesAt.isBoundary (h : MatchesAt needle t o) (hn : needle ≠ []) :
    IsBoundary t o ∧ IsBoundary t (o + needle.byteLength) := by
  have hpos := byteLength_pos hn
  have hsize : o + needle.byteLength ≤ t.byteLength := by
    have := congrArg ByteArray.size h
    rw [ByteArray.size_extract, size_toUtf8, size_toUtf8] at this
    omega
  have hvalid : (t.toUtf8.extract o (o + needle.byteLength)).IsValidUTF8 := by
    rw [h, toUtf8, String.toUTF8_eq_toByteArray]
    exact (String.ofList needle).isValidUTF8
  rw [isBoundary_iff_isValid, isBoundary_iff_isValid]
  have hends : (⟨o + needle.byteLength⟩ : String.Pos.Raw) ≤ (String.ofList t).rawEndPos := by
    rw [String.Pos.Raw.le_iff, String.byteIdx_rawEndPos, ← byteLength_eq_utf8ByteSize]
    exact hsize
  refine ((String.Pos.Raw.isValidUTF8_extract_iff ⟨o⟩ ⟨o + needle.byteLength⟩
    (Nat.le_add_right _ _) hends).1 hvalid).resolve_left fun he => ?_
  have := congrArg String.Pos.Raw.byteIdx he
  dsimp only at this
  omega

/-- Two fronts of a text with equally many bytes are the same. -/
lemma eq_of_byteLength (he : front ++ rest = front' ++ rest')
    (hl : front.byteLength = front'.byteLength) : front = front' ∧ rest = rest' := by
  have hbytes : front.toUtf8 = front'.toUtf8 := by
    rw [← extract_front front rest, he, hl, extract_front]
  obtain rfl := toUtf8_injective hbytes
  exact ⟨rfl, List.append_cancel_left he⟩

/-- Where the bytes of a needle stand in a text, its characters do. -/
lemma matchesAt_iff (hn : needle ≠ []) :
    MatchesAt needle t o ↔ ∃ front rest, t = front ++ needle ++ rest ∧ front.byteLength = o := by
  constructor
  · intro h
    obtain ⟨⟨front, rest', rfl, rfl⟩, front', rest, he, hend⟩ := h.isBoundary hn
    refine ⟨front, rest, ?_, rfl⟩
    have hbytes : front'.toUtf8 = (front ++ needle).toUtf8 := by
      calc front'.toUtf8
        _ = (front ++ rest').toUtf8.extract 0 (front.byteLength + needle.byteLength) := by
          rw [← extract_front front' rest, ← he, hend]
        _ = front.toUtf8 ++ needle.toUtf8 := by
          rw [ByteArray.extract_eq_extract_append_extract front.byteLength (Nat.zero_le _)
            (Nat.le_add_right _ _), extract_front, h]
        _ = (front ++ needle).toUtf8 := (toUtf8_append front needle).symm
    rw [he, toUtf8_injective hbytes]
  · rintro ⟨front, rest, rfl, rfl⟩
    exact matchesAt_front front needle rest

/-- A needle stands somewhere in a text by its bytes just if it occurs. -/
lemma exists_matchesAt_iff (hn : needle ≠ []) : (∃ o, MatchesAt needle t o) ↔ needle <:+: t := by
  simp only [matchesAt_iff hn]
  constructor
  · rintro ⟨-, front, rest, rfl, -⟩
    exact ⟨front, rest, rfl⟩
  · rintro ⟨front, rest, rfl⟩
    exact ⟨_, front, rest, rfl, rfl⟩

/-- A needle stands at the beginning of a text by its bytes just if the text begins with it. -/
lemma matchesAt_zero_iff (hn : needle ≠ []) : MatchesAt needle t 0 ↔ needle <+: t := by
  constructor
  · intro h
    obtain ⟨front, rest, rfl, hfront⟩ := (matchesAt_iff hn).1 h
    have hnil : front = [] := by
      by_contra hne
      exact Nat.ne_of_gt (byteLength_pos hne) hfront
    exact ⟨rest, by rw [hnil, List.nil_append]⟩
  · rintro ⟨rest, rfl⟩
    exact matchesAt_zero needle rest

/-- Of two places of a text, the one with fewer bytes in front has fewer characters in front. -/
lemma byteLength_le_iff (he : front ++ rest = front' ++ rest') :
    front.byteLength ≤ front'.byteLength ↔ front.length ≤ front'.length := by
  rcases List.append_eq_append_iff.1 he with ⟨u, rfl, -⟩ | ⟨u, rfl, -⟩
  · simp only [byteLength_append, List.length_append, Nat.le_add_right]
  · cases u with
    | nil => simp only [List.append_nil, Nat.le_refl]
    | cons c u =>
      have := byteLength_pos (List.cons_ne_nil c u)
      rw [byteLength_append, List.length_append, List.length_cons]
      omega

/-- The first occurrence of a needle is the one with the least offset. -/
lemma firstCut_iff_isLeast (hn : needle ≠ []) (he : t = front ++ rest) :
    FirstCut needle t front rest ↔ IsLeast {o | MatchesAt needle t o} front.byteLength := by
  constructor
  · rintro ⟨-, ⟨tail, rfl⟩, hleast⟩
    refine ⟨?_, fun o ho => ?_⟩
    · rw [he, ← List.append_assoc]
      exact matchesAt_front front needle tail
    · obtain ⟨front', rest', he', rfl⟩ := (matchesAt_iff hn).1 ho
      rw [List.append_assoc] at he'
      exact (byteLength_le_iff (he.symm.trans he')).2 (hleast _ _ he' (List.prefix_append _ _))
  · rintro ⟨hmatch, hleast⟩
    obtain ⟨front₀, rest₀, he₀, hfront⟩ := (matchesAt_iff hn).1 hmatch
    rw [List.append_assoc] at he₀
    obtain ⟨-, rfl⟩ := eq_of_byteLength (he₀.symm.trans he) hfront
    refine ⟨he, List.prefix_append _ _, fun front' rest' he' ⟨tail, htail⟩ => ?_⟩
    rw [← byteLength_le_iff (he.symm.trans he')]
    refine hleast ?_
    rw [he', ← htail, ← List.append_assoc]
    exact matchesAt_front front' needle tail

end Characters

end SpdxHeaders.Text
