/-!
# Text

Text is a list of characters, so that every function on it is a recursion that proofs can follow.
The main facts:

* `after?_eq_some_iff`: taking a lead off a text is the inverse of putting it in front;
* `eq_of_cut?` and `isPrefix_of_cut?`: cutting a text at the first occurrence of a needle loses
  nothing, and the second part begins with the needle;
* `join_pieces`: a text is its pieces with the separator between them;
* `ofUtf8?_toUtf8`: every text survives being written as bytes and read back.
-/

namespace SpdxHeaders

/-- A text: a list of Unicode characters. -/
abbrev Text := List Char

instance : Coe String Text := ⟨String.toList⟩

namespace Text

/-- What follows `lead` in a text that begins with it. -/
def after? : (lead t : Text) → Option Text
  | [], t => some t
  | _ :: _, [] => none
  | c :: lead, d :: t => if c = d then after? lead t else none

/-- What is behind a lead is the rest of the text. -/
theorem after?_eq_some_iff {lead t r : Text} : after? lead t = some r ↔ t = lead ++ r := by
  induction lead generalizing t with
  | nil => simp [after?]
  | cons c lead ih =>
    cases t with
    | nil => simp [after?]
    | cons d t =>
      by_cases h : c = d
      · simp [after?, h, ih]
      · simp [after?, h, Ne.symm h]

/-- The parts of a text before the first occurrence of `needle` and from it on. -/
def cut? (needle : Text) : Text → Option (Text × Text)
  | [] => if needle.isEmpty then some ([], []) else none
  | c :: t =>
    if needle.isPrefixOf (c :: t) then some ([], c :: t)
    else (cut? needle t).map fun p => (c :: p.1, p.2)

/-- Both sides of a cut are the text. -/
theorem eq_of_cut? {needle t b r : Text} (h : cut? needle t = some (b, r)) : t = b ++ r := by
  induction t generalizing b with
  | nil =>
    by_cases hn : needle.isEmpty <;> simp_all [cut?]
  | cons c t ih =>
    unfold cut? at h
    split at h
    · simp_all
    · obtain ⟨⟨b', r'⟩, hp, he⟩ := Option.map_eq_some_iff.1 h
      cases he
      simp [ih hp]

/-- What is behind a cut begins with the needle. -/
theorem isPrefix_of_cut? {needle t b r : Text} (h : cut? needle t = some (b, r)) :
    needle <+: r := by
  induction t generalizing b with
  | nil =>
    by_cases hn : needle.isEmpty <;> simp_all [cut?]
  | cons c t ih =>
    unfold cut? at h
    split at h
    case isTrue hp => simp_all
    · obtain ⟨⟨b', r'⟩, hp, he⟩ := Option.map_eq_some_iff.1 h
      cases he
      exact ih hp

/-- The needle occurs in the text. -/
def contains (needle : Text) : Text → Bool
  | [] => needle.isEmpty
  | c :: t => needle.isPrefixOf (c :: t) || contains needle t

/-- The text with the first occurrence of `old` replaced by `new`. -/
def replaceFirst (old new t : Text) : Text :=
  match cut? old t with
  | some (b, r) => b ++ new ++ r.drop old.length
  | none => t

/-- The lines of a text. A line feed ends a line together with a carriage return right before it;
what follows the last line feed is a line only if it is not empty. -/
def lines : Text → List Text
  | [] => []
  | '\n' :: t => [] :: lines t
  | '\r' :: '\n' :: t => [] :: lines t
  | c :: t =>
    match lines t with
    | [] => [[c]]
    | l :: ls => (c :: l) :: ls

/-- The pieces of a text between the occurrences of a character; there is always one more piece
than there are occurrences. -/
def pieces (sep : Char) : Text → List Text
  | [] => [[]]
  | c :: t =>
    if c = sep then [] :: pieces sep t
    else
      match pieces sep t with
      | [] => [[c]]
      | p :: ps => (c :: p) :: ps

/-- The texts with `sep` between neighbours. -/
def join (sep : Text) (ts : List Text) : Text :=
  sep.intercalate ts

/-- A text has a piece at least. -/
theorem pieces_ne_nil (sep : Char) (t : Text) : pieces sep t ≠ [] := by
  cases t with
  | nil => simp [pieces]
  | cons c t =>
    unfold pieces
    split
    · simp
    · split <;> simp

/-- The pieces of a text are joined to it again. -/
theorem join_pieces (sep : Char) (t : Text) : join [sep] (pieces sep t) = t := by
  induction t with
  | nil => rfl
  | cons c t ih =>
    unfold pieces
    split
    case isTrue h =>
      subst h
      obtain ⟨p, ps, hp⟩ := List.exists_cons_of_ne_nil (pieces_ne_nil c t)
      rw [hp] at ih ⊢
      simpa [join, List.intercalate] using ih
    · split
      case h_1 hp => exact absurd hp (pieces_ne_nil sep t)
      case h_2 p ps hp =>
        rw [hp] at ih
        rw [← ih]
        cases ps <;> simp [join, List.intercalate]

/-- The number of bytes a text takes in UTF-8. -/
def byteLength : Text → Nat
  | [] => 0
  | c :: t => c.utf8Size + byteLength t

/-- The bytes of a text in UTF-8. -/
def toUtf8 (t : Text) : ByteArray :=
  (String.ofList t).toUTF8

/-- The text that bytes stand for, if they are well-formed UTF-8. -/
def ofUtf8? (bytes : ByteArray) : Option Text :=
  (String.fromUTF8? bytes).map String.toList

/-- The encoding of a text is decoded to it again. -/
theorem ofUtf8?_toUtf8 (t : Text) : ofUtf8? t.toUtf8 = some t := by
  unfold ofUtf8? toUtf8 String.fromUTF8?
  rw [String.toUTF8_eq_toByteArray, dif_pos (String.ofList t).isValidUTF8, Option.map_some]
  exact congrArg some String.toList_ofList

/-- Texts with the same bytes are the same. -/
theorem toUtf8_injective {t t' : Text} (h : t.toUtf8 = t'.toUtf8) : t = t' := by
  apply Option.some.inj
  rw [← ofUtf8?_toUtf8 t, h, ofUtf8?_toUtf8]

/-- The order of texts by the code points of their characters. -/
def le : (t u : Text) → Bool
  | [], _ => true
  | _ :: _, [] => false
  | c :: t, d :: u => c.toNat < d.toNat || c = d && le t u

/-- Sorts texts, smallest first. -/
def sort (ts : List Text) : List Text :=
  ts.mergeSort le

/-- The number `n` lies in one of the closed ranges. -/
def inRanges (ranges : List (Nat × Nat)) (n : Nat) : Bool :=
  ranges.any fun r => r.1 ≤ n && n ≤ r.2

/-- The decimal digits of a number. -/
def ofNat (n : Nat) : Text :=
  Nat.toDigits 10 n

end Text

end SpdxHeaders
