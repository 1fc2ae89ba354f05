import Mathlib.Data.List.Infix
import Mathlib.Tactic.Lemma
import SpdxHeaders.Text.Basic

/-!
# Occurrences in a text

Where a needle occurs in a text, and first of all. The main facts:

* `cut?_eq_some_iff` and `cut?_eq_none_iff`: a text is cut at the first occurrence of the needle;
* `FirstCut.replaceTail`: what follows the first occurrence has no say in where it is;
* `replaceFirst_eq`: replacing keeps what stands on both sides of the first occurrence;
* `Clear.isPrefix`: an occurrence cannot begin inside a lead that keeps clear of the needle;
* `isInfix_append_cons_iff`: a needle does not occur across a character that it does not hold;
* `OccursOnce.of_notMem`: a needle occurs once if its first character does.
-/

namespace SpdxHeaders.Text

/-- The first occurrence of `needle` in `t` stands between `front` and the end of `t`, at the
beginning of `rest`. -/
structure FirstCut (needle t front rest : Text) : Prop where
  eq : t = front ++ rest
  isPrefix : needle <+: rest
  least : ∀ front' rest' : Text, t = front' ++ rest' → needle <+: rest' →
    front.length ≤ front'.length

/-- A text that begins with the needle is cut at its start. -/
lemma FirstCut.start {needle t : Text} (h : needle <+: t) : FirstCut needle t [] t :=
  ⟨rfl, h, fun _ _ _ _ => Nat.zero_le _⟩

/-- There is one first occurrence. -/
lemma FirstCut.unique {needle t b r b' r' : Text} (h : FirstCut needle t b r)
    (h' : FirstCut needle t b' r') : b = b' ∧ r = r' := by
  have hl : b.length = b'.length :=
    Nat.le_antisymm (h.least _ _ h'.eq h'.isPrefix) (h'.least _ _ h.eq h.isPrefix)
  exact List.append_inj (h.eq.symm.trans h'.eq) hl

/-- A needle that does not begin a text occurs first where it does behind the first character. -/
lemma FirstCut.cons_iff {needle t b r : Text} {c : Char} (hn : ¬ needle <+: c :: t) :
    FirstCut needle (c :: t) b r ↔ ∃ b', b = c :: b' ∧ FirstCut needle t b' r := by
  constructor
  · rintro ⟨e, hp, hl⟩
    cases b with
    | nil =>
      obtain rfl : c :: t = r := e
      exact absurd hp hn
    | cons d b =>
      obtain ⟨rfl, rfl⟩ := List.cons.inj e
      refine ⟨b, rfl, rfl, hp, fun b' r' e' hp' => ?_⟩
      have h := hl (c :: b') r' (congrArg (c :: ·) e') hp'
      exact Nat.le_of_succ_le_succ h
  · rintro ⟨b, rfl, e, hp, hl⟩
    refine ⟨congrArg (c :: ·) e, hp, fun b' r' e' hp' => ?_⟩
    cases b' with
    | nil =>
      obtain rfl : c :: t = r' := e'
      exact absurd hp' hn
    | cons d b' =>
      obtain ⟨rfl, rfl⟩ := List.cons.inj e'
      exact Nat.succ_le_succ (hl _ _ rfl hp')

/-- A cut behind the first character is one of the rest. -/
lemma FirstCut.of_cons {needle t b r : Text} {c : Char} (h : FirstCut needle (c :: t) (c :: b) r) :
    FirstCut needle t b r := by
  have hn : ¬ needle <+: c :: t := fun hn => by cases (h.unique (.start hn)).1
  obtain ⟨b', e, h'⟩ := (FirstCut.cons_iff hn).1 h
  cases e
  exact h'

/-- The needle does not occur in front of its first occurrence. -/
lemma FirstCut.not_isInfix {needle t front rest : Text} (h : FirstCut needle t front rest)
    (hne : needle ≠ []) : ¬ needle <:+: front := by
  rintro ⟨p, q, rfl⟩
  have hle := h.least p (needle ++ (q ++ rest)) (by rw [h.eq]; simp only [List.append_assoc])
    (List.prefix_append _ _)
  have hpos := List.length_pos_of_ne_nil hne
  simp only [List.length_append] at hle
  omega

/-- A text is cut at the first occurrence of the needle. -/
lemma cut?_eq_some_iff {needle t b r : Text} :
    cut? needle t = some (b, r) ↔ FirstCut needle t b r := by
  induction t generalizing b r with
  | nil =>
    constructor
    · intro h
      have hp := isPrefix_of_cut? h
      obtain ⟨rfl, rfl⟩ := List.append_eq_nil_iff.1 (eq_of_cut? h).symm
      exact .start hp
    · rintro ⟨e, hp, -⟩
      obtain ⟨rfl, rfl⟩ := List.append_eq_nil_iff.1 e.symm
      obtain rfl := List.prefix_nil.1 hp
      rfl
  | cons c t ih =>
    -- The search goes on behind the first character unless the needle begins there.
    by_cases hn : needle <+: c :: t
    · rw [cut?, if_pos (List.isPrefixOf_iff_prefix.2 hn)]
      constructor
      · intro h
        cases h
        exact .start hn
      · intro h
        obtain ⟨rfl, rfl⟩ := h.unique (.start hn)
        rfl
    · rw [cut?, if_neg (mt List.isPrefixOf_iff_prefix.1 hn), FirstCut.cons_iff hn]
      simp only [Option.map_eq_some_iff, Prod.exists, Prod.mk.injEq, ih]
      constructor
      · rintro ⟨b', r', h, rfl, rfl⟩
        exact ⟨b', rfl, h⟩
      · rintro ⟨b', rfl, h⟩
        exact ⟨b', r, h, rfl, rfl⟩

/-- A text is cut unless the needle does not occur in it. -/
lemma cut?_eq_none_iff {needle t : Text} : cut? needle t = none ↔ ¬ needle <:+: t := by
  induction t with
  | nil => cases needle <;> simp [cut?]
  | cons c t ih =>
    rw [cut?, List.infix_cons_iff, ← List.isPrefixOf_iff_prefix]
    by_cases hn : needle.isPrefixOf (c :: t) <;> simp [hn, ih]

/-- A text with the needle can be cut at the first one. -/
lemma exists_firstCut {needle t : Text} (h : needle <:+: t) : ∃ b r, FirstCut needle t b r := by
  cases hc : cut? needle t with
  | none => exact absurd h (cut?_eq_none_iff.1 hc)
  | some p => exact ⟨p.1, p.2, cut?_eq_some_iff.1 hc⟩

/-- The test for a needle finds every occurrence. -/
lemma contains_iff_isInfix {needle t : Text} : contains needle t = true ↔ needle <:+: t := by
  induction t with
  | nil => cases needle <;> simp [contains]
  | cons c t ih =>
    rw [contains, Bool.or_eq_true, List.isPrefixOf_iff_prefix, ih, List.infix_cons_iff]

/-- Whether a literal occurs in another is a matter of their characters. -/
lemma contains_ofList {needle t : List Char} (h : contains needle t = false) :
    contains (String.ofList needle).toList (String.ofList t).toList = false := by
  rw [String.toList_ofList, String.toList_ofList]
  exact h

/-- What follows the first occurrence has no say in where it is. -/
lemma FirstCut.replaceTail {needle b x : Text} (h : FirstCut needle (b ++ (needle ++ x)) b
    (needle ++ x)) (y : Text) : FirstCut needle (b ++ (needle ++ y)) b (needle ++ y) := by
  refine ⟨rfl, List.prefix_append _ _, fun b' r' e hp => ?_⟩
  by_contra hlt
  rw [Nat.not_le] at hlt
  -- An earlier occurrence would end before the tail begins, so it would be in the old text too.
  have hb : b' ++ needle <+: b ++ needle := by
    obtain ⟨z, rfl⟩ := hp
    have h₁ : b' ++ needle <+: b ++ (needle ++ y) := ⟨z, by rw [e, List.append_assoc]⟩
    have h₂ : b ++ needle <+: b ++ (needle ++ y) := ⟨y, List.append_assoc ..⟩
    apply List.prefix_of_prefix_length_le h₁ h₂
    simp only [List.length_append]
    omega
  obtain ⟨z, hz⟩ := hb
  have hle := h.least b' (needle ++ (z ++ x))
    (by rw [← List.append_assoc, ← hz]; simp only [List.append_assoc]) (List.prefix_append _ _)
  omega

/-- A text that begins with the needle occurs first where the needle does. -/
lemma FirstCut.extend {needle text t b r : Text} (h : FirstCut needle t b r)
    (hn : needle <+: text) (ht : text <+: r) : FirstCut text t b r :=
  ⟨h.eq, ht, fun _ _ e hp => h.least _ _ e (hn.trans hp)⟩

/-- Replacing the first occurrence keeps what stands on both sides of it. -/
lemma replaceFirst_eq {old t b r : Text} (h : FirstCut old t b (old ++ r)) (new : Text) :
    replaceFirst old new t = b ++ new ++ r := by
  rw [replaceFirst, cut?_eq_some_iff.2 h]
  simp only [List.drop_left]

/-- A list with an element is what stands in front of the first occurrence of the element, the
element, and what follows. -/
lemma exists_eq_takeWhile_append {α : Type} [DecidableEq α] {l : List α} {a : α} (h : a ∈ l) :
    ∃ later, l = l.takeWhile (· ≠ a) ++ a :: later := by
  obtain ⟨earlier, later, e, hnot⟩ := List.eq_append_cons_of_mem h
  have hne : ∀ b ∈ earlier, decide (b ≠ a) = true := by
    intro b hb
    simpa using fun heq : b = a => hnot (heq ▸ hb)
  refine ⟨later, ?_⟩
  rw [e, List.takeWhile_append_of_pos hne, List.takeWhile_cons_of_neg (by simp), List.append_nil]

/-- No occurrence of the needle begins inside the lead, whatever follows it. -/
def Clear (needle lead : Text) : Prop :=
  ∀ v ∈ lead.tails, v ≠ [] → ¬ needle <+: v ∧ ¬ v <+: needle

instance (needle lead : Text) : Decidable (Clear needle lead) :=
  inferInstanceAs (Decidable (∀ v ∈ lead.tails, v ≠ [] → ¬ needle <+: v ∧ ¬ v <+: needle))

/-- An occurrence of the needle stands behind a lead that keeps clear of it. -/
lemma Clear.isPrefix {needle lead t front rest : Text} (h : Clear needle lead)
    (e : lead ++ t = front ++ rest) (hp : needle <+: rest) : lead <+: front := by
  obtain ⟨v, hv⟩ | ⟨v, hv⟩ := List.prefix_or_prefix_of_prefix (List.prefix_append lead t)
    (e ▸ List.prefix_append front rest)
  · exact ⟨v, hv⟩
  · subst hv
    by_cases hne : v = []
    · subst hne
      rw [List.append_nil]
    · obtain ⟨hnv, hvn⟩ := h v ((List.mem_tails _ _).2 (List.suffix_append _ _)) hne
      rw [List.append_assoc] at e
      have hvr : v <+: rest := ⟨t, List.append_cancel_left e⟩
      rcases List.prefix_or_prefix_of_prefix hp hvr with hpv | hpv
      · exact absurd hpv hnv
      · exact absurd hpv hvn

/-- What keeps clear of the needle has no say in whether it occurs behind it. -/
lemma Clear.isInfix_iff {needle lead t : Text} (h : Clear needle lead) :
    needle <:+: lead ++ t ↔ needle <:+: t := by
  refine ⟨?_, fun hi => hi.trans (List.suffix_append _ _).isInfix⟩
  rintro ⟨front, back, e⟩
  have hp : needle <+: needle ++ back := List.prefix_append _ _
  obtain ⟨front', rfl⟩ := h.isPrefix (by rw [← e, List.append_assoc]) hp
  simp only [List.append_assoc] at e
  exact ⟨front', back, by rw [List.append_assoc]; exact List.append_cancel_left e⟩

/-- Behind what keeps clear of the needle the first occurrence is where it was. -/
lemma FirstCut.append_left {needle lead t front rest : Text} (h : FirstCut needle t front rest)
    (hlead : Clear needle lead) : FirstCut needle (lead ++ t) (lead ++ front) rest := by
  refine ⟨by rw [h.eq, List.append_assoc], h.isPrefix, fun front' rest' e hp => ?_⟩
  obtain ⟨front'', rfl⟩ := hlead.isPrefix e hp
  rw [List.append_assoc] at e
  have hle := h.least front'' rest' (List.append_cancel_left e) hp
  rw [List.length_append, List.length_append]
  exact Nat.add_le_add_left hle _

section Seam
variable {needle : Text} {c : Char}

/-- A needle without a character does not begin a text across this character. -/
lemma isPrefix_append_cons_iff (hc : c ∉ needle) {a b : Text} :
    needle <+: a ++ c :: b ↔ needle <+: a := by
  refine ⟨fun h => ?_, fun h => h.trans (List.prefix_append _ _)⟩
  rcases List.prefix_or_prefix_of_prefix h (List.prefix_append a (c :: b)) with hp | ⟨z, rfl⟩
  · exact hp
  · cases z with
    | nil => rw [List.append_nil]
    | cons d z =>
      rw [List.prefix_append_right_inj, List.cons_prefix_cons] at h
      obtain ⟨rfl, -⟩ := h
      exact absurd (List.mem_append_right a List.mem_cons_self) hc

/-- A needle without a character does not occur across this character. -/
lemma isInfix_append_cons_iff (hc : c ∉ needle) {a b : Text} :
    needle <:+: a ++ c :: b ↔ needle <:+: a ∨ needle <:+: b := by
  induction a with
  | nil =>
    have hp : needle <+: c :: b ↔ needle <+: [] := isPrefix_append_cons_iff hc (a := [])
    rw [List.nil_append, List.infix_cons_iff, hp, List.prefix_nil, List.infix_nil]
  | cons d a ih =>
    rw [List.cons_append, List.infix_cons_iff, List.infix_cons_iff, ih, ← List.cons_append,
      isPrefix_append_cons_iff hc, or_assoc]

/-- A needle without a character does not end a text across this character. -/
lemma isSuffix_append_cons_iff (hc : c ∉ needle) {a b : Text} :
    needle <:+ a ++ c :: b ↔ needle <:+ b := by
  refine ⟨fun h => ?_, fun h => h.trans ((List.suffix_cons c b).trans (List.suffix_append _ _))⟩
  rcases List.suffix_or_suffix_of_suffix h (List.suffix_append a (c :: b)) with hs | hs
  · rcases List.suffix_cons_iff.1 hs with rfl | hs
    · exact absurd List.mem_cons_self hc
    · exact hs
  · exact absurd (hs.subset List.mem_cons_self) hc

/-- A needle that does not occur in a text occurs first behind it and a character that the needle
does not hold. -/
lemma FirstCut.of_notMem (hc : c ∉ needle) {a : Text} (ha : ¬ needle <:+: a) (x : Text) :
    FirstCut needle (a ++ c :: (needle ++ x)) (a ++ [c]) (needle ++ x) := by
  refine ⟨by rw [List.append_assoc]; rfl, List.prefix_append _ _, fun front rest e hp => ?_⟩
  rcases List.append_eq_append_iff.1 e with ⟨z, rfl, hz⟩ | ⟨z, rfl, rfl⟩
  · cases z with
    | nil =>
      -- A needle that begins with the character is empty.
      have hnil : needle <+: [] ++ c :: (needle ++ x) := hz ▸ hp
      rw [isPrefix_append_cons_iff hc, List.prefix_nil] at hnil
      exact absurd (hnil ▸ List.nil_infix) ha
    | cons d z =>
      simp only [List.length_append, List.length_cons, List.length_nil]
      omega
  · refine absurd ?_ ha
    exact ((isPrefix_append_cons_iff hc).1 hp).isInfix.trans (List.suffix_append _ _).isInfix

/-- A needle that does not hold its first character again occurs first behind a text in which it
does not occur. -/
lemma FirstCut.of_cons_notMem (hc : c ∉ needle) {a rest : Text} (ha : ¬ c :: needle <:+: a)
    (hrest : needle <+: rest) : FirstCut (c :: needle) (a ++ c :: rest) a (c :: rest) := by
  refine ⟨rfl, List.cons_prefix_cons.2 ⟨rfl, hrest⟩, fun front rest' e hp => ?_⟩
  rcases List.append_eq_append_iff.1 e with ⟨z, rfl, -⟩ | ⟨z, rfl, rfl⟩
  · rw [List.length_append]
    exact Nat.le_add_right _ _
  · cases z with
    | nil => exact (List.length_append ..).le
    | cons d z =>
      -- The first character is not the one at the seam, so the needle is in the text.
      obtain ⟨rfl, htail⟩ := List.cons_prefix_cons.1 hp
      have hz := (isPrefix_append_cons_iff hc).1 htail
      refine absurd (List.IsInfix.trans ?_ (List.suffix_append _ _).isInfix) ha
      exact (List.cons_prefix_cons.2 ⟨rfl, hz⟩).isInfix

end Seam

section OnlyAtEnd
variable {needle t u v : Text}

/-- The needle occurs nowhere in the text but at its end, if there. -/
def OnlyAtEnd (needle t : Text) : Prop :=
  ∀ front rest, t = front ++ needle ++ rest → rest = []

/-- What stands first in front of a text ends nowhere else. -/
lemma FirstCut.onlyAtEnd {front rest : Text} (h : FirstCut needle t front (needle ++ rest)) :
    OnlyAtEnd needle (front ++ needle) := by
  intro front' rest' e
  have hle := h.least front' (needle ++ (rest' ++ rest))
    (by rw [h.eq, ← List.append_assoc, e]; simp only [List.append_assoc]) (List.prefix_append _ _)
  have hlength := congrArg List.length e
  simp only [List.length_append] at hlength
  exact List.eq_nil_of_length_eq_zero (by omega)

/-- A part of the text holds the needle only if both end there. -/
lemma OnlyAtEnd.of_isInfix (h : OnlyAtEnd needle t) (hu : u <:+: t) : OnlyAtEnd needle u := by
  obtain ⟨p, q, rfl⟩ := hu
  rintro front rest rfl
  have hnil := h (p ++ front) (rest ++ q) (by simp only [List.append_assoc])
  exact (List.append_eq_nil_iff.1 hnil).1

/-- What can occur at the end only occurs just if it is there. -/
lemma OnlyAtEnd.isInfix_iff (h : OnlyAtEnd needle t) : needle <:+: t ↔ needle <:+ t := by
  refine ⟨?_, List.IsSuffix.isInfix⟩
  rintro ⟨front, rest, rfl⟩
  rw [h front rest rfl, List.append_nil]
  exact List.suffix_append _ _

/-- In front of anything else, the needle does not occur. -/
lemma OnlyAtEnd.not_isInfix (h : OnlyAtEnd needle t) (hv : v ≠ []) (hu : u ++ v <:+: t) :
    ¬ needle <:+: u := by
  rintro ⟨front, rest, rfl⟩
  have hnil := h.of_isInfix hu front (rest ++ v) (List.append_assoc ..)
  exact hv (List.append_eq_nil_iff.1 hnil).2

end OnlyAtEnd

/-- The needle occurs in the text between `front` and `rest`, and nowhere else. -/
structure OccursOnce (needle t front rest : Text) : Prop where
  eq : t = front ++ needle ++ rest
  unique : ∀ front' rest', t = front' ++ needle ++ rest' → front' = front

/-- What occurs once has one text in front and one behind. -/
lemma OccursOnce.eq_parts {needle t front rest front' rest' : Text}
    (h : OccursOnce needle t front rest) (e : t = front' ++ needle ++ rest') :
    front' = front ∧ rest' = rest := by
  obtain rfl := h.unique front' rest' e
  exact ⟨rfl, List.append_cancel_left (e.symm.trans h.eq)⟩

/-- The needle at the end of a text is the only one just if it is the first one. -/
lemma occursOnce_end_iff {needle front : Text} :
    (∃ body, OccursOnce needle (front ++ needle) body []) ↔
      FirstCut needle (front ++ needle) front needle := by
  constructor
  · rintro ⟨body, h⟩
    have hbody : front = body := by
      have e := h.eq
      rw [List.append_nil] at e
      exact List.append_cancel_right e
    refine ⟨rfl, List.prefix_rfl, ?_⟩
    rintro front' - e ⟨rest', rfl⟩
    rw [h.unique front' rest' (by rw [e, List.append_assoc]), hbody]
  · intro h
    refine ⟨front, (List.append_nil _).symm, fun front' rest' e => ?_⟩
    have hle := h.least front' (needle ++ rest') (by rw [e, List.append_assoc])
      (List.prefix_append _ _)
    have hlength := congrArg List.length e
    simp only [List.length_append] at hlength
    rw [List.append_assoc] at e
    exact (List.append_inj e (by omega)).1.symm

/-- A needle occurs once if its first character does. -/
lemma OccursOnce.of_notMem {c : Char} {needle t front rest : Text}
    (ht : t = front ++ needle ++ rest) (hhead : needle.head? = some c) (hfront : c ∉ front)
    (hrest : c ∉ needle.tail ++ rest) : OccursOnce needle t front rest := by
  obtain ⟨needle, rfl⟩ := List.head?_eq_some_iff.1 hhead
  refine ⟨ht, fun front' rest' e => ?_⟩
  rw [ht, List.append_assoc, List.append_assoc, List.cons_append, List.cons_append] at e
  rcases List.append_eq_append_iff.1 e with ⟨u, rfl, hu⟩ | ⟨u, rfl, hu⟩
  · cases u with
    | nil => exact List.append_nil front
    | cons d u =>
      obtain ⟨-, hu⟩ := List.cons.inj hu
      exact absurd (hu ▸ List.mem_append_right u List.mem_cons_self) hrest
  · cases u with
    | nil => exact (List.append_nil front').symm
    | cons d u =>
      obtain ⟨rfl, -⟩ := List.cons.inj hu
      exact absurd (List.mem_append_right front' List.mem_cons_self) hfront

end SpdxHeaders.Text
