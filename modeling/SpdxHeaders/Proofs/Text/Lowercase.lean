import Mathlib.Tactic.Lemma
import SpdxHeaders.Text.Lowercase

/-!
# Lower case within a text

What a part of a text becomes in lower case depends on what stands around it, but only by its
capital sigmas: each of them becomes a final sigma if it ends a word. So a part becomes what it is
in lower case by itself just if its sigmas end a word in the whole text where they do in the part
(`lowerWithin_eq_iff`).
-/

namespace SpdxHeaders.Text

/-- A capital sigma between two texts ends a word: passing over the characters that do not count, a
cased letter comes next in front of it, and none behind it. -/
def EndsWord (before after : Text) : Prop :=
  meetsCased before.reverse = true ∧ meetsCased after = false

instance (before after : Text) : Decidable (EndsWord before after) :=
  inferInstanceAs (Decidable (_ ∧ _))

/-- Within a text, the capital sigmas of `t` end a word just where they do in `t` by itself. -/
def KeepsWordEnds (before t after : Text) : Prop :=
  ∀ u v, t = u ++ 'Σ' :: v → (EndsWord (before ++ u) (v ++ after) ↔ EndsWord u v)

/-- What `t` becomes in lower case in front of `after` and behind the characters `before`, nearest
first. -/
def lowerWithin (after before : Text) : Text → Text
  | [] => []
  | c :: t =>
    if c = 'Σ' then
      (if EndsWord before.reverse (t ++ after) then 'ς' else 'σ') ::
        lowerWithin after (c :: before) t
    else lowerOf c ++ lowerWithin after (c :: before) t

variable {before after before' after' t : Text}

/-- The lower case of a text is that of one part and then of the other, each in its place. -/
lemma lowerAfter_append (before t after : Text) :
    lowerAfter before (t ++ after)
      = lowerWithin after before t ++ lowerAfter (t.reverse ++ before) after := by
  induction t generalizing before with
  | nil => rfl
  | cons c t ih =>
    rw [List.cons_append, List.reverse_cons, List.append_assoc, List.singleton_append]
    simp only [lowerAfter, lowerWithin, ih, EndsWord, List.reverse_reverse]
    split
    · simp
    · rw [List.append_assoc]

/-- A text in lower case is made of its parts in lower case, each within the text. -/
lemma lowercase_append_append (before t after : Text) :
    (before ++ t ++ after).lowercase
      = lowerWithin (t ++ after) [] before ++ lowerWithin after before.reverse t
        ++ lowerAfter (before ++ t).reverse after := by
  rw [lowercase, List.append_assoc, lowerAfter_append, lowerAfter_append, List.reverse_append,
    List.append_nil, List.append_assoc]

/-- With nothing around it, a text becomes what it is in lower case by itself. -/
lemma lowerWithin_nil (t : Text) : lowerWithin [] [] t = t.lowercase := by
  have h := lowerAfter_append [] t []
  rw [List.append_nil, lowerAfter, List.append_nil] at h
  exact h.symm

/-- How long the lower case is does not depend on what is around the text. -/
lemma length_lowerWithin (after before after' before' t : Text) :
    (lowerWithin after before t).length = (lowerWithin after' before' t).length := by
  induction t generalizing before before' with
  | nil => rfl
  | cons c t ih =>
    unfold lowerWithin
    split
    · rw [List.length_cons, List.length_cons, ih]
    · rw [List.length_append, List.length_append, ih]

/-- Where a character stands in a text: at its head, or somewhere in the rest. -/
lemma forall_split_cons_iff {x c : Char} {P : Text → Text → Prop} :
    (∀ u v, c :: t = u ++ x :: v → P u v) ↔
      (c = x → P [] t) ∧ ∀ u v, t = u ++ x :: v → P (c :: u) v := by
  constructor
  · intro h
    refine ⟨?_, fun u v e => ?_⟩
    · rintro rfl
      exact h [] t rfl
    · exact h (c :: u) v (by rw [e, List.cons_append])
  · rintro ⟨hhead, hrest⟩ u v e
    cases u with
    | nil =>
      obtain ⟨rfl, rfl⟩ := List.cons.inj e
      exact hhead rfl
    | cons d u =>
      obtain ⟨rfl, rfl⟩ := List.cons.inj e
      exact hrest u v rfl

/-- What a text becomes in lower case depends on its surroundings by its capital sigmas only. -/
lemma lowerWithin_eq_iff :
    lowerWithin after before.reverse t = lowerWithin after' before'.reverse t ↔
      ∀ u v, t = u ++ 'Σ' :: v →
        (EndsWord (before ++ u) (v ++ after) ↔ EndsWord (before' ++ u) (v ++ after')) := by
  induction t generalizing before before' with
  | nil => simp [lowerWithin]
  | cons c t ih =>
    have hrest := @ih (before ++ [c]) (before' ++ [c])
    simp only [List.reverse_append, List.reverse_singleton, List.append_assoc,
      List.singleton_append] at hrest
    rw [forall_split_cons_iff, ← hrest]
    simp only [lowerWithin, List.reverse_reverse, List.append_nil]
    by_cases hc : c = 'Σ'
    · have hletter (p q : Prop) [Decidable p] [Decidable q] :
          (if p then 'ς' else 'σ') = (if q then 'ς' else 'σ') ↔ (p ↔ q) := by
        by_cases hp : p <;> by_cases hq : q <;> simp [hp, hq]
      rw [if_pos hc, if_pos hc, List.cons.injEq, hletter]
      exact and_congr_left' ⟨fun h _ => h, fun h => h hc⟩
    · rw [if_neg hc, if_neg hc, List.append_cancel_left_eq]
      exact ⟨fun h => ⟨fun hc' => absurd hc' hc, h⟩, And.right⟩

/-- A part becomes what it is in lower case by itself just if its sigmas end words as they do
there. -/
lemma lowerWithin_eq_lowercase_iff :
    lowerWithin after before.reverse t = t.lowercase ↔ KeepsWordEnds before t after := by
  have h := @lowerWithin_eq_iff before after [] [] t
  simp only [List.reverse_nil, lowerWithin_nil, List.nil_append, List.append_nil] at h
  exact h

/-- Without a capital sigma the surroundings do not matter. -/
lemma keepsWordEnds_of_notMem (h : 'Σ' ∉ t) : KeepsWordEnds before t after := by
  rintro u v rfl
  exact absurd (List.mem_append_right u List.mem_cons_self) h

end SpdxHeaders.Text
