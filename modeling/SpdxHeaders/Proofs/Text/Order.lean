import Mathlib.Data.List.Nodup
import Mathlib.Tactic.Lemma
import SpdxHeaders.Text.Basic

/-!
# The order of texts

Texts are ordered totally by their code points, as lists of characters are (`lt_iff`). So a sorted
list is determined by its members and how often each stands in it (`sort_eq_of_perm`).
-/

namespace SpdxHeaders.Text

variable {t u : Text}

/-- Texts are compared at their first characters, and then behind them. -/
@[simp]
lemma le_cons_cons {c d : Char} :
    le (c :: t) (d :: u) = true ↔ c.toNat < d.toNat ∨ c = d ∧ le t u = true := by
  simp [le]

/-- Nothing comes before the empty text. -/
lemma eq_nil_of_le (h : le t [] = true) : t = [] := by
  cases t with
  | nil => rfl
  | cons c t => cases h

/-- The order goes on. -/
lemma le_trans (t u v : Text) (htu : le t u = true) (huv : le u v = true) : le t v = true := by
  induction t generalizing u v with
  | nil => exact le.eq_1 v
  | cons c t ih =>
    cases u with
    | nil => cases htu
    | cons d u =>
      cases v with
      | nil => cases huv
      | cons e v =>
        rw [le_cons_cons] at htu huv ⊢
        rcases htu, huv with ⟨hcd | ⟨rfl, htu⟩, hde | ⟨rfl, huv⟩⟩
        · exact .inl (Nat.lt_trans hcd hde)
        · exact .inl hcd
        · exact .inl hde
        · exact .inr ⟨rfl, ih u v htu huv⟩

/-- Of two texts one is at most the other. -/
lemma le_total (t u : Text) : (le t u || le u t) = true := by
  induction t generalizing u with
  | nil => rw [le, Bool.true_or]
  | cons c t ih =>
    cases u with
    | nil => rw [le.eq_1, Bool.or_true]
    | cons d u =>
      rw [Bool.or_eq_true, le_cons_cons, le_cons_cons]
      rcases Nat.lt_trichotomy c.toNat d.toNat with hlt | heq | hgt
      · exact .inl (.inl hlt)
      · obtain rfl := Char.toNat_inj.1 heq
        have h := Bool.or_eq_true _ _ ▸ ih u
        exact h.imp (fun h => .inr ⟨rfl, h⟩) (fun h => .inr ⟨rfl, h⟩)
      · exact .inr (.inl hgt)

/-- Texts that are at most each other are equal. -/
lemma le_antisymm (t u : Text) (htu : le t u = true) (hut : le u t = true) : t = u := by
  induction t generalizing u with
  | nil => exact (eq_nil_of_le hut).symm
  | cons c t ih =>
    cases u with
    | nil => cases htu
    | cons d u =>
      rw [le_cons_cons] at htu hut
      rcases htu, hut with ⟨hcd | ⟨rfl, htu⟩, hdc | ⟨hdc, hut⟩⟩
      · exact absurd hdc (Nat.lt_asymm hcd)
      · exact absurd hcd (hdc ▸ Nat.lt_irrefl _)
      · exact absurd hdc (Nat.lt_irrefl _)
      · rw [ih u htu hut]

/-- The order of texts is that of lists of characters. -/
lemma lt_iff : t < u ↔ le t u = true ∧ t ≠ u := by
  induction t generalizing u with
  | nil => cases u <;> simp [le]
  | cons c t ih =>
    cases u with
    | nil => simp [le]
    | cons d u =>
      rw [List.cons_lt_cons_iff, ih, le_cons_cons, Char.lt_def, UInt32.lt_iff_toNat_lt]
      change c.toNat < d.toNat ∨ _ ↔ _
      constructor
      · rintro (h | ⟨rfl, h, hne⟩)
        · refine ⟨.inl h, fun e => ?_⟩
          obtain ⟨rfl, -⟩ := List.cons.inj e
          exact Nat.lt_irrefl _ h
        · exact ⟨.inr ⟨rfl, h⟩, fun e => hne (List.cons.inj e).2⟩
      · rintro ⟨h | ⟨rfl, h⟩, hne⟩
        · exact .inl h
        · exact .inr ⟨rfl, h, fun e => hne (e ▸ rfl)⟩

/-- Sorting does not depend on the order before. -/
lemma sort_eq_of_perm {ts us : List Text} (h : ts.Perm us) : sort ts = sort us := by
  refine List.Perm.eq_of_pairwise ?_ (List.pairwise_mergeSort le_trans le_total ts)
    (List.pairwise_mergeSort le_trans le_total us) ?_
  · intro t u _ _ htu hut
    exact le_antisymm t u htu hut
  · exact (List.mergeSort_perm _ _).trans (h.trans (List.mergeSort_perm _ _).symm)

/-- Every member is left once. -/
lemma nodup_eraseDups (ts : List Text) : ts.eraseDups.Nodup := by
  induction hn : ts.length using Nat.strongRecOn generalizing ts with
  | ind n ih =>
    cases ts with
    | nil => exact List.nodup_nil
    | cons a ts =>
      have hlength : (ts.filter fun b => !b == a).length < n := by
        rw [← hn]
        exact Nat.lt_succ_of_le (List.length_filter_le _ _)
      rw [List.eraseDups_cons, List.nodup_cons]
      exact ⟨by simp, ih _ hlength _ rfl⟩

end SpdxHeaders.Text
