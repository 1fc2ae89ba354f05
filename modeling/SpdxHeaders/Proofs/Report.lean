import Mathlib
import SpdxHeaders.Report.Basic

/-!
# The tally of a report

A tally names every outcome that occurs, once, with the number of files that have it, and so its
numbers add up to the number of all files. Counting one more file preserves this (`Tallies.concat`),
so it holds when all files are counted (`tallies_tallyOf`).
-/

namespace SpdxHeaders

/-- Outcomes in the same place are the same. -/
lemma Outcome.place_inj {o o' : Outcome} : o.place = o'.place ↔ o = o' :=
  List.idxOf_inj o.mem_all

namespace Report

/-- The outcomes of a tally are in the order of summaries. -/
def Ordered (tally : List (Outcome × Nat)) : Prop :=
  (tally.map Prod.fst).Pairwise fun o o' => o.place < o'.place

/-- The tally counts the files by their outcomes. -/
structure Tallies (tally : List (Outcome × Nat)) (files : List FileReport) : Prop where
  ordered : Ordered tally
  mem_iff : ∀ o n, (o, n) ∈ tally ↔
    (∃ f ∈ files, f.outcome = o) ∧ n = files.countP (·.outcome = o)
  sum : (tally.map Prod.snd).sum = files.length

variable {tally : List (Outcome × Nat)} {files : List FileReport} {o o' : Outcome} {n : Nat}

/-- Some file has an outcome just if files with it are counted. -/
lemma exists_outcome_iff : (∃ f ∈ files, f.outcome = o) ↔ files.countP (·.outcome = o) ≠ 0 := by
  simp [List.countP_eq_zero]

/-- In an ordered tally the outcomes behind an entry come later. -/
lemma Ordered.place_lt {p : Outcome × Nat} (h : Ordered (p :: tally)) (hmem : (o, n) ∈ tally) :
    p.1.place < o.place :=
  List.rel_of_pairwise_cons h (List.mem_map_of_mem hmem)

/-- What an ordered tally has behind an entry is ordered. -/
lemma Ordered.tail {p : Outcome × Nat} (h : Ordered (p :: tally)) : Ordered tally :=
  List.Pairwise.of_cons h

/-- Counting one more file adds its outcome to those that occur. -/
lemma mem_map_countOne (o : Outcome) (tally : List (Outcome × Nat)) :
    o' ∈ (countOne o tally).map Prod.fst ↔ o' = o ∨ o' ∈ tally.map Prod.fst := by
  induction tally with
  | nil => simp [countOne]
  | cons p tally ih =>
    obtain ⟨p, k⟩ := p
    unfold countOne
    split
    case isTrue hp => simp [hp]
    case isFalse =>
      split
      case isTrue => simp
      case isFalse =>
        rw [List.map_cons, List.mem_cons, ih, List.map_cons, List.mem_cons]
        exact or_left_comm

/-- Counting one more file keeps the outcomes in order. -/
lemma Ordered.countOne (h : Ordered tally) (o : Outcome) : Ordered (countOne o tally) := by
  induction tally with
  | nil => exact List.pairwise_singleton _ _
  | cons p tally ih =>
    obtain ⟨p, k⟩ := p
    unfold Report.countOne
    split
    case isTrue => exact h
    case isFalse hne =>
      split
      case isTrue hlt =>
        refine List.pairwise_cons.2 ⟨fun o' hmem => ?_, h⟩
        rcases List.mem_cons.1 hmem with rfl | hmem
        · exact hlt
        · exact hlt.trans (List.rel_of_pairwise_cons h hmem)
      case isFalse hlt =>
        refine List.pairwise_cons.2 ⟨fun o' hmem => ?_, ih h.tail⟩
        rcases (mem_map_countOne o tally).1 hmem with rfl | hmem
        · have : p.place ≠ o'.place := fun heq => hne (Outcome.place_inj.1 heq).symm
          dsimp only at hlt ⊢
          omega
        · exact List.rel_of_pairwise_cons h hmem

/-- Counting one more file leaves the numbers of other outcomes as they are. -/
lemma mem_countOne_of_ne (hne : o' ≠ o) : (o', n) ∈ countOne o tally ↔ (o', n) ∈ tally := by
  induction tally with
  | nil => simp [countOne, hne]
  | cons p tally ih =>
    obtain ⟨p, k⟩ := p
    unfold countOne
    split
    case isTrue hp =>
      subst hp
      simp [hne]
    case isFalse =>
      split
      case isTrue => simp [hne]
      case isFalse => rw [List.mem_cons, ih, List.mem_cons]

/-- Counting one more file adds one to the number of its outcome, which is none if it has not
occurred. -/
lemma mem_countOne_self (h : Ordered tally) :
    (o, n) ∈ countOne o tally ↔
      (∃ m, (o, m) ∈ tally ∧ n = m + 1) ∨ (∀ m, (o, m) ∉ tally) ∧ n = 1 := by
  induction tally with
  | nil => simp [countOne]
  | cons p tally ih =>
    obtain ⟨p, k⟩ := p
    have hlater (m : Nat) (hmem : (o, m) ∈ tally) : p.place < o.place := h.place_lt hmem
    unfold countOne
    split
    case isTrue hp =>
      subst hp
      have hnot (m : Nat) : (o, m) ∉ tally := fun hmem => absurd (hlater m hmem) (lt_irrefl _)
      simp [hnot]
    case isFalse hne =>
      split
      case isTrue hlt =>
        have hnot (m : Nat) : (o, m) ∉ tally := fun hmem => absurd (hlater m hmem) hlt.not_gt
        simp [hnot, hne]
      case isFalse => simp [ih h.tail, hne]

/-- Counting one more file adds one to the sum. -/
lemma sum_countOne (o : Outcome) (tally : List (Outcome × Nat)) :
    ((countOne o tally).map Prod.snd).sum = (tally.map Prod.snd).sum + 1 := by
  induction tally with
  | nil => rfl
  | cons p tally ih =>
    obtain ⟨p, k⟩ := p
    unfold countOne
    split
    case isTrue =>
      simp only [List.map_cons, List.sum_cons]
      omega
    case isFalse =>
      split
      case isTrue =>
        simp only [List.map_cons, List.sum_cons]
        omega
      case isFalse =>
        simp only [List.map_cons, List.sum_cons, ih]
        omega

/-- A tally counts one more file. -/
lemma Tallies.concat (h : Tallies tally files) (f : FileReport) :
    Tallies (countOne f.outcome tally) (files ++ [f]) where
  ordered := h.ordered.countOne f.outcome
  mem_iff o n := by
    have hcount : (files ++ [f]).countP (·.outcome = o)
        = files.countP (·.outcome = o) + if f.outcome = o then 1 else 0 := by
      simp [List.countP_append, List.countP_singleton]
    rw [exists_outcome_iff, hcount]
    by_cases ho : f.outcome = o
    · subst ho
      rw [if_pos rfl, mem_countOne_self h.ordered]
      simp only [h.mem_iff, exists_outcome_iff]
      constructor
      · rintro (⟨m, ⟨-, rfl⟩, rfl⟩ | ⟨hnone, rfl⟩)
        · exact ⟨Nat.succ_ne_zero _, rfl⟩
        · have hzero : files.countP (·.outcome = f.outcome) = 0 := by
            by_contra hne
            exact hnone _ ⟨hne, rfl⟩
          rw [hzero]
          exact ⟨Nat.one_ne_zero, rfl⟩
      · rintro ⟨-, rfl⟩
        by_cases hzero : files.countP (·.outcome = f.outcome) = 0
        · exact .inr ⟨fun m hm => hm.1 hzero, by rw [hzero]⟩
        · exact .inl ⟨_, ⟨hzero, rfl⟩, rfl⟩
    · rw [if_neg ho, mem_countOne_of_ne (Ne.symm ho), h.mem_iff, exists_outcome_iff, Nat.add_zero]
  sum := by
    rw [sum_countOne, h.sum, List.length_append, List.length_singleton]

/-- The tally of files counts them. -/
theorem tallies_tallyOf (files : List FileReport) : Tallies (tallyOf files) files := by
  -- Files are counted from the first on, so the induction is from the last.
  induction files using List.reverseRecOn with
  | nil => exact ⟨List.Pairwise.nil, by simp [tallyOf], rfl⟩
  | append_singleton files f ih =>
    unfold tallyOf at ih ⊢
    rw [List.foldl_append, List.foldl_cons, List.foldl_nil]
    exact ih.concat f

end Report

end SpdxHeaders
