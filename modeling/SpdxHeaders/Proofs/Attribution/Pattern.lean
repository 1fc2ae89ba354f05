import Mathlib.Data.List.Basic
import Mathlib.Tactic.Lemma
import SpdxHeaders.Attribution.Pattern

/-!
# What patterns find

What the searches for patterns come to, said without the search: `leftmost` finds the earliest place
where its pattern succeeds (`leftmost_eq_some_iff`), and `longest` the longest run behind which the
next pattern succeeds (`longest_eq_some_iff`). A year is read from four digits
(`year?_eq_some_iff`).
-/

namespace SpdxHeaders.Attribution

variable {α : Type}

section Leftmost
variable {pattern : Text → Option α} {t : Text} {a : α}

/-- Behind `front` stands the earliest place of the text where the rest of it is as `P` says. -/
structure Earliest (P : Text → Prop) (t front rest : Text) : Prop where
  eq : t = front ++ rest
  holds : P rest
  least : ∀ front' rest', t = front' ++ rest' → P rest' → front.length ≤ front'.length

/-- There is one earliest place. -/
lemma Earliest.unique {P : Text → Prop} {front rest front' rest' : Text}
    (h : Earliest P t front rest) (h' : Earliest P t front' rest') : front' = front ∧ rest' = rest :=
  List.append_inj (h'.eq.symm.trans h.eq)
    (Nat.le_antisymm (h'.least _ _ h.eq h.holds) (h.least _ _ h'.eq h'.holds))

/-- What is found is at the earliest place. -/
lemma exists_earliest (h : leftmost pattern t = some a) :
    ∃ front rest, Earliest (fun r => (pattern r).isSome) t front rest ∧ pattern rest = some a := by
  have hsome {r : Text} (hr : pattern r = some a) : (pattern r).isSome := by
    rw [hr, Option.isSome_some]
  induction t with
  | nil => exact ⟨[], [], ⟨rfl, hsome h, fun _ _ _ _ => Nat.zero_le _⟩, h⟩
  | cons c t ih =>
    rw [leftmost] at h
    split at h
    case h_1 b hb =>
      cases h
      exact ⟨[], c :: t, ⟨rfl, hsome hb, fun _ _ _ _ => Nat.zero_le _⟩, hb⟩
    case h_2 hnone =>
      obtain ⟨front, rest, ⟨e, hholds, hleast⟩, hfound⟩ := ih h
      refine ⟨c :: front, rest, ⟨congrArg (c :: ·) e, hholds, fun front' rest' e' hr => ?_⟩, hfound⟩
      cases front' with
      | nil =>
        obtain rfl : c :: t = rest' := e'
        rw [hnone] at hr
        cases hr
      | cons d front' => exact Nat.succ_le_succ (hleast front' rest' (List.cons.inj e').2 hr)

/-- A pattern that succeeds somewhere is found. -/
lemma isSome_leftmost {front rest : Text} (h : (pattern rest).isSome) :
    (leftmost pattern (front ++ rest)).isSome := by
  induction front with
  | nil =>
    obtain ⟨a, ha⟩ := Option.isSome_iff_exists.1 h
    cases rest with
    | nil => exact h
    | cons c t => rw [List.nil_append, leftmost, ha, Option.isSome_some]
  | cons c front ih =>
    rw [List.cons_append, leftmost]
    split
    · rfl
    · exact ih

/-- A pattern is found just if it begins somewhere. -/
lemma isSome_leftmost_iff :
    (leftmost pattern t).isSome ↔ ∃ front rest, t = front ++ rest ∧ (pattern rest).isSome := by
  constructor
  · intro h
    obtain ⟨a, ha⟩ := Option.isSome_iff_exists.1 h
    obtain ⟨front, rest, hfirst, -⟩ := exists_earliest ha
    exact ⟨front, rest, hfirst.eq, hfirst.holds⟩
  · rintro ⟨front, rest, rfl, h⟩
    exact isSome_leftmost h

/-- A pattern that succeeds at no place finds nothing. -/
lemma leftmost_eq_none (h : ∀ s, s <:+ t → pattern s = none) : leftmost pattern t = none := by
  rw [← Option.not_isSome_iff_eq_none, isSome_leftmost_iff]
  rintro ⟨front, rest, rfl, hrest⟩
  rw [h rest (List.suffix_append front rest)] at hrest
  cases hrest

/-- The leftmost search finds what the pattern finds at the earliest place. -/
lemma leftmost_eq_some_iff :
    leftmost pattern t = some a ↔
      ∃ front rest, Earliest (fun r => (pattern r).isSome) t front rest ∧ pattern rest = some a := by
  refine ⟨exists_earliest, fun ⟨front, rest, hfirst, hfound⟩ => ?_⟩
  obtain ⟨b, hb⟩ := Option.isSome_iff_exists.1
    (isSome_leftmost_iff.2 ⟨front, rest, hfirst.eq, hfirst.holds⟩)
  obtain ⟨front', rest', hfirst', hfound'⟩ := exists_earliest hb
  obtain ⟨-, rfl⟩ := hfirst.unique hfirst'
  rw [hb, Option.some.inj (hfound'.symm.trans hfound)]

end Leftmost

section Longest
variable {p : Char → Bool} {next : Text → Option α} {t run : Text} {a : α}

/-- The text begins with a run of characters in `p`, behind which `next` succeeds on `rest`. -/
structure RunBefore (p : Char → Bool) (next : Text → Option α) (t run rest : Text) : Prop where
  eq : t = run ++ rest
  ne_nil : run ≠ []
  all : ∀ c ∈ run, p c = true
  next : (next rest).isSome

/-- A run is a single character, or goes on behind its first character. -/
lemma RunBefore.cons_iff {c : Char} {rest : Text} :
    RunBefore p next (c :: t) run rest ↔ p c = true ∧
      (run = [c] ∧ rest = t ∧ (next t).isSome ∨ ∃ run', run = c :: run' ∧
        RunBefore p next t run' rest) := by
  constructor
  · rintro ⟨e, hne, hall, hnext⟩
    obtain ⟨d, run', rfl⟩ := List.exists_cons_of_ne_nil hne
    obtain ⟨rfl, rfl⟩ := List.cons.inj e
    obtain ⟨hc, hall⟩ := List.forall_mem_cons.1 hall
    refine ⟨hc, ?_⟩
    by_cases hnil : run' = []
    · subst hnil
      exact .inl ⟨rfl, rfl, hnext⟩
    · exact .inr ⟨run', rfl, rfl, hnil, hall, hnext⟩
  · rintro ⟨hc, ⟨rfl, rfl, hnext⟩ | ⟨run', rfl, h⟩⟩
    · exact ⟨rfl, List.cons_ne_nil _ _, List.forall_mem_singleton.2 hc, hnext⟩
    · exact ⟨congrArg (c :: ·) h.eq, List.cons_ne_nil _ _, List.forall_mem_cons.2 ⟨hc, h.all⟩,
        h.next⟩

/-- A run is found if there is one. -/
lemma RunBefore.isSome_longest {rest : Text} (h : RunBefore p next t run rest) :
    (longest p next t).isSome := by
  induction t generalizing run with
  | nil => exact absurd (List.append_eq_nil_iff.1 h.eq.symm).1 h.ne_nil
  | cons c t ih =>
    obtain ⟨hc, h⟩ := RunBefore.cons_iff.1 h
    rw [longest, if_pos hc]
    split
    · rfl
    case h_2 hnone =>
      rcases h with ⟨-, -, hnext⟩ | ⟨run', -, h⟩
      · rw [Option.isSome_map]
        exact hnext
      · have hsome := ih h
        rw [hnone] at hsome
        cases hsome

/-- What is found is behind a run, and no run is longer. -/
lemma exists_runBefore (h : longest p next t = some (run, a)) :
    ∃ rest, RunBefore p next t run rest ∧ next rest = some a ∧
      ∀ run' rest', RunBefore p next t run' rest' → run'.length ≤ run.length := by
  induction t generalizing run a with
  | nil => cases h
  | cons c t ih =>
    rw [longest] at h
    split at h
    case isFalse => cases h
    case isTrue hc =>
      split at h
      case h_1 run₀ a₀ hlongest =>
        -- The run goes on.
        cases h
        obtain ⟨rest, hrun, hnext, hgreatest⟩ := ih hlongest
        refine ⟨rest, RunBefore.cons_iff.2 ⟨hc, .inr ⟨run₀, rfl, hrun⟩⟩, hnext, ?_⟩
        intro run' rest' hrun'
        rcases (RunBefore.cons_iff.1 hrun').2 with ⟨rfl, -⟩ | ⟨run₁, rfl, hrun₁⟩
        · exact Nat.succ_le_succ (Nat.zero_le _)
        · exact Nat.succ_le_succ (hgreatest run₁ rest' hrun₁)
      case h_2 hnone =>
        -- The run ends here, as there is none in what follows.
        obtain ⟨b, hb, e⟩ := Option.map_eq_some_iff.1 h
        cases e
        have hsome : (next t).isSome := by rw [hb, Option.isSome_some]
        refine ⟨t, RunBefore.cons_iff.2 ⟨hc, .inl ⟨rfl, rfl, hsome⟩⟩, hb, ?_⟩
        intro run' rest' hrun'
        rcases (RunBefore.cons_iff.1 hrun').2 with ⟨rfl, -⟩ | ⟨run₁, -, hrun₁⟩
        · exact Nat.le_refl _
        · have hlonger := hrun₁.isSome_longest
          rw [hnone] at hlonger
          cases hlonger

/-- The longest run is found, with what the next pattern finds behind it. -/
lemma longest_eq_some_iff :
    longest p next t = some (run, a) ↔ ∃ rest, RunBefore p next t run rest ∧ next rest = some a ∧
      ∀ run' rest', RunBefore p next t run' rest' → run'.length ≤ run.length := by
  refine ⟨exists_runBefore, fun ⟨rest, hrun, hnext, hgreatest⟩ => ?_⟩
  obtain ⟨⟨run', b⟩, hb⟩ := Option.isSome_iff_exists.1 hrun.isSome_longest
  obtain ⟨rest', hrun', hnext', hgreatest'⟩ := exists_runBefore hb
  have hlength := Nat.le_antisymm (hgreatest' _ _ hrun) (hgreatest _ _ hrun')
  obtain ⟨rfl, rfl⟩ := List.append_inj (hrun.eq.symm.trans hrun'.eq) hlength
  rw [hb, Option.some.inj (hnext.symm.trans hnext')]

/-- A run is found just if there is one that what follows can go on from. -/
lemma isSome_longest_iff :
    (longest p next t).isSome ↔ ∃ run rest, RunBefore p next t run rest := by
  constructor
  · intro h
    obtain ⟨⟨run, a⟩, ha⟩ := Option.isSome_iff_exists.1 h
    obtain ⟨rest, hrun, -⟩ := exists_runBefore ha
    exact ⟨run, rest, hrun⟩
  · rintro ⟨run, rest, hrun⟩
    exact hrun.isSome_longest

end Longest

section Year

/-- Four digits. -/
structure IsYear (digits : Text) : Prop where
  length : digits.length = 4
  digit : ∀ c ∈ digits, c.isDigit = true

/-- A year is the number that four digits stand for. -/
lemma year?_eq_some_iff {t rest : Text} {year : Nat} :
    year? t = some (year, rest) ↔ ∃ digits, IsYear digits ∧ t = digits ++ rest ∧
      year = Nat.ofDigitChars 10 digits 0 := by
  constructor
  · intro h
    unfold year? at h
    split at h
    case h_1 a b c d t =>
      split at h
      case isTrue hdigits =>
        cases h
        simp only [Bool.and_eq_true] at hdigits
        exact ⟨[a, b, c, d], ⟨rfl, by simp [hdigits]⟩, rfl, rfl⟩
      case isFalse => cases h
    case h_2 => cases h
  · rintro ⟨digits, ⟨hlength, hdigit⟩, rfl, rfl⟩
    obtain ⟨a, b, c, d, rfl⟩ := List.length_eq_four.1 hlength
    simp only [List.forall_mem_cons] at hdigit
    simp [year?, hdigit]

/-- Four digits stand for a number of at most four digits. -/
lemma IsYear.lt {digits : Text} (h : IsYear digits) : Nat.ofDigitChars 10 digits 0 < 10000 := by
  obtain ⟨a, b, c, d, rfl⟩ := List.length_eq_four.1 h.length
  have hdigit := h.digit
  simp only [List.forall_mem_cons, Char.isDigit_iff_toNat] at hdigit
  have hzero : '0'.toNat = 48 := rfl
  have hnine : '9'.toNat = 57 := rfl
  simp only [Nat.ofDigitChars_cons, Nat.ofDigitChars_nil]
  omega

end Year

end SpdxHeaders.Attribution
