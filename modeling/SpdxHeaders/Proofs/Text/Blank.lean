import Mathlib.Data.List.DropRight
import Mathlib.Tactic.Lemma
import SpdxHeaders.Text.Blank

/-!
# Words and ends of a text

The words of a text are its runs without blanks that cannot be made longer (`mem_words_iff`). What
is left without the characters of a kind at the end of a text is the part in front of them
(`dropEndWhile_eq_iff`).
-/

namespace SpdxHeaders.Text

/-- A run of a text: characters outside `p`, with a character in `p` or an end of the text on either
side. -/
structure IsRun (p : Char → Bool) (w t : Text) : Prop where
  ne_nil : w ≠ []
  outside : ∀ c ∈ w, p c = false
  bounded : ∃ before after, t = before ++ w ++ after ∧
    (∀ c ∈ before.getLast?, p c = true) ∧ ∀ c ∈ after.head?, p c = true

/-- A word of a text: a run without blanks. -/
abbrev IsWord (w t : Text) : Prop :=
  IsRun isBlank w t

variable {p : Char → Bool} {w t run rest tail : Text} {c : Char}

/-- A character between runs is passed over. -/
lemma runsOutside_cons_of_pos (hc : p c = true) :
    runsOutside p (c :: t) = runsOutside p t :=
  if_pos hc

/-- A character of a run goes in front of the run that begins behind it, or is one. -/
lemma runsOutside_cons_of_neg (hc : p c = false) :
    runsOutside p (c :: t) =
      match t, runsOutside p t with
      | d :: _, run :: runs => if p d then [c] :: run :: runs else (c :: run) :: runs
      | _, runs => [c] :: runs :=
  if_neg (by simp [hc])

/-- The runs of a text that begins with a run. -/
lemma runsOutside_append (hne : run ≠ []) (hrun : ∀ c ∈ run, p c = false)
    (hrest : ∀ c ∈ rest.head?, p c = true) :
    runsOutside p (run ++ rest) = run :: runsOutside p rest := by
  induction run with
  | nil => exact absurd rfl hne
  | cons c run ih =>
    obtain ⟨hc, hrun⟩ := List.forall_mem_cons.1 hrun
    rw [List.cons_append, runsOutside_cons_of_neg hc]
    cases run with
    | nil =>
      rw [List.nil_append]
      cases rest with
      | nil => rfl
      | cons d rest =>
        cases hruns : runsOutside p (d :: rest) with
        | nil => rfl
        | cons r rs => exact if_pos (hrest d rfl)
    | cons d run =>
      rw [ih (List.cons_ne_nil _ _) hrun]
      exact if_neg (by simp [hrun d List.mem_cons_self])

/-- A run is what stands in front of the first character in `p`. -/
lemma takeWhile_run (hrun : ∀ c ∈ run, p c = false) (hrest : ∀ c ∈ rest.head?, p c = true) :
    (run ++ rest).takeWhile (fun c => !p c) = run := by
  rw [List.takeWhile_append_of_pos (by simpa using hrun)]
  cases rest with
  | nil => exact List.append_nil run
  | cons d rest => rw [List.takeWhile_cons_of_neg (by simp [hrest d rfl]), List.append_nil]

/-- A character in `p` in front of a text does not matter to its runs. -/
lemma isRun_cons_iff (hc : p c = true) : IsRun p w (c :: t) ↔ IsRun p w t := by
  constructor
  · rintro ⟨hne, hw, before, after, e, hbefore, hafter⟩
    cases before with
    | nil =>
      obtain ⟨d, w, rfl⟩ := List.exists_cons_of_ne_nil hne
      obtain ⟨rfl, -⟩ := List.cons.inj e
      rw [hw c List.mem_cons_self] at hc
      cases hc
    | cons d before =>
      refine ⟨hne, hw, before, after, (List.cons.inj e).2, fun b hb => hbefore b ?_, hafter⟩
      show b ∈ ([d] ++ before).getLast?
      exact List.mem_getLast?_append_of_mem_getLast? hb
  · rintro ⟨hne, hw, before, after, rfl, hbefore, hafter⟩
    refine ⟨hne, hw, c :: before, after, rfl, fun b hb => ?_, hafter⟩
    cases before with
    | nil =>
      obtain rfl : c = b := by simpa using hb
      exact hc
    | cons d before => exact hbefore b (by simpa using hb)

/-- The runs of a text that begins with a run are this run and those of the rest. -/
lemma isRun_append_iff (hne : run ≠ []) (hrun : ∀ c ∈ run, p c = false)
    (hrest : ∀ c ∈ rest.head?, p c = true) :
    IsRun p w (run ++ rest) ↔ w = run ∨ IsRun p w rest := by
  constructor
  · rintro ⟨hwne, hw, before, after, e, hbefore, hafter⟩
    by_cases hnil : before = []
    · subst hnil
      left
      rw [← takeWhile_run hw hafter, ← takeWhile_run hrun hrest, e, List.nil_append]
    · right
      rw [List.append_assoc] at e
      rcases List.append_eq_append_iff.1 e with ⟨x, rfl, rfl⟩ | ⟨x, rfl, -⟩
      · refine ⟨hwne, hw, x, after, (List.append_assoc ..).symm, fun b hb => hbefore b ?_, hafter⟩
        exact List.mem_getLast?_append_of_mem_getLast? hb
      · -- The last character in front of the word would be in the run.
        have hlast := List.getLast_mem hnil
        have hin := hrun _ (List.mem_append_left x hlast)
        rw [hbefore _ (List.getLast?_eq_some_getLast hnil)] at hin
        cases hin
  · rintro (rfl | ⟨hwne, hw, before, after, rfl, hbefore, hafter⟩)
    · exact ⟨hne, hrun, [], rest, rfl, nofun, hrest⟩
    · refine ⟨hwne, hw, run ++ before, after, by simp only [List.append_assoc], ?_, hafter⟩
      cases before with
      | nil =>
        obtain ⟨d, w, rfl⟩ := List.exists_cons_of_ne_nil hwne
        have hd := hrest d rfl
        rw [hw d List.mem_cons_self] at hd
        cases hd
      | cons d before => simpa [List.getLast?_append] using hbefore

/-- A text that begins with a character outside `p` begins with a run. -/
lemma exists_run (hc : p c = false) (t : Text) :
    ∃ run rest, c :: t = run ++ rest ∧ run ≠ [] ∧ (∀ d ∈ run, p d = false) ∧
      ∀ d ∈ rest.head?, p d = true := by
  refine ⟨(c :: t).takeWhile (fun d => !p d), (c :: t).dropWhile (fun d => !p d),
    List.takeWhile_append_dropWhile.symm, ?_, fun d hd => ?_, fun d hd => ?_⟩
  · rw [List.takeWhile_cons_of_pos (by simp [hc])]
    exact List.cons_ne_nil _ _
  · simpa using List.mem_takeWhile_imp hd
  · have hhead := List.head?_dropWhile_not (fun d => !p d) (c :: t)
    rw [hd] at hhead
    simpa using hhead

/-- What is split off are the runs. -/
lemma mem_runsOutside_iff (t : Text) : w ∈ runsOutside p t ↔ IsRun p w t := by
  match t with
  | [] =>
    refine ⟨nofun, fun ⟨hne, _, before, after, e, _, _⟩ => absurd ?_ hne⟩
    exact (List.append_eq_nil_iff.1 (List.append_eq_nil_iff.1 e.symm).1).2
  | c :: t =>
    cases hc : p c with
    | true =>
      rw [isRun_cons_iff hc, runsOutside_cons_of_pos hc]
      exact mem_runsOutside_iff t
    | false =>
      -- The text begins with a run, and what follows it is shorter.
      obtain ⟨run, rest, e, hne, hrun, hrest⟩ := exists_run hc t
      have hlength : rest.length < (c :: t).length := by
        have := List.length_pos_of_ne_nil hne
        rw [e, List.length_append]
        omega
      rw [e, runsOutside_append hne hrun hrest, List.mem_cons, isRun_append_iff hne hrun hrest,
        mem_runsOutside_iff rest]
termination_by t.length
decreasing_by
  · exact hlength
  · exact Nat.lt_succ_self _

/-- The words of a text are its runs without blanks. -/
lemma mem_words_iff : w ∈ words t ↔ IsWord w t :=
  mem_runsOutside_iff t

/-- A tail of such characters is dropped from the end of a text that does not end in one. -/
lemma dropEndWhile_append (htail : ∀ c ∈ tail, p c = true)
    (ht : ∀ c ∈ t.getLast?, p c = false) : dropEndWhile p (t ++ tail) = t := by
  unfold dropEndWhile
  rw [List.reverse_append, List.dropWhile_append_of_pos fun c hc => htail c (List.mem_reverse.1 hc)]
  refine List.rdropWhile_eq_self_iff.2 fun hne => ?_
  simp [ht _ (List.getLast?_eq_some_getLast hne)]

/-- A text without the characters in `p` at its end is the part in front of them. -/
lemma dropEndWhile_eq_iff :
    dropEndWhile p t = run ↔
      (∃ tail, t = run ++ tail ∧ ∀ c ∈ tail, p c = true) ∧ ∀ c ∈ run.getLast?, p c = false := by
  constructor
  · rintro rfl
    refine ⟨⟨t.rtakeWhile p, List.rdropWhile_append_rtakeWhile.symm, fun c => ?_⟩, fun c hc => ?_⟩
    · exact List.mem_rtakeWhile_imp
    · obtain ⟨-, rfl⟩ := List.mem_getLast?_eq_getLast hc
      exact eq_false_of_ne_true (List.rdropWhile_last_not p t _)
  · rintro ⟨⟨tail, rfl, htail⟩, hrun⟩
    exact dropEndWhile_append htail hrun

end SpdxHeaders.Text
