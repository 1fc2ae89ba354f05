import SpdxHeaders.Proofs.Attribution.Conservation
import SpdxHeaders.Proofs.Text.Lowercase
import SpdxHeaders.Proofs.Text.Occurrence

/-!
# Holders that are kept

A holder is kept if the needle of the texts to keep occurs in it, both in lower case. Where the
texts stand in the holder as they are spelled, the needle is met there just if the capital sigmas of
the texts end words in the holder where they do in the texts (`kept_of_occurrence`): a sigma that
ends the texts but no word of the holder has another lower case form there (`occurrence_missed`).
-/

namespace SpdxHeaders.Attribution

variable {keep : List Text} {before after header defaultHolder : Text} {a : Attribution}
  {ms : List LineMeaning} {s : Statement}

/-- A holder is preserved just if the joined list occurs in it, both in lower case. -/
lemma isPreserved_iff {holder : Text} (hkeep : keep ≠ []) :
    Preservation.isPreserved keep holder = true ↔
      (Text.join "," keep).lowercase <:+: holder.lowercase := by
  unfold Preservation.isPreserved Preservation.needle?
  cases keep with
  | nil => exact absurd rfl hkeep
  | cons text texts => exact Text.contains_iff_isInfix

/-- What stands in lower case at the place of a part of a text, and when that is the part in lower
case. -/
lemma exists_place (before t after : Text) :
    ∃ front place back, (before ++ t ++ after).lowercase = front ++ place ++ back ∧
      front.length = before.lowercase.length ∧ place.length = t.lowercase.length ∧
      (place = t.lowercase ↔ Text.KeepsWordEnds before t after) := by
  refine ⟨_, _, _, Text.lowercase_append_append before t after, ?_, ?_,
    Text.lowerWithin_eq_lowercase_iff⟩
  · rw [← Text.lowerWithin_nil before]
    exact Text.length_lowerWithin ..
  · rw [← Text.lowerWithin_nil t]
    exact Text.length_lowerWithin ..

/-- A holder with the joined list is preserved if the capital sigmas of the list end words in the
holder just where they do in the list. -/
lemma isPreserved_of_keepsWordEnds (hkeep : keep ≠ [])
    (h : Text.KeepsWordEnds before (Text.join "," keep) after) :
    Preservation.isPreserved keep (before ++ Text.join "," keep ++ after) = true := by
  obtain ⟨front, place, back, hlower, -, -, hplace⟩ := exists_place before (Text.join "," keep) after
  rw [isPreserved_iff hkeep, hlower, hplace.2 h]
  exact List.infix_append front _ back

/-- The statement of a holder that is kept has a tag line of its own, and its year does not
count. -/
lemma Conserves.kept (h : a.Conserves keep ms) (hs : s ∈ statements ms)
    (hkept : Preservation.isPreserved keep s.holder = true) :
    s.tagLine ∈ a.tagLines defaultHolder ∧ s ∉ sharedStatements keep ms := by
  have hline := h.represented defaultHolder hs
  rw [if_pos hkept] at hline
  refine ⟨?_, fun hshared => ?_⟩
  · rw [tagLines_eq]
    exact List.mem_append_left _ hline
  · have hnot := (List.mem_filter.1 hshared).2
    rw [hkept] at hnot
    cases hnot

/-- Where the texts to keep, joined with commas, stand in a holder, the holder in lower case has
their lower case form at that place just if each of their capital sigmas ends a word of the holder
where it ends one of theirs, and no other does; a list without capital sigma has it in any case.
Then the holder is kept: its statements have tag lines of their own, and their years do not count
for the oldest year. -/
theorem kept_of_occurrence (hkeep : keep ≠ []) {holder : Text}
    (hholder : holder = before ++ Text.join "," keep ++ after) :
    let list := Text.join "," keep
    (∃ front place back, holder.lowercase = front ++ place ++ back ∧
      front.length = before.lowercase.length ∧ place.length = list.lowercase.length ∧
      (place = list.lowercase ↔ Text.KeepsWordEnds before list after)) ∧
    ('Σ' ∉ list → Text.KeepsWordEnds before list after) ∧
    (Text.KeepsWordEnds before list after →
      Preservation.isPreserved keep holder = true ∧
      ∀ header a defaultHolder, parse keep header = .ok a →
        ∃ ms, header.lines.mapM meaning = .ok ms ∧
          a.minYear = ((sharedStatements keep ms).map Statement.year).min? ∧
          ∀ s ∈ statements ms, s.holder = holder →
            s.tagLine ∈ a.tagLines defaultHolder ∧ s ∉ sharedStatements keep ms) := by
  intro list
  subst hholder
  refine ⟨exists_place before list after, Text.keepsWordEnds_of_notMem, fun hends => ?_⟩
  have hkept := isPreserved_of_keepsWordEnds hkeep hends
  refine ⟨hkept, fun header a defaultHolder hparse => ?_⟩
  obtain ⟨ms, hms, ha⟩ := parse_eq_ok_iff.1 hparse
  refine ⟨ms, hms, ha.minYear, fun s hs hsholder => ha.kept hs ?_⟩
  rw [hsholder]
  exact hkept

/-- A sigma at the end of a word of the holder, as it is in the list. -/
theorem kept_of_occurrence_sigma :
    let holder : Text := "ΑΣ ΑΕ"
    let header : Text :=
      "@copyright 2012 ΑΣ ΑΕ <i>\n@copyright 2017 Jo <j>\n@license AGPL-3.0"
    let a : Attribution :=
      ⟨["ΑΣ ΑΕ <i>", "Jo <j>"], some 2017, ["SPDX-FileCopyrightText: 2012 ΑΣ ΑΕ <i>"],
        "AGPL-3.0-only"⟩
    (["ΑΣ".toList] ≠ [] ∧ holder = [] ++ Text.join "," ["ΑΣ"] ++ " ΑΕ".toList ∧
        Text.KeepsWordEnds [] (Text.join "," ["ΑΣ"]) " ΑΕ") ∧
      Preservation.isPreserved ["ΑΣ"] holder = true ∧
      parse ["ΑΣ"] header = .ok a ∧
      ∃ ms, header.lines.mapM meaning = .ok ms ∧
        a.minYear = ((sharedStatements ["ΑΣ"] ms).map Statement.year).min? ∧
        ∀ s ∈ statements ms, s.holder = holder →
          s.tagLine ∈ a.tagLines "Acme" ∧ s ∉ sharedStatements ["ΑΣ"] ms := by
  intro holder header a
  have hkeep : ["ΑΣ".toList] ≠ [] := List.cons_ne_nil _ _
  have hholder : holder = [] ++ Text.join "," ["ΑΣ"] ++ " ΑΕ".toList := by decide
  have hends : Text.KeepsWordEnds [] (Text.join "," ["ΑΣ"]) " ΑΕ".toList :=
    Text.lowerWithin_eq_lowercase_iff.1 (by decide +kernel)
  have hparse : parse ["ΑΣ"] header = .ok a := by decide +kernel
  obtain ⟨hkept, hread⟩ := (kept_of_occurrence hkeep hholder).2.2 hends
  exact ⟨⟨hkeep, hholder, hends⟩, hkept, hparse, hread header a "Acme" hparse⟩

/-- The list stands in the holder as it is spelled, but its sigma ends no word there, so that the
holder is not kept. -/
theorem occurrence_missed :
    ["ΑΣ".toList] ≠ [] ∧ Text.join "," ["ΑΣ"] <:+: "ΑΣΑ".toList ∧
      Preservation.isPreserved ["ΑΣ"] "ΑΣΑ" = false ∧
      (parse ["ΑΣ"] "@copyright 2012 ΑΣΑ <i>\n@license AGPL-3.0").map (·.tagLines "Acme")
        = .ok ["SPDX-FileCopyrightText: 2012 Acme", "SPDX-License-Identifier: AGPL-3.0-only"] := by
  refine ⟨List.cons_ne_nil _ _, ⟨[], ['Α'], by decide⟩, by decide +kernel, by decide +kernel⟩

end SpdxHeaders.Attribution
