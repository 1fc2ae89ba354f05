import Mathlib.Data.List.TakeWhile
import SpdxHeaders.Proofs.Attribution.Grammar

/-!
# Which rule decides a line

A rule decides a line if it fits and no rule in front of it in the table does (`Decides`). What a
line says is what the rule says that decides it, or nothing (`meaning_eq_ok_iff`), and a line is
refused only if no rule fits (`meaning_eq_error_iff`).
-/

namespace SpdxHeaders.Attribution

/-- The rules in front of a rule of the table. -/
def earlierRules (rule : Rule) : List Rule :=
  rules.takeWhile (· ≠ rule)

/-- The rule is the first of the table that fits the line. -/
structure Decides (line : Text) (rule : Rule) : Prop where
  mem : rule ∈ rules
  fits : rule.Fits line
  first : ∀ r ∈ earlierRules rule, ¬ r.Fits line

variable {line : Text} {rule : Rule} {m : LineMeaning} {e : ConversionError}

/-- A rule that says something about a line fits it. -/
lemma Rule.Says.fits (h : rule.Says line m) : rule.Fits line := by
  rw [Rule.fits_iff, Rule.meaning?_eq_some_iff.2 h]
  rfl

/-- A rule that does not fit a line gives it no meaning. -/
lemma Rule.not_fits_iff : ¬ rule.Fits line ↔ rule.meaning? line = none := by
  rw [Rule.fits_iff, Bool.not_eq_true, Option.isSome_eq_false_iff, Option.isNone_iff_eq_none]

/-- A rule fits only lines in which its text occurs. -/
lemma Rule.Fits.lead_isInfix (h : rule.Fits line) : rule.lead <:+: line := by
  cases rule with
  | copyright lead form =>
    obtain ⟨front, t, rfl, s, rest, ⟨digits, comma, -, -, rfl, -⟩, -⟩ := h
    exact ⟨front, digits ++ comma ++ " ".toList ++ rest, by simp only [Rule.lead, List.append_assoc]⟩
  | yearOnly lead =>
    obtain ⟨digits, -, hinfix⟩ := h
    exact (List.prefix_append lead digits).isInfix.trans hinfix
  | author lead =>
    obtain ⟨front, t, rfl, entry, -, hprefix⟩ := h
    exact ((List.prefix_append lead entry).trans hprefix).isInfix.trans
      (List.suffix_append front t).isInfix
  | license needle identifier => exact h
  | boilerplate needle => exact h

/-- A rule does not fit a line without its lead. -/
lemma Rule.not_fits_of_contains (h : Text.contains rule.lead line = false) : ¬ rule.Fits line := by
  intro hfits
  rw [Text.contains_iff_isInfix.2 hfits.lead_isInfix] at h
  cases h

/-- In front of a rule stand those that are tried earlier. -/
lemma exists_rules_eq (h : rule ∈ rules) :
    ∃ later, rules = earlierRules rule ++ rule :: later :=
  Text.exists_eq_takeWhile_append h

/-- If a rule fits and those in front of it do not, these are the earlier rules. -/
lemma earlierRules_eq {before later : List Rule} (hrules : rules = before ++ rule :: later)
    (hfits : rule.Fits line) (hbefore : ∀ r ∈ before, ¬ r.Fits line) :
    earlierRules rule = before := by
  have hne : ∀ r ∈ before, decide (r ≠ rule) = true := by
    intro r hr
    have : r ≠ rule := fun heq => hbefore r hr (heq ▸ hfits)
    simpa using this
  rw [earlierRules, hrules, List.takeWhile_append_of_pos hne,
    List.takeWhile_cons_of_neg (by simp), List.append_nil]

/-- The search of the table finds what the rule says that decides the line. -/
lemma findSome?_rules_eq_some_iff :
    rules.findSome? (fun rule => rule.meaning? line) = some m ↔
      ∃ rule, Decides line rule ∧ rule.Says line m := by
  rw [List.findSome?_eq_some_iff]
  constructor
  · rintro ⟨before, rule, later, hrules, hm, hbefore⟩
    have hsaid := Rule.meaning?_eq_some_iff.1 hm
    have hnot : ∀ r ∈ before, ¬ r.Fits line := fun r hr => Rule.not_fits_iff.2 (hbefore r hr)
    refine ⟨rule, ⟨?_, hsaid.fits, earlierRules_eq hrules hsaid.fits hnot ▸ hnot⟩, hsaid⟩
    rw [hrules]
    exact List.mem_append_right _ List.mem_cons_self
  · rintro ⟨rule, hdecides, hsaid⟩
    obtain ⟨later, hrules⟩ := exists_rules_eq hdecides.mem
    exact ⟨_, rule, later, hrules, Rule.meaning?_eq_some_iff.2 hsaid,
      fun r hr => Rule.not_fits_iff.1 (hdecides.first r hr)⟩

/-- No rule gives a meaning just if none fits. -/
lemma findSome?_rules_eq_none_iff :
    rules.findSome? (fun rule => rule.meaning? line) = none ↔ ∀ r ∈ rules, ¬ r.Fits line := by
  simp only [List.findSome?_eq_none_iff, Rule.not_fits_iff]

/-- A line that a rule decides says what the rule says. -/
lemma Decides.meaning_eq_ok (h : Decides line rule) (hsaid : rule.Says line m) :
    meaning line = .ok m := by
  rw [meaning, findSome?_rules_eq_some_iff.2 ⟨rule, h, hsaid⟩]

/-- A line that no rule fits is judged by what it speaks of. -/
lemma meaning_of_unfit (h : ∀ r ∈ rules, ¬ r.Fits line) : meaning line =
    if Text.contains "license" line.lowercase then .error (.unrecognizedLicense line)
    else if Text.contains "copyright" line.lowercase then .error (.unrecognizedCopyright line)
    else .ok .unrelated := by
  rw [meaning, findSome?_rules_eq_none_iff.2 h]

/-- A line is decided by a rule unless no rule fits it. -/
lemma exists_decides (h : ¬ ∀ r ∈ rules, ¬ r.Fits line) :
    ∃ rule m, Decides line rule ∧ rule.Says line m := by
  rw [← findSome?_rules_eq_none_iff, ← Ne, Option.ne_none_iff_exists'] at h
  obtain ⟨m, hm⟩ := h
  obtain ⟨rule, h⟩ := findSome?_rules_eq_some_iff.1 hm
  exact ⟨rule, m, h⟩

/-- A line is accepted if a rule decides it, or if it speaks neither of a license nor of a
copyright. -/
lemma meaning_eq_ok_iff : meaning line = .ok m ↔
    (∃ rule, Decides line rule ∧ rule.Says line m) ∨
      (∀ r ∈ rules, ¬ r.Fits line) ∧ ¬ "license".toList <:+: line.lowercase ∧
        ¬ "copyright".toList <:+: line.lowercase ∧ m = .unrelated := by
  by_cases hunfit : ∀ r ∈ rules, ¬ r.Fits line
  · have hnone : ¬ ∃ rule, Decides line rule ∧ rule.Says line m :=
      fun ⟨rule, h, _⟩ => hunfit rule h.mem h.fits
    rw [meaning_of_unfit hunfit, or_iff_right hnone, and_iff_right hunfit]
    simp only [← Text.contains_iff_isInfix]
    generalize Text.contains "license" line.lowercase = license
    generalize Text.contains "copyright" line.lowercase = copyright
    cases license <;> cases copyright <;> simp [eq_comm]
  · rw [or_iff_left fun h => hunfit h.1]
    constructor
    · intro h
      obtain ⟨rule, m', hdecides, hsaid⟩ := exists_decides hunfit
      cases h.symm.trans (hdecides.meaning_eq_ok hsaid)
      exact ⟨rule, hdecides, hsaid⟩
    · rintro ⟨rule, hdecides, hsaid⟩
      exact hdecides.meaning_eq_ok hsaid

/-- A line is refused if no rule fits it and it speaks of a license, or else of a copyright. -/
lemma meaning_eq_error_iff : meaning line = .error e ↔
    (∀ r ∈ rules, ¬ r.Fits line) ∧
      ("license".toList <:+: line.lowercase ∧ e = .unrecognizedLicense line ∨
        ¬ "license".toList <:+: line.lowercase ∧ "copyright".toList <:+: line.lowercase ∧
          e = .unrecognizedCopyright line) := by
  by_cases hunfit : ∀ r ∈ rules, ¬ r.Fits line
  · rw [meaning_of_unfit hunfit, and_iff_right hunfit]
    simp only [← Text.contains_iff_isInfix]
    generalize Text.contains "license" line.lowercase = license
    generalize Text.contains "copyright" line.lowercase = copyright
    cases license <;> cases copyright <;> simp [eq_comm]
  · obtain ⟨rule, m, hdecides, hsaid⟩ := exists_decides hunfit
    rw [hdecides.meaning_eq_ok hsaid]
    exact ⟨nofun, fun h => absurd h.1 hunfit⟩

end SpdxHeaders.Attribution
