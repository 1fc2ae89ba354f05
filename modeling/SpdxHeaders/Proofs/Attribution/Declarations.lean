import SpdxHeaders.Proofs.Attribution.Decision

/-!
# Declared licenses

The texts that declare a license are looked for as they are, whatever follows them, and one of them
begins another. So a declaration that begins with the name of a license and its version means the
license for later versions if it begins with the identifier of that license, and the license for
this version only if not (`meaning_of_declaration`), however it goes on (`declaration_cut_short`).
-/

namespace SpdxHeaders.Attribution

/-- What a declaration stands behind. -/
def licenseLead : Text :=
  "@license "

/-- What the declarations of a license for one version and for later versions begin with. -/
def versionName : Text :=
  "AGPL-3.0"

/-- The identifier of the license for one version. -/
def onlyIdentifier : Text :=
  "AGPL-3.0-only"

/-- The identifier of the license for later versions too. -/
def laterIdentifier : Text :=
  "AGPL-3.0-or-later"

/-- The rule for the license for one version. -/
def onlyRule : Rule :=
  .license (licenseLead ++ versionName) onlyIdentifier

/-- The rule for the license for later versions. -/
def laterRule : Rule :=
  .license (licenseLead ++ laterIdentifier) laterIdentifier

/-- The rule for the license for later versions by its name in words. -/
def laterWordsRule : Rule :=
  .license (licenseLead ++ "GNU AGPL version 3 or any later version".toList) laterIdentifier

/-- Identifiers are made of letters, digits and a few signs. -/
def isIdentifierChar (c : Char) : Bool :=
  c.isAlphanum || c == '.' || c == '+' || c == '-'

/-- The rule looks for copyright statements, years or authors. -/
def Rule.isAttribution : Rule → Bool
  | .copyright .. | .yearOnly _ | .author _ => true
  | .license .. | .boilerplate _ => false

/-- The only lead of the line stands behind `front` and in front of `rest`, and no rule for a
copyright or an author fits the line. -/
structure DeclaredBehind (line front rest : Text) : Prop where
  once : Text.OccursOnce licenseLead line front rest
  unattributed : ∀ r ∈ rules, r.isAttribution = true → ¬ r.Fits line

variable {line front rest word : Text}

/-- The rules in front of the two licenses. -/
lemma earlierRules_license : laterRule ∈ rules ∧ onlyRule ∈ rules ∧
    (∀ r ∈ earlierRules laterRule, r ∈ rules ∧ r.isAttribution = true) ∧
      ∀ r ∈ earlierRules onlyRule, r ∈ rules ∧
        (r.isAttribution = true ∨ r = laterRule ∨ r = laterWordsRule) := by
  decide +kernel

/-- A text begins with a word just if its first run of characters does, if those of the word
belong to runs. -/
lemma isPrefix_takeWhile_iff {p : Char → Bool} (hword : ∀ c ∈ word, p c = true) :
    word <+: rest.takeWhile p ↔ word <+: rest := by
  constructor
  · exact fun h => h.trans (List.takeWhile_prefix p)
  · rintro ⟨tail, rfl⟩
    rw [List.takeWhile_append_of_pos hword]
    exact List.prefix_append _ _

/-- The lead occurs with a word behind it just if the declaration begins with the word. -/
lemma DeclaredBehind.isInfix_iff (h : DeclaredBehind line front rest) :
    licenseLead ++ word <:+: line ↔ word <+: rest := by
  constructor
  · rintro ⟨front', rest', heq⟩
    have hparts : line = front' ++ licenseLead ++ (word ++ rest') := by
      rw [← heq]
      simp only [List.append_assoc]
    obtain ⟨-, rfl⟩ := h.once.eq_parts hparts
    exact List.prefix_append _ _
  · rintro ⟨tail, rfl⟩
    refine ⟨front, tail, ?_⟩
    rw [h.once.eq]
    simp only [List.append_assoc]

/-- A declaration that begins with the identifier for later versions is decided by its rule. -/
lemma DeclaredBehind.decides_later (h : DeclaredBehind line front rest)
    (hlater : laterIdentifier <+: rest) : Decides line laterRule where
  mem := earlierRules_license.1
  fits := h.isInfix_iff.2 hlater
  first r hr :=
    have ⟨hmem, hattribution⟩ := earlierRules_license.2.2.1 r hr
    h.unattributed r hmem hattribution

/-- A declaration that begins with the version, but not with the identifier for later versions, is
decided by the rule for one version. -/
lemma DeclaredBehind.decides_only (h : DeclaredBehind line front rest)
    (hversion : versionName <+: rest) (hlater : ¬ laterIdentifier <+: rest) :
    Decides line onlyRule := by
  obtain ⟨-, hmem, -, hearlier⟩ := earlierRules_license
  refine ⟨hmem, h.isInfix_iff.2 hversion, fun r hr hfits => ?_⟩
  obtain ⟨hr, hattribution | rfl | rfl⟩ := hearlier r hr
  · exact h.unattributed r hr hattribution hfits
  · exact hlater (h.isInfix_iff.1 hfits)
  · -- A declaration does not begin with the name in words and with the version.
    rcases List.prefix_or_prefix_of_prefix hversion (h.isInfix_iff.1 hfits) with hp | hp
    · exact absurd hp (by decide)
    · exact absurd hp (by decide)

/-- Let a declaration be the run of letters, digits, dots, pluses and hyphens, and whatever else is
taken for a letter or a digit, behind the only lead of a line. If it begins with the version, the
line means the license for later versions just if the declaration begins with that identifier, and
else the license for this version only. -/
theorem meaning_of_declaration {isPart : Char → Bool}
    (hpart : ∀ c, isIdentifierChar c = true → isPart c = true)
    (h : DeclaredBehind line front rest) (hversion : versionName <+: rest.takeWhile isPart) :
    meaning line = .ok (.license
      (if laterIdentifier <+: rest.takeWhile isPart then laterIdentifier else onlyIdentifier)) := by
  have hchars : ∀ c ∈ laterIdentifier, isIdentifierChar c = true :=
    List.all_eq_true.1 (by decide)
  have hlater : laterIdentifier <+: rest.takeWhile isPart ↔ laterIdentifier <+: rest :=
    isPrefix_takeWhile_iff fun c hc => hpart c (hchars c hc)
  split
  case isTrue hprefix =>
    have hdecides := h.decides_later (hlater.1 hprefix)
    exact hdecides.meaning_eq_ok (.license hdecides.fits)
  case isFalse hprefix =>
    have hdecides := h.decides_only (hversion.trans (List.takeWhile_prefix isPart))
      (mt hlater.2 hprefix)
    exact hdecides.meaning_eq_ok (.license hdecides.fits)

/-- A declaration of the license for later versions, with a full stop behind it. -/
theorem meaning_of_declaration_later :
    let line : Text := " * @license AGPL-3.0-or-later."
    let declaration : Text := "AGPL-3.0-or-later."
    DeclaredBehind line " * " declaration ∧ declaration.takeWhile isIdentifierChar = declaration ∧
      versionName <+: declaration ∧ laterIdentifier <+: declaration ∧
      meaning line = .ok (.license laterIdentifier) := by
  intro line declaration
  have habsent : ∀ r ∈ rules, r.isAttribution = true → Text.contains r.lead line = false := by
    decide +kernel
  have hdeclared : DeclaredBehind line " * " declaration :=
    ⟨.of_notMem (c := '@') rfl rfl (by decide) (by decide), fun r hr hattribution =>
      Rule.not_fits_of_contains (habsent r hr hattribution)⟩
  have hrun : declaration.takeWhile isIdentifierChar = declaration := by decide
  have hmeaning := meaning_of_declaration (fun _ => id) hdeclared (hrun ▸ by decide)
  rw [hrun] at hmeaning
  exact ⟨hdeclared, hrun, by decide, by decide, hmeaning⟩

/-- A declaration that is none of the three identifiers means the license for one version if it
begins with this version, although no other rule of the table fits the line. -/
theorem declaration_cut_short :
    let line : Text := "@license AGPL-3.0+"
    let declaration : Text := "AGPL-3.0+"
    DeclaredBehind line "" declaration ∧ declaration.takeWhile isIdentifierChar = declaration ∧
      versionName <+: declaration ∧
      declaration ∉ [versionName, onlyIdentifier, laterIdentifier] ∧
      (∀ r ∈ rules, r.Fits line → r = onlyRule) ∧
      meaning line = .ok (.license onlyIdentifier) := by
  intro line declaration
  have habsent : ∀ r ∈ rules, r = onlyRule ∨ Text.contains r.lead line = false := by
    simp only [rules, licenseRules, boilerplateRules, List.cons_append, List.nil_append,
      List.forall_mem_cons, Rule.lead, List.not_mem_nil, false_implies, implies_true, and_true]
    and_intros <;> first | exact .inr (Text.contains_ofList (by decide)) | exact .inl rfl
  have honly : ∀ r ∈ rules, r.Fits line → r = onlyRule := by
    intro r hr hfits
    rcases habsent r hr with heq | hcontains
    · exact heq
    · exact absurd hfits (Rule.not_fits_of_contains hcontains)
  have hdeclared : DeclaredBehind line "" declaration := by
    refine ⟨.of_notMem (c := '@') rfl rfl (by decide) (by decide), fun r hr hattribution hfits => ?_⟩
    rw [honly r hr hfits] at hattribution
    cases hattribution
  have hdecides : Decides line onlyRule := hdeclared.decides_only (by decide) (by decide)
  exact ⟨hdeclared, by decide, by decide, by decide, honly,
    hdecides.meaning_eq_ok (.license hdecides.fits)⟩

end SpdxHeaders.Attribution
