import SpdxHeaders.Proofs.Attribution.Conservation
import SpdxHeaders.Proofs.Attribution.Decision
import SpdxHeaders.Proofs.Rewriting.Change

/-!
# What is refused

Reading a header fails closed: it fails at the first line that is refused, even if another line has
declared a license, and if no line is refused it fails unless one has (`parse_eq_error_iff`). So a
header that is replaced was understood: every line of it that speaks of a license or of a copyright
fits a rule, and the license that is written is one that a line of it declares (`fails_closed`).
-/

namespace SpdxHeaders

namespace Attribution

/-- A line is refused, and all lines in front of it are accepted. -/
def FirstRefused (lines : List Text) (line : Text) (e : ConversionError) : Prop :=
  ∃ before after, lines = before ++ line :: after ∧ (∀ l ∈ before, ∃ m, meaning l = .ok m) ∧
    meaning line = .error e

/-- No line declares a license. -/
def Unlicensed (lines : List Text) : Prop :=
  ∀ line ∈ lines, ∀ identifier, meaning line ≠ .ok (.license identifier)

/-- Lines that speak of a license or of a copyright fit a rule of the table, which says what they
mean. -/
def Understood (lines : List Text) : Prop :=
  ∀ line ∈ lines, "license".toList <:+: line.lowercase ∨ "copyright".toList <:+: line.lowercase →
    ∃ rule ∈ rules, ∃ m, rule.Says line m ∧ meaning line = .ok m

/-- A line declares the license by the text of a rule of the table. -/
def Declares (line identifier : Text) : Prop :=
  ∃ needle, Rule.license needle identifier ∈ rules ∧ needle <:+: line

variable {keep : List Text} {header line identifier : Text} {lines : List Text} {m : LineMeaning}
  {e : ConversionError}

/-- A line that is refused is named by the error as a whole. -/
lemma eq_of_meaning_eq_error (h : meaning line = .error e) :
    e = .unrecognizedLicense line ∨ e = .unrecognizedCopyright line := by
  obtain ⟨-, ⟨-, he⟩ | ⟨-, -, he⟩⟩ := meaning_eq_error_iff.1 h
  · exact .inl he
  · exact .inr he

/-- A line that speaks of a license or of a copyright is accepted only if a rule fits it. -/
lemma exists_says_of_meaning (h : meaning line = .ok m)
    (hspeaks : "license".toList <:+: line.lowercase ∨ "copyright".toList <:+: line.lowercase) :
    ∃ rule ∈ rules, rule.Says line m := by
  obtain ⟨rule, hdecides, hsaid⟩ | ⟨-, hlicense, hcopyright, -⟩ := meaning_eq_ok_iff.1 h
  · exact ⟨rule, hdecides.mem, hsaid⟩
  · exact absurd hspeaks (not_or.2 ⟨hlicense, hcopyright⟩)

/-- A line means a license only if it declares it. -/
lemma declares_of_meaning (h : meaning line = .ok (.license identifier)) :
    Declares line identifier := by
  obtain ⟨rule, hdecides, hsaid⟩ | ⟨-, -, -, hm⟩ := meaning_eq_ok_iff.1 h
  · cases hsaid with
    | license hneedle => exact ⟨_, hdecides.mem, hneedle⟩
  · cases hm

/-- Of lines that are not all accepted, one is the first that is refused. -/
lemma exists_firstRefused_iff :
    (∃ e line, FirstRefused lines line e) ↔ ∃ line ∈ lines, ∃ e, meaning line = .error e := by
  constructor
  · rintro ⟨e, line, before, after, rfl, -, he⟩
    exact ⟨line, List.mem_append_right _ List.mem_cons_self, e, he⟩
  · rintro ⟨line, hline, e, he⟩
    cases hall : lines.mapM meaning with
    | error e' =>
      obtain ⟨before, line', after, h⟩ := mapM_eq_error_iff.1 hall
      exact ⟨e', line', before, after, h⟩
    | ok ms =>
      obtain ⟨m, -, hm⟩ := exists_of_mapM hall hline
      cases hm.symm.trans he

/-- What accepted lines mean holds no license just if none of them declares one. -/
lemma unlicensed_iff {ms : List LineMeaning} (h : lines.mapM meaning = .ok ms) :
    Unlicensed lines ↔ ms.findSome? LineMeaning.license? = none := by
  rw [List.findSome?_eq_none_iff]
  constructor
  · intro hnone m hm
    obtain ⟨line, hline, heq⟩ := exists_of_mem_mapM h hm
    cases m with
    | license identifier => exact absurd heq (hnone line hline identifier)
    | _ => rfl
  · intro hnone line hline identifier heq
    obtain ⟨m, hm, hmeaning⟩ := exists_of_mapM h hline
    cases hmeaning.symm.trans heq
    cases hnone _ hm

/-- Reading a header fails at the first line that is refused, or because no line declares a
license. -/
lemma parse_eq_error_iff : parse keep header = .error e ↔
    (∃ line, FirstRefused header.lines line e) ∨
      (∀ line ∈ header.lines, ∃ m, meaning line = .ok m) ∧ Unlicensed header.lines ∧
        e = .noLicense := by
  unfold parse
  rw [foldlM_meaning, bind_eq_error_iff, map_eq_error_iff, mapM_eq_error_iff]
  constructor
  · rintro (⟨before, line, after, h⟩ | ⟨d, hd, hfinish⟩)
    · exact .inl ⟨line, before, after, h⟩
    · -- All lines were taken in, so only the missing license is left as the cause.
      obtain ⟨ms, hms, rfl⟩ := map_eq_ok_iff.1 hd
      unfold Draft.finish at hfinish
      split at hfinish
      case h_1 => cases hfinish
      case h_2 hlicense =>
        cases hfinish
        rw [(Draft.holds_foldl keep ms).license] at hlicense
        refine .inr ⟨fun line hline => ?_, (unlicensed_iff hms).2 hlicense, rfl⟩
        obtain ⟨m, -, hm⟩ := exists_of_mapM hms hline
        exact ⟨m, hm⟩
  · rintro (⟨line, before, after, h⟩ | ⟨haccepted, hunlicensed, rfl⟩)
    · exact .inl ⟨before, line, after, h⟩
    · right
      cases hall : header.lines.mapM meaning with
      | error e =>
        obtain ⟨before, line, after, hlines, -, he⟩ := mapM_eq_error_iff.1 hall
        obtain ⟨m, hm⟩ := haccepted line (hlines ▸ List.mem_append_right _ List.mem_cons_self)
        cases hm.symm.trans he
      | ok ms =>
        refine ⟨_, rfl, ?_⟩
        unfold Draft.finish
        rw [(Draft.holds_foldl keep ms).license, (unlicensed_iff hall).1 hunlicensed]

/-- A header fails just if a line of it is refused or no line gives a license. -/
lemma exists_parse_eq_error_iff : (∃ e, parse keep header = .error e) ↔
    (∃ line ∈ header.lines, ∃ e, meaning line = .error e) ∨ Unlicensed header.lines := by
  simp only [parse_eq_error_iff, exists_or, exists_firstRefused_iff]
  constructor
  · rintro (h | ⟨-, -, hunlicensed, -⟩)
    · exact .inl h
    · exact .inr hunlicensed
  · rintro (h | hunlicensed)
    · exact .inl h
    · -- Lines without a license may still be refused before that is found out.
      by_cases hrefused : ∃ line ∈ header.lines, ∃ e, meaning line = .error e
      · exact .inl hrefused
      · refine .inr ⟨_, fun line hline => ?_, hunlicensed, rfl⟩
        cases hm : meaning line with
        | error e => exact absurd ⟨line, hline, e, hm⟩ hrefused
        | ok m => exact ⟨m, rfl⟩

/-- The lines of a header that was read are all understood. -/
lemma understood_of_parse {a : Attribution} (h : parse keep header = .ok a) :
    Understood header.lines := by
  obtain ⟨ms, hms, -⟩ := parse_eq_ok_iff.1 h
  intro line hline hspeaks
  obtain ⟨m, -, hm⟩ := exists_of_mapM hms hline
  obtain ⟨rule, hrule, hsaid⟩ := exists_says_of_meaning hm hspeaks
  exact ⟨rule, hrule, m, hsaid, hm⟩

/-- The license of a header that is read is the one that a line means. -/
lemma exists_license_of_parse {a : Attribution} (h : parse keep header = .ok a) :
    ∃ line ∈ header.lines, meaning line = .ok (.license a.license) := by
  obtain ⟨ms, hms, ha⟩ := parse_eq_ok_iff.1 h
  obtain ⟨m, hm, hlicense⟩ := List.exists_of_findSome?_eq_some ha.license
  obtain ⟨line, hline, heq⟩ := exists_of_mem_mapM hms hm
  cases m with
  | license identifier =>
    cases hlicense
    exact ⟨line, hline, heq⟩
  | _ => cases hlicense

end Attribution

namespace Rewriting
open Attribution

/-- Reading a header fails just if a line is refused or no line declares a license. If a line is
refused, the error is that of the first such line and names it as a whole. That no license is found
is reported only of a header whose lines are all accepted. So in a header that is replaced each line
that speaks of a license or of a copyright fits a rule, and the license that is written behind the
copyright lines is declared by a line. -/
theorem fails_closed :
    (∀ keep header,
      ((∃ e, parse keep header = .error e) ↔
        (∃ line ∈ header.lines, ∃ e, meaning line = .error e) ∨ Unlicensed header.lines) ∧
      (∀ line e, FirstRefused header.lines line e → parse keep header = .error e ∧
        (e = .unrecognizedLicense line ∨ e = .unrecognizedCopyright line)) ∧
      (parse keep header = .error .noLicense ↔
        (∀ line ∈ header.lines, ∃ m, meaning line = .ok m) ∧ Unlicensed header.lines)) ∧
    ∀ style options content content' authors,
      ofContent style options content = .ok (.changed content' authors) →
      ∃ b copyrights identifier, HeaderBlock.locate style content = .ok b ∧
        content' = b.before ++ newHeader style b (copyrights ++ [licenseLabel ++ identifier])
          ++ b.after ∧
        (∀ l ∈ copyrights, ¬ licenseLabel <+: l) ∧ Understood b.text.lines ∧
        ∃ line ∈ b.text.lines, meaning line = .ok (.license identifier) ∧
          Declares line identifier := by
  refine ⟨fun keep header => ⟨exists_parse_eq_error_iff, fun line e h => ⟨?_, ?_⟩, ?_⟩, ?_⟩
  · exact parse_eq_error_iff.2 (.inl ⟨line, h⟩)
  · obtain ⟨-, -, -, -, he⟩ := h
    exact eq_of_meaning_eq_error he
  · rw [parse_eq_error_iff]
    constructor
    · rintro (⟨line, -, -, -, -, he⟩ | ⟨haccepted, hunlicensed, -⟩)
      · rcases eq_of_meaning_eq_error he with h | h <;> cases h
      · exact ⟨haccepted, hunlicensed⟩
    · rintro ⟨haccepted, hunlicensed⟩
      exact .inr ⟨haccepted, hunlicensed, rfl⟩
  · intro style options content content' authors h
    obtain ⟨b, inner, a, hlocated, -, hparse, -, hcontent⟩ := exists_of_changed h
    obtain ⟨ms, -, ha⟩ := parse_eq_ok_iff.1 hparse
    obtain ⟨line, hline, hlicense⟩ := exists_license_of_parse hparse
    rw [tagLines_eq] at hcontent
    exact ⟨b, _, _, hlocated.locate_eq, hcontent, fun _ => ha.not_licenseLabel_isPrefix,
      understood_of_parse hparse, line, hline, hlicense, declares_of_meaning hlicense⟩

section Examples

/-- A header with a line that is refused behind one that declares a license. -/
def refusedHeader : Text :=
  "@license AGPL-3.0\n@license MIT\n@copyright"

/-- Why the header is refused. -/
def refusedLine : ConversionError :=
  .unrecognizedLicense "@license MIT"

/-- A content whose header is replaced. -/
def acceptedText : Text :=
  "/* @copyright 2020 Jo <j@x>\n@license AGPL-3.0-or-later */"

/-- What the content is replaced by. -/
def replacedText : Text :=
  "/**\n * SPDX-FileCopyrightText: 2020 \n * SPDX-License-Identifier: AGPL-3.0-or-later\n */"

/-- The line with another license is refused. -/
lemma meaning_refusedLine : meaning "@license MIT" = .error refusedLine := by
  have habsent : ∀ r ∈ rules, Text.contains r.lead "@license MIT" = false := by
    simp only [rules, licenseRules, boilerplateRules, List.cons_append, List.nil_append,
      List.forall_mem_cons, Rule.lead, List.not_mem_nil, false_implies, implies_true, and_true]
    and_intros <;> exact Text.contains_ofList (by decide)
  have hspeaks : Text.contains "license" (Text.lowercase "@license MIT") = true := by
    decide +kernel
  exact meaning_eq_error_iff.2 ⟨fun r hr => Rule.not_fits_of_contains (habsent r hr),
    .inl ⟨Text.contains_iff_isInfix.1 hspeaks, rfl⟩⟩

/-- The line with a known license is accepted. -/
lemma meaning_acceptedLine : meaning "@license AGPL-3.0" = .ok (.license "AGPL-3.0-only") :=
  rfl

/-- All lines of the accepted header are read. -/
lemma parse_acceptedText :
    parse [] acceptedText = .ok ⟨["Jo <j@x>"], some 2020, [], "AGPL-3.0-or-later"⟩ :=
  rfl

/-- The first line that is refused is the one with another license. -/
lemma firstRefused_refusedHeader :
    FirstRefused refusedHeader.lines "@license MIT" refusedLine :=
  ⟨["@license AGPL-3.0"], ["@copyright"], rfl,
    List.forall_mem_singleton.2 ⟨_, meaning_acceptedLine⟩, meaning_refusedLine⟩

/-- The accepted header is replaced. -/
lemma ofContent_acceptedText :
    ofContent .block {} acceptedText = .ok (.changed replacedText ["Jo <j@x>"]) :=
  ofContent_of_parse (b := ⟨[], acceptedText, [], "*/"⟩)
    (a := ⟨["Jo <j@x>"], some 2020, [], "AGPL-3.0-or-later"⟩) rfl rfl parse_acceptedText

/-- A header with a line that is refused is not read, although it declares a license, and a header
that is replaced is understood. -/
theorem fails_closed_behind_license :
    FirstRefused refusedHeader.lines "@license MIT" refusedLine ∧
      parse [] refusedHeader = .error refusedLine ∧
      ofContent .block {} acceptedText = .ok (.changed replacedText ["Jo <j@x>"]) ∧
      ∃ b copyrights identifier, HeaderBlock.locate .block acceptedText = .ok b ∧
        replacedText = b.before ++ newHeader .block b (copyrights ++ [licenseLabel ++ identifier])
          ++ b.after ∧
        Understood b.text.lines ∧ ∃ line ∈ b.text.lines, Declares line identifier := by
  have hrefused := firstRefused_refusedHeader
  obtain ⟨b, copyrights, identifier, hb, hcontent, -, hunderstood, line, hline, -, hdeclares⟩ :=
    fails_closed.2 _ _ _ _ _ ofContent_acceptedText
  exact ⟨hrefused, ((fails_closed.1 [] _).2.1 _ _ hrefused).1, ofContent_acceptedText, b,
    copyrights, identifier, hb, hcontent, hunderstood, line, hline, hdeclares⟩

end Examples

end Rewriting

end SpdxHeaders
