import Mathlib.Tactic.Lemma
import SpdxHeaders.Attribution.Basic
import SpdxHeaders.Proofs.Attribution.Pattern
import SpdxHeaders.Proofs.Bind
import SpdxHeaders.Proofs.Error
import SpdxHeaders.Proofs.Text.Occurrence

/-!
# What the rules look for

Every rule for header lines looks for a text of its own, which begins with one of a few characters
(`Rule.exists_lead`). So a line without these characters says nothing, unless it speaks of a license
or of a copyright (`meaning_of_notMem`).
-/

namespace SpdxHeaders

/-- A text does not go on with a lead whose first character it does not have. -/
lemma Text.after?_of_notMem {c : Char} {lead t : Text} (h : c ∉ t) :
    Text.after? (c :: lead) t = none := by
  cases t with
  | nil => rfl
  | cons d t => exact if_neg (List.ne_of_not_mem_cons h)

/-- A text does not contain a needle whose first character it does not have. -/
lemma Text.contains_of_notMem {c : Char} {needle t : Text} (h : c ∉ t) :
    Text.contains (c :: needle) t = false := by
  rw [Bool.eq_false_iff, Ne, Text.contains_iff_isInfix]
  exact fun hin => h (hin.subset List.mem_cons_self)

namespace Attribution

/-- The text that a rule looks for. -/
def Rule.lead : Rule → Text
  | .copyright lead _ | .yearOnly lead | .author lead => lead
  | .license needle _ | .boilerplate needle => needle

/-- The characters that the texts of the rules begin with. -/
def leadChars : List Char :=
  ['@', 'C', 'T', '/', 'i', 'L', 'G', 'Y', 't', 'a']

/-- Every rule looks for a text that begins with one of the characters. -/
lemma Rule.exists_lead : ∀ r ∈ rules, ∃ c lead, r.lead = c :: lead ∧ c ∈ leadChars := by
  simp only [rules, licenseRules, boilerplateRules, List.cons_append, List.nil_append,
    List.forall_mem_cons, Rule.lead, List.not_mem_nil, false_implies, implies_true, and_true]
  and_intros <;> exact ⟨_, _, String.toList_ofList, by decide⟩

/-- A rule does not fit a line without the first character that it looks for. -/
lemma Rule.meaning?_of_notMem {r : Rule} {c : Char} {lead line : Text} (hr : r.lead = c :: lead)
    (h : c ∉ line) : r.meaning? line = none := by
  have hafter (s : Text) (hs : s <:+ line) : Text.after? r.lead s = none :=
    hr ▸ Text.after?_of_notMem fun hc => h (hs.subset hc)
  have hcontains : Text.contains r.lead line = false := hr ▸ Text.contains_of_notMem h
  cases r with
  | copyright lead form =>
    have hnone : leftmost (statement? lead form) line = none := leftmost_eq_none fun s hs => by
      rw [statement?, show Text.after? lead s = none from hafter s hs]
      rfl
    rw [meaning?, hnone]
    rfl
  | yearOnly lead =>
    have hnone : leftmost (fun t => Text.after? lead t >>= year?) line = none :=
      leftmost_eq_none fun s hs => by
        rw [show Text.after? lead s = none from hafter s hs]
        rfl
    rw [meaning?, hnone]
    rfl
  | author lead =>
    have hnone : leftmost (fun t => Text.after? lead t >>= longest (· != '\n') some) line = none :=
      leftmost_eq_none fun s hs => by
        rw [show Text.after? lead s = none from hafter s hs]
        rfl
    rw [meaning?, hnone]
    rfl
  | license needle _ | boilerplate needle =>
    rw [meaning?, show Text.contains needle line = false from hcontains]
    rfl

/-- A line without the characters that the rules begin with says nothing unless it speaks of a
license or of a copyright. -/
lemma meaning_of_notMem {line : Text} (hleads : ∀ c ∈ leadChars, c ∉ line)
    (hlicense : Text.contains "license" line.lowercase = false)
    (hcopyright : Text.contains "copyright" line.lowercase = false) :
    meaning line = .ok .unrelated := by
  have hrules : rules.findSome? (fun rule => rule.meaning? line) = none := by
    apply List.findSome?_eq_none_iff.2
    intro r hr
    obtain ⟨c, lead, hlead, hmem⟩ := Rule.exists_lead r hr
    exact Rule.meaning?_of_notMem hlead (hleads c hmem)
  simp only [meaning, hrules, hlicense, hcopyright, Bool.false_eq_true, if_false]

/-- A license line in front of a line that says nothing makes a header. -/
lemma parse_of_license {keep : List Text} {header line other identifier : Text}
    (hlines : Text.lines header = [line, other])
    (hlicense : meaning line = .ok (.license identifier))
    (hother : meaning other = .ok .unrelated) :
    parse keep header = .ok ⟨[], none, [], identifier⟩ := by
  unfold parse
  rw [hlines]
  simp only [List.foldlM_cons, List.foldlM_nil, hlicense, hother]
  rfl

/-- A blank line in front of a header says nothing. -/
lemma parse_lineFeed (keep : List Text) (t : Text) : parse keep ('\n' :: t) = parse keep t := by
  have hl : Text.lines ('\n' :: t) = [] :: Text.lines t := by rw [Text.lines]
  have hnil : meaning [] = .ok .unrelated :=
    meaning_of_notMem (by simp) (by decide) (by decide)
  unfold parse
  rw [hl, List.foldlM_cons, hnil]
  rfl

/-- A line that is refused raises an error of its file. -/
lemma raisedByFile_of_meaning {line : Text} {e : ConversionError} (h : meaning line = .error e) :
    e.RaisedByFile := by
  unfold meaning at h
  split at h
  case h_1 => cases h
  case h_2 =>
    dsimp only at h
    split at h
    case isTrue =>
      cases h
      exact .unrecognizedLicense line
    case isFalse =>
      split at h <;> cases h
      exact .unrecognizedCopyright line

/-- A header that cannot be read raises an error of its file. -/
lemma raisedByFile_of_parse {keep : List Text} {header : Text} {e : ConversionError}
    (h : parse keep header = .error e) : e.RaisedByFile := by
  have hfold (lines : List Text) (d : Draft) {e : ConversionError}
      (h : lines.foldlM (fun (d : Draft) line => (meaning line).map (d.add keep)) d = .error e) :
      e.RaisedByFile := by
    induction lines generalizing d with
    | nil => cases h
    | cons line lines ih =>
      rw [List.foldlM_cons, bind_eq_error_iff] at h
      rcases h with hm | ⟨d', -, h⟩
      · exact raisedByFile_of_meaning (map_eq_error_iff.1 hm)
      · exact ih d' h
  rcases bind_eq_error_iff.1 h with h | ⟨d, -, h⟩
  · exact hfold _ {} h
  · unfold Draft.finish at h
    split at h <;> cases h
    exact .noLicense

end Attribution

end SpdxHeaders
