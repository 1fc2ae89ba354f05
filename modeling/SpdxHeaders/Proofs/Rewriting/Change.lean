import SpdxHeaders.Proofs.Attribution.Rules
import SpdxHeaders.Proofs.HeaderBlock
import SpdxHeaders.Rewriting

/-!
# What a change is

The ways rewriting can end, said by what is located: `exists_of_changed` for a header that is
replaced and `ofContent_of_parse` for its converse, `ofContent_eq_alreadyNormalized_iff` for one
that holds tags already.
-/

namespace SpdxHeaders.Rewriting

variable {style : CommentStyle} {options : ConversionOptions} {content content' : Text}
  {authors : List Text}

/-- A header that is replaced was located and read, and what surrounds it stays. -/
lemma exists_of_changed (h : ofContent style options content = .ok (.changed content' authors)) :
    ∃ b inner a, HeaderBlock.Located style content b inner ∧ b.isNormalized = false ∧
      Attribution.parse options.keep b.text = .ok a ∧ authors = a.authors ∧
      content' = b.before ++ newHeader style b (a.tagLines options.defaultHolder) ++ b.after := by
  obtain ⟨b, hb, h⟩ := bind_eq_ok_iff.1 h
  obtain ⟨inner, hl⟩ := HeaderBlock.exists_located hb
  cases hn : b.isNormalized with
  | true =>
    rw [hn, if_pos rfl] at h
    cases h
  | false =>
    rw [hn, if_neg Bool.false_ne_true] at h
    obtain ⟨a, ha, h⟩ := bind_eq_ok_iff.1 h
    dsimp only at h
    rw [hl.replaceFirst_text] at h
    cases h
    exact ⟨b, inner, a, hl, hn, ha, rfl, rfl⟩

/-- A header that is located and read is replaced. -/
lemma ofContent_of_parse {b : HeaderBlock} {a : Attribution}
    (hb : HeaderBlock.locate style content = .ok b) (hn : b.isNormalized = false)
    (ha : Attribution.parse options.keep b.text = .ok a) :
    ofContent style options content = .ok (.changed
      (b.before ++ newHeader style b (a.tagLines options.defaultHolder) ++ b.after) a.authors) := by
  obtain ⟨inner, hl⟩ := HeaderBlock.exists_located hb
  rw [ofContent, hb, ok_bind, hn, if_neg Bool.false_ne_true, ha, ok_bind]
  dsimp only
  rw [hl.replaceFirst_text]
  rfl

/-- The header of a content is located and holds tags. -/
def IsTagged (style : CommentStyle) (content : Text) : Prop :=
  ∃ b, HeaderBlock.locate style content = .ok b ∧ b.isNormalized = true

/-- A content is left as it is just if its header holds tags, whatever is chosen. -/
lemma ofContent_eq_alreadyNormalized_iff :
    ofContent style options content = .ok .alreadyNormalized ↔ IsTagged style content := by
  constructor
  · intro h
    obtain ⟨b, hb, h⟩ := bind_eq_ok_iff.1 h
    cases hn : b.isNormalized with
    | true => exact ⟨b, hb, hn⟩
    | false =>
      rw [hn, if_neg Bool.false_ne_true] at h
      obtain ⟨a, -, h⟩ := bind_eq_ok_iff.1 h
      cases h
  · rintro ⟨b, hb, hn⟩
    rw [ofContent, hb, ok_bind, hn, if_pos rfl]
    rfl

/-- A header that cannot be located or read raises an error of its file. -/
lemma raisedByFile_of_error {e : ConversionError} (h : ofContent style options content = .error e) :
    e.RaisedByFile := by
  rcases bind_eq_error_iff.1 h with hb | ⟨b, -, h⟩
  · unfold HeaderBlock.locate at hb
    split at hb
    · cases hb
      exact .noHeader
    · split at hb <;> cases hb
      exact .noHeaderEnd
  · split at h
    · cases h
    · rcases bind_eq_error_iff.1 h with ha | ⟨a, -, h⟩
      · exact Attribution.raisedByFile_of_parse ha
      · cases h

end SpdxHeaders.Rewriting
