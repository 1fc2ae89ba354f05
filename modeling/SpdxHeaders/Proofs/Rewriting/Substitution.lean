import SpdxHeaders.Proofs.HeaderBlock.Extent
import SpdxHeaders.Proofs.Rewriting.Change

/-!
# Where a header is replaced

A header is replaced by its text: the place where it was found is not kept, and the first occurrence
of the text is looked for again. This is the same place, however often the text occurs. So the bytes
in front of the header block and behind it are those of the content (`replaced_at_block`).
-/

namespace SpdxHeaders

/-- The bytes of a text with those from one offset to another replaced. -/
def Text.splice (t : Text) (start stop : Nat) (new : Text) : ByteArray :=
  t.toUtf8.extract 0 start ++ new.toUtf8 ++ t.toUtf8.extract stop t.byteLength

open Text

/-- Replacing what stands between a front and a rest is a splice. -/
lemma Text.toUtf8_replaced (front old new rest : Text) :
    (front ++ new ++ rest).toUtf8 = (front ++ old ++ rest).splice front.byteLength
      (front.byteLength + old.byteLength) new := by
  rw [splice, ← byteLength_append, extract_rest, List.append_assoc front old, extract_front,
    toUtf8_append, toUtf8_append]

namespace HeaderBlock
variable {style : CommentStyle} {content : Text} {b : HeaderBlock} {inner : Text}

/-- The text of a block occurs where the block starts, and nowhere in front of it. -/
lemma Located.isLeast_start (h : Located style content b inner) :
    IsLeast {o | MatchesAt b.text content o} b.start := by
  have hne : b.text ≠ [] := by
    rw [h.text_eq]
    exact List.append_ne_nil_of_right_ne_nil _ (CommentStyle.endToken_ne_nil h.closes.mem)
  exact (firstCut_iff_isLeast hne h.firstCut.eq).1 h.firstCut

/-- Replacing the text of a block is splicing where the block is. -/
lemma Located.toUtf8_replaceFirst (h : Located style content b inner) (new : Text) :
    (replaceFirst b.text new content).toUtf8
      = content.splice b.start (b.start + b.text.byteLength) new := by
  rw [h.replaceFirst_text, toUtf8_replaced b.before b.text, ← content_of_locate h.locate_eq]
  rfl

end HeaderBlock

namespace Rewriting
open HeaderBlock

/-- A change replaces the first occurrence of the text of the header block, and whatever this text
is replaced by, the bytes of the result are those of the content with the new text in the place of
the block. No occurrence of the text, not even one that overlaps the block, starts in front of the
block. -/
theorem replaced_at_block {style : CommentStyle} {options : ConversionOptions}
    {content content' : Text} {authors : List Text}
    (h : ofContent style options content = .ok (.changed content' authors)) :
    ∃ b a, locate style content = .ok b ∧ Attribution.parse options.keep b.text = .ok a ∧
      content'
        = replaceFirst b.text (newHeader style b (a.tagLines options.defaultHolder)) content ∧
      (∀ new, (replaceFirst b.text new content).toUtf8
        = content.splice b.start (b.start + b.text.byteLength) new) ∧
      content'.toUtf8 = content.splice b.start (b.start + b.text.byteLength)
        (newHeader style b (a.tagLines options.defaultHolder)) ∧
      IsLeast {o | MatchesAt b.text content o} b.start := by
  obtain ⟨b, inner, a, hl, -, ha, -, rfl⟩ := exists_of_changed h
  rw [← hl.replaceFirst_text]
  exact ⟨b, a, hl.locate_eq, ha, rfl, hl.toUtf8_replaceFirst, hl.toUtf8_replaceFirst _,
    hl.isLeast_start⟩

/-- Of two equal headers the first is replaced. -/
theorem replaced_at_block_repeated :
    let header : Text := "\n/* @license AGPL-3.0-or-later */"
    let new : Text := "\n/**\n * SPDX-License-Identifier: AGPL-3.0-or-later\n */"
    let content : Text := "é".toList ++ header ++ header ++ "\n".toList
    let content' : Text := "é".toList ++ new ++ (header ++ "\n".toList)
    ofContent .block {} content = .ok (.changed content' []) ∧
      content'.toUtf8 = content.splice 2 (2 + header.byteLength) new ∧
      MatchesAt header content (byteLength ("é".toList ++ header)) ∧
      IsLeast {o | MatchesAt header content o} 2 := by
  intro header new content content'
  have hlocate : locate .block content = .ok ⟨"é", header, header ++ "\n".toList, "*/"⟩ := rfl
  have ha : Attribution.parse [] header = .ok ⟨[], none, [], "AGPL-3.0-or-later"⟩ :=
    (Attribution.parse_lineFeed _ _).trans rfl
  have h : ofContent .block {} content = .ok (.changed content' []) :=
    ofContent_of_parse hlocate rfl ha
  obtain ⟨b, a, hb, ha', -, -, hbytes, hleast⟩ := replaced_at_block h
  cases hlocate.symm.trans hb
  cases ha.symm.trans ha'
  exact ⟨h, hbytes, matchesAt_front _ _ _, hleast⟩

end Rewriting

end SpdxHeaders
