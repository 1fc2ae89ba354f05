import SpdxHeaders.Proofs.Attribution.TagLines
import SpdxHeaders.Proofs.Rewriting.Change

/-!
# Rewriting twice

A content that was changed holds tags in its header, so that it is not changed again
(`ofContent_of_changed`). The new header begins with its start token and the word of the tags, and
no end token can begin in front of that word (`clear_opening`), whatever follows it.
-/

namespace SpdxHeaders

open HeaderBlock

variable {style : CommentStyle}

/-- No end token begins in front of the word of the tags or in it. -/
lemma CommentStyle.clear_opening {token : Text} (h : token ∈ style.endTokens) :
    Text.Clear token ('\n' :: style.opening ++ Attribution.tag) := by
  cases style <;> revert token <;> decide

namespace HeaderBlock

/-- A block that begins with an opening and the word of the tags holds tags, if anything closes
it. -/
lemma exists_isNormalized {content before rest lead token : Text}
    (ho : Opens style content before rest) (hl : lead <+: rest)
    (hs : lead <:+ '\n' :: style.opening ++ Attribution.tag)
    (ht : Attribution.tag <:+: lead) (hm : token ∈ style.endTokens) (hi : token <:+: rest) :
    ∃ b, locate style content = .ok b ∧ b.isNormalized = true := by
  obtain ⟨u, front, after, hc⟩ := exists_closes hm hi
  refine ⟨_, locate_of_opens ho hc, Text.contains_iff_isInfix.2 ?_⟩
  obtain ⟨z, rfl⟩ := hl
  have hclear : Text.Clear u lead := by
    intro v hv
    have hsuffix := ((List.mem_tails _ _).1 hv).trans hs
    exact CommentStyle.clear_opening hc.mem v ((List.mem_tails _ _).2 hsuffix)
  have hp := hclear.isPrefix hc.cut.eq (List.prefix_append _ _)
  exact ht.trans (hp.trans (List.prefix_append _ _)).isInfix

/-- A content with the same text up to the start token of its block begins a block at the same
place. -/
lemma opens_of_firstCut {before x : Text}
    (hs : ¬ style.startToken <+: before ++ ('\n' :: style.startToken ++ x))
    (hc : Text.FirstCut ('\n' :: style.startToken) (before ++ ('\n' :: style.startToken ++ x))
      before ('\n' :: style.startToken ++ x)) (y : Text) :
    Opens style (before ++ ('\n' :: style.startToken ++ y)) before
      ('\n' :: style.startToken ++ y) := by
  refine .onLine (fun hp => hs ?_) (hc.replaceTail y)
  -- A start token at the beginning would be a part of what the contents have in common.
  have hcommon (z : Text) : before ++ '\n' :: style.startToken <+:
      before ++ ('\n' :: style.startToken ++ z) := ⟨z, List.append_assoc ..⟩
  have hle : style.startToken.length ≤ (before ++ '\n' :: style.startToken).length := by
    rw [List.length_append, List.length_cons]
    omega
  exact (List.prefix_of_prefix_length_le hp (hcommon y) hle).trans (hcommon x)

end HeaderBlock

namespace Rewriting

/-- A new header begins with its opening and the word of the tags. -/
lemma opening_tag_isPrefix_wrap {lines : List Text} {l : Text} (hl : lines.head? = some l)
    (ht : Attribution.tag <+: l) (token : Text) :
    style.opening ++ Attribution.tag <+: style.wrap lines token := by
  obtain ⟨ls, rfl⟩ := List.head?_eq_some_iff.1 hl
  rw [style.wrap_eq, List.prefix_append_right_inj]
  exact (ht.trans (Text.isPrefix_join _ _ _)).trans (List.prefix_append _ _)

/-- A content that is changed does not stay the same. -/
lemma ne_of_changed {options : ConversionOptions} {content content' : Text} {authors : List Text}
    (h : ofContent style options content = .ok (.changed content' authors)) :
    content' ≠ content := by
  obtain ⟨b, inner, a, hl, hn, ha, -, rfl⟩ := exists_of_changed h
  obtain ⟨l, hlines, ht⟩ := Attribution.exists_head?_tagLines ha options.defaultHolder
  intro hsame
  rw [eq_of_splitStart? (splitStart?_eq_some_iff.2 hl.opens), ← List.append_assoc] at hsame
  have htext : newHeader style b (a.tagLines options.defaultHolder) = b.text :=
    List.append_cancel_left (List.append_cancel_right hsame)
  have htag : Attribution.tag <:+: b.text := by
    rw [← htext]
    refine List.IsInfix.trans ?_ (List.suffix_append _ _).isInfix
    exact (List.suffix_append _ _).isInfix.trans (opening_tag_isPrefix_wrap hlines ht _).isInfix
  rw [show b.isNormalized = true from Text.contains_iff_isInfix.2 htag] at hn
  cases hn

/-- The header of a changed content holds tags. -/
lemma isTagged_of_changed {options : ConversionOptions} {content content' : Text}
    {authors : List Text} (h : ofContent style options content = .ok (.changed content' authors)) :
    IsTagged style content' := by
  obtain ⟨b, inner, a, hl, -, ha, -, rfl⟩ := exists_of_changed h
  obtain ⟨l, hlines, ht⟩ := Attribution.exists_head?_tagLines ha options.defaultHolder
  have hmem := hl.closes.mem
  unfold IsTagged newHeader
  have hw : style.opening ++ Attribution.tag
      <+: style.wrap (a.tagLines options.defaultHolder) b.endToken :=
    opening_tag_isPrefix_wrap hlines ht b.endToken
  have hi : b.endToken <:+: style.wrap (a.tagLines options.defaultHolder) b.endToken := by
    rw [style.wrap_eq, ← List.append_assoc]
    exact (CommentStyle.endToken_isInfix_closing hmem).trans (List.suffix_append _ _).isInfix
  generalize style.wrap (a.tagLines options.defaultHolder) b.endToken = w at hw hi ⊢
  have htag (s : Text) : Attribution.tag <:+: s ++ Attribution.tag :=
    (List.suffix_append _ _).isInfix
  have hstart : style.startToken <+: w :=
    (style.startToken_isPrefix_opening.trans (List.prefix_append _ _)).trans hw
  by_cases hb : b.before = []
  · -- The new header opens the content, also where the old one stood behind a line feed.
    simp only [atFileStart, hb, List.isEmpty_nil, if_true, List.nil_append]
    exact exists_isNormalized (.atStart (hstart.trans (List.prefix_append _ _)))
      (hw.trans (List.prefix_append _ _)) (List.suffix_cons _ _) (htag _) hmem
      (hi.trans (List.prefix_append _ _).isInfix)
  · -- Both contents have the same text up to the start token.
    rcases hl.startToken_isPrefix with ⟨hnil, -⟩ | ⟨hs, hc, x, hx⟩
    · exact absurd hnil hb
    · obtain ⟨y, rfl⟩ := hstart
      rw [hc.eq, ← hx, List.append_assoc] at hs hc
      have hrest : '\n' :: style.startToken ++ (y ++ b.after)
          = '\n' :: (style.startToken ++ y) ++ b.after := by
        simp only [List.cons_append, List.append_assoc]
      have ho := hrest ▸ opens_of_firstCut hs hc (y ++ b.after)
      rw [atFileStart, List.isEmpty_eq_false_iff.2 hb, if_neg Bool.false_ne_true, List.append_assoc]
      refine exists_isNormalized ho ?_ List.suffix_rfl (htag _) hmem ?_
      · exact (List.cons_prefix_cons.2 ⟨rfl, hw⟩).trans (List.prefix_append _ _)
      · exact (hi.trans (List.suffix_cons _ _).isInfix).trans (List.prefix_append _ _).isInfix

/-- A changed content is not changed again, whatever is chosen then. -/
theorem ofContent_of_changed {options options' : ConversionOptions} {content content' : Text}
    {authors : List Text} (h : ofContent style options content = .ok (.changed content' authors)) :
    ofContent style options' content' = .ok .alreadyNormalized :=
  ofContent_eq_alreadyNormalized_iff.2 (isTagged_of_changed h)

/-- Not even a holder that ends the new comment early lets it be changed again. -/
theorem ofContent_of_changed_endToken :
    let content : Text := "/* @copyright 2020 Jo <j@x>\n@license AGPL-3.0-or-later */"
    let content' : Text :=
      "/**\n * SPDX-FileCopyrightText: 2020 */\n * SPDX-License-Identifier: AGPL-3.0-or-later\n */"
    ofContent .block { defaultHolder := "*/" } content = .ok (.changed content' ["Jo <j@x>"]) ∧
      ofContent .block {} content' = .ok .alreadyNormalized := by
  intro content content'
  have h : ofContent .block { defaultHolder := "*/" } content
      = .ok (.changed content' ["Jo <j@x>"]) := rfl
  exact ⟨h, ofContent_of_changed h⟩

end Rewriting

end SpdxHeaders
