import SpdxHeaders.Proofs.Attribution.Rules
import SpdxHeaders.Proofs.Rewriting.Change

/-!
# What surrounds a replaced comment

A change puts a new comment in the place of the leading comment and keeps every character outside
it, with one exception: a line feed that opens the content and stands right in front of the comment
is taken for a part of the block and is not put back (`content_of_changed`).
-/

namespace SpdxHeaders.Rewriting

/-- What takes the place of the text in front of a comment: the text, but an empty first line is
lost. -/
def keptFront (front : Text) : Text :=
  if front = ['\n'] then [] else front

/-- Only an empty first line is lost. -/
lemma keptFront_append_eq_iff {front t : Text} :
    keptFront front ++ t = front ++ t ↔ front ≠ ['\n'] := by
  unfold keptFront
  split
  case isTrue h =>
    refine ⟨fun e => ?_, fun hne => absurd h hne⟩
    have hlen := congrArg List.length e
    rw [h, List.length_append, List.length_append, List.length_singleton, List.length_nil] at hlen
    omega
  case isFalse h => exact ⟨fun _ => h, fun _ => rfl⟩

/-- The new header goes behind what is kept of the text in front of the comment. -/
lemma before_append_newHeader {style : CommentStyle} {b : HeaderBlock} {front comment : Text}
    (h : front = [] ∧ b.before = [] ∧ b.text = comment ∨
      front = b.before ++ ['\n'] ∧ b.text = '\n' :: comment) (tagLines : List Text) :
    b.before ++ newHeader style b tagLines = keptFront front ++ style.wrap tagLines b.endToken := by
  rcases h with ⟨rfl, hb, -⟩ | ⟨rfl, -⟩
  · rw [newHeader, HeaderBlock.atFileStart, hb]
    rfl
  · rw [newHeader, HeaderBlock.atFileStart]
    cases b.before with
    | nil => rfl
    | cons c t =>
      have hne : c :: t ++ ['\n'] ≠ ['\n'] := by
        intro e
        exact List.append_ne_nil_of_right_ne_nil t (List.cons_ne_nil _ _) (List.cons.inj e).2
      rw [keptFront, if_neg hne, List.append_assoc]
      rfl

/-- A change replaces the leading comment by the tags that stand for it. Every character outside the
comment survives, unless the comment follows right behind an empty first line: then the line feed of
that line is lost, and nothing else. -/
theorem content_of_changed {style : CommentStyle} {options : ConversionOptions}
    {content content' : Text} {authors : List Text}
    (h : ofContent style options content = .ok (.changed content' authors)) :
    ∃ front comment back token a,
      HeaderBlock.LeadingComment style content front comment back token ∧
      Attribution.parse options.keep comment = .ok a ∧ authors = a.authors ∧
      content' = keptFront front ++ style.wrap (a.tagLines options.defaultHolder) token ++ back ∧
      (content' = front ++ style.wrap (a.tagLines options.defaultHolder) token ++ back ↔
        front ≠ ['\n']) := by
  obtain ⟨b, inner, a, hl, -, ha, rfl, rfl⟩ := exists_of_changed h
  obtain ⟨front, comment, hc, hfront⟩ := hl.leading
  have hparse : Attribution.parse options.keep comment = .ok a := by
    rcases hfront with ⟨-, -, ht⟩ | ⟨-, ht⟩
    · rw [← ht, ha]
    · rw [← Attribution.parse_lineFeed, ← ht, ha]
  refine ⟨front, comment, b.after, b.endToken, a, hc, hparse, rfl, ?_, ?_⟩
  · rw [before_append_newHeader hfront]
  · rw [before_append_newHeader hfront, List.append_assoc, List.append_assoc]
    exact keptFront_append_eq_iff

/-- A header behind a preamble leaves the preamble and the code as they are. -/
theorem content_of_changed_preamble :
    let content : Text := "<?php\n/* @author Jo\n@license AGPL-3.0-or-later */\n"
    let content' : Text := "<?php\n/**\n * SPDX-License-Identifier: AGPL-3.0-or-later\n */\n"
    ofContent .block {} content = .ok (.changed content' ["Jo"]) ∧
      ∃ front comment back token a,
        HeaderBlock.LeadingComment .block content front comment back token ∧
        Attribution.parse [] comment = .ok a ∧ ["Jo".toList] = a.authors ∧
        content' = keptFront front ++ CommentStyle.block.wrap (a.tagLines []) token ++ back ∧
        (content' = front ++ CommentStyle.block.wrap (a.tagLines []) token ++ back ↔
          front ≠ ['\n']) := by
  intro content content'
  have h : ofContent .block {} content = .ok (.changed content' ["Jo"]) :=
    ofContent_of_parse
      (b := ⟨"<?php", "\n/* @author Jo\n@license AGPL-3.0-or-later */", "\n", "*/"⟩)
      (a := ⟨["Jo"], none, [], "AGPL-3.0-or-later"⟩) rfl rfl
      ((Attribution.parse_lineFeed _ _).trans rfl)
  exact ⟨h, content_of_changed h⟩

/-- The line feed of an empty first line is outside the comment that follows it, and is lost. -/
theorem lineFeed_lost_before_comment :
    ∃ content' comment back token a,
      ofContent .block {} "\n/* @license AGPL-3.0-or-later */" = .ok (.changed content' a.authors) ∧
      HeaderBlock.LeadingComment .block "\n/* @license AGPL-3.0-or-later */" ['\n'] comment back
        token ∧
      Attribution.parse [] comment = .ok a ∧
      content' ≠ ['\n'] ++ CommentStyle.block.wrap (a.tagLines []) token ++ back := by
  have ha : Attribution.parse [] "/* @license AGPL-3.0-or-later */"
    = .ok ⟨[], none, [], "AGPL-3.0-or-later"⟩ := rfl
  refine ⟨_, "/* @license AGPL-3.0-or-later */", [], "*/", _,
    ofContent_of_parse (b := ⟨[], "\n/* @license AGPL-3.0-or-later */", [], "*/"⟩) rfl rfl
      ((Attribution.parse_lineFeed _ _).trans ha), ?_, ha, by decide⟩
  refine ⟨rfl, by decide, .inr ⟨[], rfl⟩, fun front' rest' e _ hp => ?_,
    "/* @license AGPL-3.0-or-later ", rfl, HeaderBlock.splitEnd?_eq_some_iff.1 rfl⟩
  cases front' with
  | nil =>
    obtain rfl : _ = rest' := e
    exact absurd hp (by decide)
  | cons c t => exact Nat.succ_le_succ (Nat.zero_le _)

end SpdxHeaders.Rewriting
