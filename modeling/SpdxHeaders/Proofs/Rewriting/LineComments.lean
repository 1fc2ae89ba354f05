import Mathlib.Data.List.TakeWhile
import SpdxHeaders.Proofs.Rewriting.Surroundings
import SpdxHeaders.Proofs.Text.Pieces
import SpdxHeaders.Text.Blank

/-!
# What a change of a comment of lines removes

A comment of lines has no end token of its own: it is closed by the first occurrence of a keyword,
wherever that is. So a change removes whatever stands between the start token and the keyword. That
is nothing but comment lines just if the code behind the leading comment lines begins with this
keyword (`line_content_of_changed`). A modifier in front of the declaration is lost, and so is the
rest of a comment line in front of a keyword in the comment (`modifier_lost_with_comment`).
-/

namespace SpdxHeaders

open Text

namespace HeaderBlock

/-- The line is blank or a comment. -/
def isCommentLine (l : Text) : Bool :=
  let shown := l.dropWhile isBlank
  shown.isEmpty || CommentStyle.line.startToken.isPrefixOf shown

/-- The text consists of comment lines and, behind its last line feed, of blanks. -/
def CommentOnly (t : Text) : Prop :=
  (∀ l ∈ (pieces '\n' t).dropLast, isCommentLine l = true) ∧
    ∀ c ∈ (pieces '\n' t).getLast (pieces_ne_nil '\n' t), isBlank c = true

instance (t : Text) : Decidable (CommentOnly t) :=
  decidable_of_iff ((pieces '\n' t).dropLast.all isCommentLine &&
    ((pieces '\n' t).getLast (pieces_ne_nil '\n' t)).all isBlank)
    (by rw [Bool.and_eq_true, List.all_eq_true, List.all_eq_true, CommentOnly])

/-- What follows the leading comment lines of a text and the blanks behind them. -/
def skipComments (t : Text) : Text :=
  (join ['\n'] ((pieces '\n' t).dropWhile isCommentLine)).dropWhile isBlank

/-- The text of the block behind the line feed in front of its start token, if it has one, up to its
end token. -/
def body (b : HeaderBlock) : Text :=
  let inner := b.text.take (b.text.length - b.endToken.length)
  (after? ['\n'] inner).getD inner

section Comments
variable {l p r t x : Text}

/-- Comment lines are skipped one by one, up to the first line that is not a comment. -/
lemma skipComments_append (hp : '\n' ∉ p) (hr : r = [] ∨ ∃ t, r = '\n' :: t) :
    skipComments (p ++ r)
      = if isCommentLine p then skipComments r.tail else (p ++ r).dropWhile isBlank := by
  rcases hr with rfl | ⟨t, rfl⟩
  · rw [List.append_nil, skipComments, pieces_of_notMem hp]
    cases h : isCommentLine p with
    | true => rw [List.dropWhile_cons_of_pos h]; rfl
    | false => rw [List.dropWhile_cons_of_neg (by simp [h])]; simp [join]
  · have hpieces := pieces_cons hp t
    cases h : isCommentLine p with
    | true =>
      rw [skipComments, hpieces, List.dropWhile_cons_of_pos h]
      rfl
    | false =>
      rw [skipComments, hpieces, List.dropWhile_cons_of_neg (by simp [h]), ← hpieces, join_pieces]
      rfl

/-- Skipping comments leaves no more than there was. -/
lemma length_skipComments_le (t : Text) : (skipComments t).length ≤ t.length := by
  induction t using pieces_induction '\n' with
  | piece l hl =>
    have h := skipComments_append hl (.inl rfl)
    rw [List.append_nil] at h
    rw [h]
    split
    · exact Nat.zero_le _
    · exact (List.dropWhile_suffix _).length_le
  | cons l t hl ih =>
    rw [skipComments_append hl (.inr ⟨t, rfl⟩)]
    split
    · rw [List.tail_cons, List.length_append, List.length_cons]
      omega
    · exact (List.dropWhile_suffix _).length_le

/-- What begins with a text that is not blank is longer than what follows it, without its leading
blanks too. -/
lemma length_lt_dropWhile_append (h : l.dropWhile isBlank ≠ []) (x : Text) :
    x.length < ((l ++ x).dropWhile isBlank).length := by
  rw [List.dropWhile_append, if_neg (mt List.isEmpty_iff.1 h), List.length_append]
  have := List.length_pos_of_ne_nil h
  omega

/-- A text on one line is a comment if it is blank. -/
lemma commentOnly_of_notMem (hl : '\n' ∉ l) :
    CommentOnly l ↔ ∀ c ∈ l, isBlank c = true := by
  simp only [CommentOnly, pieces_of_notMem hl, List.dropLast_singleton, List.getLast_singleton,
    List.not_mem_nil, false_imp_iff, implies_true, true_and]

/-- A text of more lines is a comment if its first line is and what follows it. -/
lemma commentOnly_append_cons (hl : '\n' ∉ l) :
    CommentOnly (l ++ '\n' :: t) ↔ isCommentLine l = true ∧ CommentOnly t := by
  have hne := pieces_ne_nil '\n' t
  simp only [CommentOnly, pieces_cons hl, List.dropLast_cons_of_ne_nil hne, List.getLast_cons hne,
    List.forall_mem_cons, and_assoc]

/-- The text begins with code: neither with a blank nor with a comment. -/
structure BeginsCode (x : Text) : Prop where
  shown : ∃ c t, x = c :: t ∧ isBlank c = false
  not_comment : ¬ CommentStyle.line.startToken <+: x

/-- Code is what is left of it without leading blanks. -/
lemma BeginsCode.dropWhile_eq (hx : BeginsCode x) : x.dropWhile isBlank = x := by
  obtain ⟨c, t, rfl, hc⟩ := hx.shown
  rw [List.dropWhile_cons_of_neg (by simp [hc])]

/-- The first line of code is code. -/
lemma BeginsCode.exists_line (hx : BeginsCode x) :
    ∃ p r, x = p ++ r ∧ '\n' ∉ p ∧ (r = [] ∨ ∃ t, r = '\n' :: t) ∧ BeginsCode p := by
  obtain ⟨p, r, rfl, hp, hr⟩ : ∃ p r, x = p ++ r ∧ '\n' ∉ p ∧ (r = [] ∨ ∃ t, r = '\n' :: t) := by
    by_cases h : '\n' ∈ x
    · obtain ⟨p, t, rfl, hp⟩ := List.eq_append_cons_of_mem h
      exact ⟨p, '\n' :: t, rfl, hp, .inr ⟨t, rfl⟩⟩
    · exact ⟨x, [], (List.append_nil x).symm, h, .inl rfl⟩
  refine ⟨p, r, rfl, hp, hr, ?_, fun h => hx.not_comment (h.trans (List.prefix_append p r))⟩
  obtain ⟨c, t, e, hc⟩ := hx.shown
  cases p with
  | nil =>
    rcases hr with rfl | ⟨t', rfl⟩
    · cases e
    · cases e
      exact absurd hc (by decide)
  | cons d p =>
    cases e
    exact ⟨c, p, rfl, hc⟩

/-- Blanks in front of code do not make a comment of it. -/
lemma BeginsCode.not_isCommentLine (hx : BeginsCode x) (hl : ∀ c ∈ l, isBlank c = true) :
    isCommentLine (l ++ x) = false := by
  obtain ⟨c, t, rfl, -⟩ := hx.shown
  rw [isCommentLine, List.dropWhile_append_of_pos hl, hx.dropWhile_eq, Bool.or_eq_false_iff]
  exact ⟨rfl, Bool.eq_false_iff.2 (mt List.isPrefixOf_iff_prefix.1 hx.not_comment)⟩

/-- What stands in front of code on its line is blank just if the code is what follows the
comments. -/
lemma BeginsCode.forall_isBlank_iff (hx : BeginsCode x) (hl : '\n' ∉ l) :
    (∀ c ∈ l, isBlank c = true) ↔ skipComments (l ++ x) = x := by
  -- The line of the code is `l ++ p`, and `r` is what follows this line.
  obtain ⟨p, r, rfl, hp, hr, hcode⟩ := hx.exists_line
  have hskip : skipComments (l ++ (p ++ r))
      = if isCommentLine (l ++ p) then skipComments r.tail
        else (l ++ (p ++ r)).dropWhile isBlank := by
    rw [← List.append_assoc, skipComments_append (by simp [hl, hp]) hr]
  rw [hskip]
  constructor
  · intro hb
    rw [hcode.not_isCommentLine hb, if_neg Bool.false_ne_true, List.dropWhile_append_of_pos hb,
      hx.dropWhile_eq]
  · intro h
    by_contra hb
    split at h
    · -- The code is on a line that is skipped, so that less is left.
      have hle := length_skipComments_le r.tail
      obtain ⟨c, p, rfl, -⟩ := hcode.shown
      rw [h, List.length_append, List.length_cons, List.length_tail] at hle
      omega
    · have hlt := length_lt_dropWhile_append (mt List.dropWhile_eq_nil_iff.1 hb) (p ++ r)
      rw [h] at hlt
      exact Nat.lt_irrefl _ hlt

/-- A text in front of code is a comment just if the code is what follows the comments. -/
lemma BeginsCode.commentOnly_iff (hx : BeginsCode x) (t : Text) :
    CommentOnly t ↔ skipComments (t ++ x) = x := by
  induction t using pieces_induction '\n' with
  | piece l hl => rw [commentOnly_of_notMem hl, hx.forall_isBlank_iff hl]
  | cons l t hl ih =>
    rw [commentOnly_append_cons hl, ih, List.append_assoc, List.cons_append,
      skipComments_append hl (.inr ⟨t ++ x, rfl⟩), List.tail_cons]
    split
    case isTrue hc => simp only [hc, true_and]
    case isFalse hc =>
      refine ⟨fun h => absurd h.1 hc, fun h => ?_⟩
      have hdrop : l.dropWhile isBlank ≠ [] := by
        intro hnil
        exact hc (by rw [isCommentLine, hnil]; rfl)
      have hlt := length_lt_dropWhile_append hdrop ('\n' :: (t ++ x))
      rw [h, List.length_cons, List.length_append] at hlt
      omega

/-- The keyword of a declaration begins code. -/
lemma beginsCode_of_mem_endTokens {token : Text} (h : token ∈ CommentStyle.line.endTokens)
    (after : Text) : BeginsCode (token ++ after) := by
  simp only [CommentStyle.endTokens, List.mem_cons, List.not_mem_nil, or_false] at h
  rcases h with rfl | rfl | rfl | rfl | rfl <;>
    exact ⟨⟨_, _, rfl, by decide⟩, by simp [CommentStyle.startToken]⟩

end Comments

section Body
variable {style : CommentStyle} {content front comment : Text} {b : HeaderBlock}

/-- No start token begins with a line feed. -/
lemma not_startToken_isPrefix_lineFeed (style : CommentStyle) (t : Text) :
    ¬ style.startToken <+: '\n' :: t := by
  cases style <;> simp [CommentStyle.startToken]

/-- The body of a block is its text without the end token, behind a line feed. -/
lemma body_eq {inner : Text} (h : b.text = inner ++ b.endToken) :
    b.body = (after? ['\n'] inner).getD inner := by
  have htake : b.text.take (b.text.length - b.endToken.length) = inner := by simp [h]
  rw [body, htake]

/-- The leading comment is the body of the block with its end token. -/
lemma LeadingComment.eq_body_append
    (hc : LeadingComment style content front comment b.after b.endToken)
    (h : front = [] ∧ b.before = [] ∧ b.text = comment ∨
      front = b.before ++ ['\n'] ∧ b.text = '\n' :: comment) :
    comment = b.body ++ b.endToken := by
  obtain ⟨inner, rfl, -⟩ := hc.closes
  have hopens := hc.opens
  rw [List.append_cancel_right_eq]
  rcases h with ⟨-, -, ht⟩ | ⟨-, ht⟩
  · have hnone : after? ['\n'] inner = none := by
      rw [Option.eq_none_iff_forall_ne_some]
      intro t h
      rw [after?_eq_some_iff] at h
      subst h
      exact not_startToken_isPrefix_lineFeed style _ hopens
    rw [body_eq ht, hnone]
    rfl
  · rw [body_eq (show b.text = '\n' :: inner ++ b.endToken from ht)]
    rfl

end Body

end HeaderBlock

namespace Rewriting

open HeaderBlock

/-- A change of a comment of lines removes what stands between the start token and the first
occurrence of the keyword that closes it, and keeps everything else but an empty first line. What is
removed is nothing but comment lines just if this keyword is what follows the leading comment
lines. -/
theorem line_content_of_changed {options : ConversionOptions} {content content' : Text}
    {authors : List Text}
    (h : ofContent .line options content = .ok (.changed content' authors)) :
    ∃ b front a, locate .line content = .ok b ∧
      LeadingComment .line content front (b.body ++ b.endToken) b.after b.endToken ∧
      Attribution.parse options.keep (b.body ++ b.endToken) = .ok a ∧
      (∃ kept, content' = kept ++
          (CommentStyle.line.wrap (a.tagLines options.defaultHolder) b.endToken ++ b.after) ∧
        (front ≠ ['\n'] → kept = front)) ∧
      (CommentOnly b.body ↔
        skipComments (b.body ++ b.endToken ++ b.after) = b.endToken ++ b.after) := by
  obtain ⟨b, inner, a, hl, -, ha, -, rfl⟩ := exists_of_changed h
  obtain ⟨front, comment, hc, hfront⟩ := hl.leading
  have hbody := hc.eq_body_append hfront
  have hparse : Attribution.parse options.keep (b.body ++ b.endToken) = .ok a := by
    rw [← hbody]
    rcases hfront with ⟨-, -, ht⟩ | ⟨-, ht⟩
    · rw [← ht, ha]
    · rw [← Attribution.parse_lineFeed, ← ht, ha]
  refine ⟨b, front, a, ?_, hbody ▸ hc, hparse, ⟨keptFront front, ?_, fun hne => if_neg hne⟩, ?_⟩
  · exact hl.locate_eq
  · rw [before_append_newHeader hfront, List.append_assoc]
  · rw [List.append_assoc]
    exact (beginsCode_of_mem_endTokens hl.closes.mem b.after).commentOnly_iff b.body

/-- What the license line of the headers below says. -/
lemma meaning_licenseLine : Attribution.meaning "// @license AGPL-3.0"
    = .ok (.license "AGPL-3.0-only") := by
  decide +kernel

/-- The lines up to a keyword say nothing. -/
lemma meaning_codeLines : Attribution.meaning "import" = .ok .unrelated ∧
    Attribution.meaning "public class" = .ok .unrelated := by
  decide +kernel

/-- Nothing but the comment is removed in front of an import. -/
theorem line_content_of_changed_import :
    let content : Text := "// @license AGPL-3.0\nimport UIKit\n"
    let content' : Text := "//\n// SPDX-License-Identifier: AGPL-3.0-only\n//\n\nimport UIKit\n"
    ofContent .line {} content = .ok (.changed content' []) ∧
      ∃ b front a, locate .line content = .ok b ∧
        LeadingComment .line content front (b.body ++ b.endToken) b.after b.endToken ∧
        Attribution.parse [] (b.body ++ b.endToken) = .ok a ∧
        (∃ kept, content' = kept ++
            (CommentStyle.line.wrap (a.tagLines []) b.endToken ++ b.after) ∧
          (front ≠ ['\n'] → kept = front)) ∧
        (CommentOnly b.body ↔
          skipComments (b.body ++ b.endToken ++ b.after) = b.endToken ++ b.after) ∧
        CommentOnly b.body := by
  intro content content'
  let block : HeaderBlock :=
    ⟨[], "// @license AGPL-3.0\nimport", " UIKit\n", "import"⟩
  have hlocate : locate .line content = .ok block := rfl
  have h : ofContent .line {} content = .ok (.changed content' []) :=
    ofContent_of_parse hlocate rfl
      (Attribution.parse_of_license rfl meaning_licenseLine meaning_codeLines.1)
  obtain ⟨b, front, a, hb, hc, ha, hkept, hiff⟩ := line_content_of_changed h
  obtain rfl : block = b := Except.ok.inj (hlocate.symm.trans hb)
  exact ⟨h, _, front, a, hb, hc, ha, hkept, hiff, by decide⟩

/-- The modifier in front of the keyword is removed with the comment. -/
theorem modifier_lost_with_comment :
    ∃ b, ofContent .line { defaultHolder := "Acme Inc." }
        "// @license AGPL-3.0\npublic class A {}\n" = .ok (.changed
          "//\n// SPDX-License-Identifier: AGPL-3.0-only\n//\n\nclass A {}\n" []) ∧
      locate .line "// @license AGPL-3.0\npublic class A {}\n" = .ok b ∧ ¬ CommentOnly b.body := by
  have hlocate : locate .line "// @license AGPL-3.0\npublic class A {}\n"
    = .ok ⟨[], "// @license AGPL-3.0\npublic class", " A {}\n", "class"⟩ := rfl
  exact ⟨_, ofContent_of_parse hlocate rfl
    (Attribution.parse_of_license rfl meaning_licenseLine meaning_codeLines.2), hlocate, by decide⟩

end Rewriting

end SpdxHeaders
