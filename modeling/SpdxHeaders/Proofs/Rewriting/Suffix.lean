import SpdxHeaders.Proofs.Rewriting.Idempotence

/-!
# What follows a header

In a style with a single end token, a header block that is closed stays as it is when more text
follows, whatever that text holds (`HeaderBlock.locate_append`). So what follows a header has no say
in what becomes of it (`ofContent_append`).
-/

namespace SpdxHeaders

variable {style : CommentStyle} {content suffix : Text}

/-- A comment that is closed has one end token. -/
lemma CommentStyle.exists_endTokens_eq_singleton (h : style ≠ .line) :
    ∃ token, style.endTokens = [token] := by
  cases style with
  | block => exact ⟨_, rfl⟩
  | markup => exact ⟨_, rfl⟩
  | line => exact absurd rfl h

namespace HeaderBlock
variable {before rest token front after t : Text} {b : HeaderBlock}

/-- The block in a content that more text follows. -/
def followedBy (b : HeaderBlock) (suffix : Text) : HeaderBlock :=
  { b with after := b.after ++ suffix }

/-- What opens a comment does so in front of more text. -/
lemma Opens.append (h : Opens style content before rest) (suffix : Text) :
    Opens style (content ++ suffix) before (rest ++ suffix) := by
  cases h with
  | atStart hs => exact .atStart (hs.trans (List.prefix_append _ _))
  | onLine hs hc =>
    obtain ⟨x, rfl⟩ := hc.isPrefix
    obtain rfl := hc.eq
    -- The content is longer than the start token, so that the suffix cannot complete one there.
    rw [List.append_assoc, List.append_assoc]
    exact opens_of_firstCut hs hc (x ++ suffix)

/-- What closes a comment does so in front of more text. -/
lemma Closes.append {u : Text} (h : Closes [u] t token front after) (suffix : Text) :
    Closes [u] (t ++ suffix) token front (after ++ suffix) := by
  obtain rfl := List.mem_singleton.1 h.mem
  obtain rfl := h.cut.eq
  rw [List.append_assoc, List.append_assoc]
  exact ⟨h.cut.replaceTail (after ++ suffix), [], [], rfl, nofun⟩

/-- More text stands behind the block. -/
lemma text_append_after_followedBy (b : HeaderBlock) (suffix : Text) :
    (b.followedBy suffix).text ++ (b.followedBy suffix).after = b.text ++ b.after ++ suffix :=
  (List.append_assoc ..).symm

/-- A block that a single token can end is the block of every content that goes on behind it. -/
lemma locate_append (hstyle : style ≠ .line) (h : locate style content = .ok b) (suffix : Text) :
    locate style (content ++ suffix) = .ok (b.followedBy suffix) := by
  obtain ⟨inner, hl⟩ := exists_located h
  obtain ⟨token, htokens⟩ := CommentStyle.exists_endTokens_eq_singleton hstyle
  have hcloses := hl.closes
  rw [htokens] at hcloses
  have hl' : Located style (content ++ suffix) (b.followedBy suffix) inner := by
    refine ⟨?_, ?_, hl.text_eq⟩
    · rw [text_append_after_followedBy]
      exact hl.opens.append suffix
    · rw [text_append_after_followedBy, htokens]
      exact hcloses.append suffix
  exact hl'.locate_eq

end HeaderBlock

namespace Rewriting
open HeaderBlock

variable {options : ConversionOptions} {b : HeaderBlock} {e : ConversionError}

/-- The rewriting of a content that more text follows. -/
def followedBy (r : Rewriting) (suffix : Text) : Rewriting :=
  match r with
  | .alreadyNormalized => .alreadyNormalized
  | .changed content authors => .changed (content ++ suffix) authors

/-- What was found when the header had been located: tags, a line that is refused, or no license. -/
inductive ReadingError : ConversionError → Prop where
  | unrecognizedLicense (line : Text) : ReadingError (.unrecognizedLicense line)
  | unrecognizedCopyright (line : Text) : ReadingError (.unrecognizedCopyright line)
  | noLicense : ReadingError .noLicense

/-- A header that is refused was located. -/
lemma exists_of_readingError (he : ReadingError e) (h : ofContent style options content = .error e) :
    ∃ b, locate style content = .ok b := by
  cases hb : locate style content with
  | ok b => exact ⟨b, rfl⟩
  | error e' =>
    rw [ofContent, hb, error_bind] at h
    cases h
    unfold locate at hb
    split at hb
    · cases hb
      cases he
    · split at hb <;> cases hb
      cases he

/-- Where the block stays the same, what becomes of it does. -/
lemma ofContent_followedBy (hb : locate style content = .ok b)
    (hb' : locate style (content ++ suffix) = .ok (b.followedBy suffix)) :
    ofContent style options (content ++ suffix)
      = (ofContent style options content).map (·.followedBy suffix) := by
  obtain ⟨inner, hl⟩ := exists_located hb
  obtain ⟨inner', hl'⟩ := exists_located hb'
  unfold ofContent
  rw [hb, hb', ok_bind, ok_bind]
  cases hn : b.isNormalized with
  | true =>
    rw [show (b.followedBy suffix).isNormalized = true from hn, if_pos rfl, if_pos rfl]
    rfl
  | false =>
    rw [show (b.followedBy suffix).isNormalized = false from hn, if_neg Bool.false_ne_true,
      if_neg Bool.false_ne_true]
    change Attribution.parse options.keep b.text >>= _ = _
    cases ha : Attribution.parse options.keep b.text with
    | error e => rfl
    | ok a =>
      rw [ok_bind, ok_bind]
      dsimp only
      rw [hl.replaceFirst_text, hl'.replaceFirst_text]
      change Except.ok (Rewriting.changed (b.before ++ newHeader style b _ ++ (b.after ++ suffix)) _)
        = .ok (.changed (b.before ++ newHeader style b _ ++ b.after ++ suffix) _)
      rw [List.append_assoc _ b.after]

/-- In a style with a single end token, what follows a header has no say in what becomes of it. A
header that is replaced is replaced in the same way when more text follows, with the same authors;
one that holds tags is left alone; and one that is refused is refused for the same reason, which
names the same line. -/
theorem ofContent_append (hstyle : style ≠ .line) (options : ConversionOptions)
    (content suffix : Text) :
    (∀ content' authors, ofContent style options content = .ok (.changed content' authors) →
      ofContent style options (content ++ suffix) = .ok (.changed (content' ++ suffix) authors)) ∧
    (ofContent style options content = .ok .alreadyNormalized →
      ofContent style options (content ++ suffix) = .ok .alreadyNormalized) ∧
    ∀ e, ReadingError e → ofContent style options content = .error e →
      ofContent style options (content ++ suffix) = .error e := by
  have hsame {b : HeaderBlock} (hb : locate style content = .ok b) :
      ofContent style options (content ++ suffix)
        = (ofContent style options content).map (·.followedBy suffix) :=
    ofContent_followedBy hb (locate_append hstyle hb suffix)
  refine ⟨fun content' authors h => ?_, fun h => ?_, fun e he h => ?_⟩
  · obtain ⟨b, inner, a, hl, -⟩ := exists_of_changed h
    rw [hsame hl.locate_eq, h]
    rfl
  · obtain ⟨b, hb, -⟩ := ofContent_eq_alreadyNormalized_iff.1 h
    rw [hsame hb, h]
    rfl
  · obtain ⟨b, hb⟩ := exists_of_readingError he h
    rw [hsame hb, h]
    rfl

/-- A suffix with an end token and another header changes nothing: neither behind a header that is
replaced, nor behind one with tags, nor behind one without a license. -/
theorem ofContent_append_seam :
    let suffix : Text := "->\n<!--SPDX @license MIT-->"
    let content : Text := "<p>\n<!--@author Jo\n@license AGPL-3.0-or-later-->"
    let content' : Text := "<p>\n<!--\n  - SPDX-License-Identifier: AGPL-3.0-or-later\n-->"
    CommentStyle.markup ≠ .line ∧
      ofContent .markup {} content = .ok (.changed content' ["Jo"]) ∧
      ofContent .markup {} (content ++ suffix) = .ok (.changed (content' ++ suffix) ["Jo"]) ∧
      ofContent .markup {} "<!--SPDX-->" = .ok .alreadyNormalized ∧
      ofContent .markup {} ("<!--SPDX-->".toList ++ suffix) = .ok .alreadyNormalized ∧
      ReadingError .noLicense ∧ ofContent .markup {} "<!---->" = .error .noLicense ∧
      ofContent .markup {} ("<!---->".toList ++ suffix) = .error .noLicense := by
  intro suffix content content'
  have hstyle : CommentStyle.markup ≠ .line := by decide
  have hchanged : ofContent .markup {} content = .ok (.changed content' ["Jo"]) :=
    ofContent_of_parse (b := ⟨"<p>", "\n<!--@author Jo\n@license AGPL-3.0-or-later-->", [], "-->"⟩)
      (a := ⟨["Jo"], none, [], "AGPL-3.0-or-later"⟩) rfl rfl
      ((Attribution.parse_lineFeed _ _).trans rfl)
  have htagged : ofContent .markup {} "<!--SPDX-->" = .ok .alreadyNormalized := rfl
  have hunrelated : Attribution.meaning "<!---->" = .ok .unrelated :=
    Attribution.meaning_of_notMem (by simp [Attribution.leadChars]) (by decide +kernel)
      (by decide +kernel)
  have hrefused : ofContent .markup {} "<!---->" = .error .noLicense := by
    have hlocate : locate .markup "<!---->" = .ok ⟨[], "<!---->", [], "-->"⟩ := rfl
    have hlines : Text.lines "<!---->" = ["<!---->".toList] := rfl
    rw [ofContent, hlocate, ok_bind, if_neg (by decide), Attribution.parse]
    dsimp only
    rw [hlines, List.foldlM_cons, hunrelated]
    rfl
  exact ⟨hstyle, hchanged, (ofContent_append hstyle {} content suffix).1 _ _ hchanged, htagged,
    (ofContent_append hstyle {} "<!--SPDX-->" suffix).2.1 htagged, .noLicense, hrefused,
    (ofContent_append hstyle {} "<!---->" suffix).2.2 _ .noLicense hrefused⟩

-- What follows a comment of lines can hold the keyword that ends it.
example : locate .line ("// é\nclass A {}".toList ++ "\nimport B".toList)
    = .ok ⟨[], "// é\nclass A {}\nimport", " B", "import"⟩ := rfl

end Rewriting

end SpdxHeaders
