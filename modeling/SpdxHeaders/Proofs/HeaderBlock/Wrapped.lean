import SpdxHeaders.Proofs.HeaderBlock
import SpdxHeaders.Proofs.Text.Pieces

/-!
# Finding a wrapped comment again

A comment that was wrapped around lines is what is found where it was put, whatever surrounds it
(`locate_wrap`): no block begins across the line feed in front of it, and no end token stands across
one of its line feeds or across its end. The lines are those it was wrapped around
(`CommentStyle.linesOf_wrap`).
-/

namespace SpdxHeaders

open Text

namespace CommentStyle
variable {style : CommentStyle} {token : Text}

/-- The lines of a comment: of each piece between line feeds, what stands behind the lead. -/
def linesOf (style : CommentStyle) (t : Text) : List Text :=
  (pieces '\n' t).filterMap (after? style.lineLead)

/-- The first line of a wrapped comment, which holds the start token. -/
def firstLine : CommentStyle → Text
  | .block => "/**"
  | .markup => "<!--"
  | .line => "//"

/-- A comment opens with its first line and the lead of the next one. -/
lemma opening_eq (style : CommentStyle) :
    style.opening = style.firstLine ++ '\n' :: style.lineLead := by
  cases style <;> rfl

/-- The lead of a line is in one line. -/
lemma lineFeed_notMem_lineLead (style : CommentStyle) : '\n' ∉ style.lineLead := by
  cases style <;> decide

/-- A line feed between two texts separates their lines. -/
lemma linesOf_append_cons (a b : Text) :
    style.linesOf (a ++ '\n' :: b) = style.linesOf a ++ style.linesOf b := by
  rw [linesOf, pieces_append_cons, List.filterMap_append]
  rfl

/-- The lines that are joined with the lead in front of each. -/
lemma linesOf_join {lines : List Text} (hne : lines ≠ []) (h : ∀ l ∈ lines, '\n' ∉ l) :
    style.linesOf (style.lineLead ++ join style.separator lines) = lines := by
  have hafter (l : Text) : after? style.lineLead (style.lineLead ++ l) = some l :=
    after?_eq_some_iff.2 rfl
  rw [linesOf, separator_eq, pieces_join (lineFeed_notMem_lineLead style) hne h,
    List.filterMap_map]
  simp only [Function.comp_def, hafter, List.filterMap_some]

/-- The first line of a comment holds none of its lines. -/
lemma linesOf_firstLine (style : CommentStyle) : style.linesOf style.firstLine = [] := by
  cases style <;> decide

/-- The closing of a comment holds none of its lines. -/
lemma linesOf_closing (h : token ∈ style.endTokens) :
    style.linesOf (style.closingLead ++ token) = [] := by
  cases style <;> revert token <;> decide

/-- The lines of a wrapped comment are those it was wrapped around. -/
lemma linesOf_wrap (h : token ∈ style.endTokens) {lines : List Text} (hne : lines ≠ [])
    (hlines : ∀ l ∈ lines, '\n' ∉ l) : style.linesOf (style.wrap lines token) = lines := by
  rw [wrap_eq, closing_eq h, opening_eq, List.append_assoc, List.cons_append, linesOf_append_cons,
    ← List.append_assoc, linesOf_append_cons, linesOf_firstLine, linesOf_join hne hlines,
    linesOf_closing h, List.nil_append, List.append_nil]

end CommentStyle

namespace HeaderBlock
variable {style : CommentStyle} {token pre : Text}

/-- What a block begins with behind what stands in front of it: a line feed, if there is
anything. -/
def edge (pre : Text) : Text :=
  if pre = [] then [] else ['\n']

/-- A block begins behind a front in which none begins. -/
lemma opens_edge {rest : Text} (hrest : style.startToken <+: rest)
    (hpre : pre ≠ [] → ¬ style.startToken <+: pre ∧ ¬ '\n' :: style.startToken <:+: pre) :
    Opens style (pre ++ (edge pre ++ rest)) pre (edge pre ++ rest) := by
  have hfeed : '\n' ∉ style.startToken := by cases style <;> decide
  unfold edge
  split
  case isTrue hnil =>
    subst hnil
    exact .atStart hrest
  case isFalse hne =>
    obtain ⟨hstart, hline⟩ := hpre hne
    exact .onLine (mt (isPrefix_append_cons_iff hfeed).1 hstart)
      (.of_cons_notMem hfeed hline hrest)

/-- A wrapped comment is closed by its end token, unless a preferred one stands behind it. -/
lemma closes_wrap (h : token ∈ style.endTokens) {lines : List Text} {post : Text}
    (hlines : ∀ l ∈ lines, ∀ u ∈ style.endTokens, ¬ u <:+: l)
    (hpost : ∀ u ∈ style.preferredTo token, ¬ u <:+: post) :
    Closes style.endTokens (style.unclosed lines ++ (token ++ post)) token (style.unclosed lines)
      post := by
  obtain ⟨later, htokens⟩ := CommentStyle.exists_endTokens_eq h
  refine ⟨CommentStyle.firstCut_unclosed h (fun l hl => hlines l hl token h) post,
    style.preferredTo token, later, htokens, fun u hu => ?_⟩
  have hmem : u ∈ style.endTokens := by
    rw [htokens]
    exact List.mem_append_left _ hu
  -- Neither in a line nor behind the token, and a preferred token does not begin in this one.
  rw [CommentStyle.endToken_isInfix_unclosed hmem,
    (CommentStyle.clear_of_mem_preferredTo h hu).isInfix_iff, not_or, not_exists]
  exact ⟨fun l ⟨hl, hi⟩ => hlines l hl u hmem hi, hpost u hu⟩

/-- What keeps clear of the tokens in front of a text has no say in what closes the text. -/
lemma Closes.append_left {tokens : List Text} {lead t front after : Text}
    (h : Closes tokens t token front after) (hlead : ∀ u ∈ tokens, Clear u lead) :
    Closes tokens (lead ++ t) token (lead ++ front) after := by
  obtain ⟨l₁, l₂, e, hl⟩ := h.preferred
  refine ⟨h.cut.append_left (hlead token h.mem), l₁, l₂, e, fun u hu => ?_⟩
  rw [(hlead u (e ▸ List.mem_append_left _ hu)).isInfix_iff]
  exact hl u hu

/-- An end token does not begin in the edge of a comment. -/
lemma clear_edge (pre : Text) : ∀ u ∈ style.endTokens, Clear u (edge pre) := by
  unfold edge
  split <;> cases style <;> decide

/-- The edge of a comment holds none of its lines. -/
lemma linesOf_edge (pre t : Text) : style.linesOf (edge pre ++ t) = style.linesOf t := by
  unfold edge
  split
  case isTrue => rfl
  case isFalse =>
    have hnil : style.linesOf [] = [] := by cases style <;> decide
    rw [List.singleton_append, ← List.nil_append ('\n' :: t), CommentStyle.linesOf_append_cons,
      hnil, List.nil_append]

/-- A comment wrapped around lines without end tokens is the header block of every content it is put
into: behind a front in which no block begins, with a line feed between them if the front is not
empty, and in front of a text without an end token that is preferred to that of the comment. Its
lines are those it was wrapped around, if these are lines. -/
theorem locate_wrap {style : CommentStyle} {token : Text} {lines : List Text} {pre post : Text}
    (htoken : token ∈ style.endTokens) (hne : lines ≠ [])
    (hlines : ∀ l ∈ lines, ∀ u ∈ style.endTokens, ¬ u <:+: l)
    (hpre : pre ≠ [] → ¬ style.startToken <+: pre ∧ ¬ '\n' :: style.startToken <:+: pre)
    (hpost : ∀ u ∈ style.preferredTo token, ¬ u <:+: post) :
    ∃ b, locate style (pre ++ (edge pre ++ style.wrap lines token) ++ post) = .ok b ∧
      b.start = pre.byteLength ∧ b.endToken = token ∧
      b.text = edge pre ++ style.wrap lines token ∧ b.after = post ∧
      ((∀ l ∈ lines, '\n' ∉ l) → style.linesOf b.text = lines) := by
  have hwrap := CommentStyle.wrap_eq_unclosed lines htoken
  have hcontent : pre ++ (edge pre ++ style.wrap lines token) ++ post
      = pre ++ (edge pre ++ (style.unclosed lines ++ (token ++ post))) := by
    rw [hwrap]
    simp only [List.append_assoc]
  have hstart : style.startToken <+: style.unclosed lines ++ (token ++ post) := by
    rw [CommentStyle.unclosed, List.append_assoc]
    exact style.startToken_isPrefix_opening.trans (List.prefix_append _ _)
  have hcloses := (closes_wrap htoken hlines hpost).append_left (clear_edge pre)
  refine ⟨_, hcontent ▸ locate_of_opens (opens_edge hstart hpre) hcloses, rfl, rfl, ?_, rfl, ?_⟩
  · rw [hwrap, List.append_assoc]
  · intro hfeed
    rw [List.append_assoc, ← hwrap, linesOf_edge, CommentStyle.linesOf_wrap htoken hne hfeed]

/-- The comment ends with the keyword it was wrapped with, although another one follows. -/
theorem locate_wrap_protocol :
    let lines : List Text := ["SPDX-FileCopyrightText: 2020 Acmé", "two"]
    let header : Text := '\n' :: CommentStyle.line.wrap lines "protocol"
    let post : Text := " P {}\nclass C: P {}\n"
    (∀ u ∈ CommentStyle.line.preferredTo "protocol", ¬ u <:+: post) ∧
      ∃ b, locate .line ("é".toList ++ header ++ post) = .ok b ∧ b.start = 2 ∧
        b.endToken = "protocol".toList ∧ b.text = header ∧ b.after = post ∧
        CommentStyle.line.linesOf b.text = lines := by
  intro lines header post
  have hlines : ∀ l ∈ lines, ∀ u ∈ CommentStyle.line.endTokens, ¬ u <:+: l := by decide
  have hpost : ∀ u ∈ CommentStyle.line.preferredTo "protocol", ¬ u <:+: post := by decide
  obtain ⟨b, hb, hstart, htoken, htext, hafter, hrecovered⟩ :=
    @locate_wrap .line "protocol" lines "é" post (by decide) (List.cons_ne_nil _ _) hlines
      (by decide) hpost
  exact ⟨hpost, b, hb, hstart, htoken, htext, hafter, hrecovered (by decide)⟩

end HeaderBlock

end SpdxHeaders
