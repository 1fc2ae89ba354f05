import SpdxHeaders.CommentStyle
import SpdxHeaders.Proofs.Text.Occurrence

/-!
# Tokens and wrapped comments

A wrapped comment is its opening, its lines with a separator between them, and its closing
(`CommentStyle.wrap_eq`), which ends with the end token (`CommentStyle.wrap_eq_unclosed`). No end
token begins in what the style puts around the lines, so one that stands in the comment in front of
its end stands in a line (`CommentStyle.endToken_isInfix_unclosed`). The other facts are about the
tokens of the styles, all of them fixed texts.
-/

namespace SpdxHeaders

/-- The texts joined begin with the first. -/
lemma Text.isPrefix_join (sep l : Text) (ls : List Text) : l <+: Text.join sep (l :: ls) := by
  cases ls with
  | nil =>
    rw [Text.join, List.intercalate_singleton]
  | cons l' ls =>
    rw [Text.join, List.intercalate_cons_cons, List.append_assoc]
    exact List.prefix_append _ _

/-- A needle that keeps clear of what the texts are joined with occurs in one of them or behind
them. -/
lemma Text.isInfix_join_cons_iff {needle lead : Text} {c : Char} (hc : c ∉ needle)
    (hlead : Clear needle lead) {ls : List Text} {x : Text} :
    needle <:+: join (c :: lead) ls ++ c :: x ↔ (∃ l ∈ ls, needle <:+: l) ∨ needle <:+: x := by
  induction ls with
  | nil =>
    rw [isInfix_append_cons_iff hc, join, List.intercalate_nil, List.infix_nil]
    simp only [List.not_mem_nil, false_and, exists_false, false_or, or_iff_right_iff_imp]
    rintro rfl
    exact List.nil_infix
  | cons l ls ih =>
    cases ls with
    | nil =>
      rw [join, List.intercalate_singleton, isInfix_append_cons_iff hc]
      simp
    | cons l' ls =>
      rw [join] at ih
      rw [join, List.intercalate_cons_cons, List.append_assoc, List.append_assoc, List.cons_append,
        isInfix_append_cons_iff hc, hlead.isInfix_iff, ih]
      simp only [List.exists_mem_cons_iff, or_assoc]

namespace CommentStyle

/-- What a wrapped comment begins with, up to its first line. -/
def opening : CommentStyle → Text
  | .block => "/**\n * "
  | .markup => "<!--\n  - "
  | .line => "//\n// "

/-- What stands between the lines of a wrapped comment. -/
def separator : CommentStyle → Text
  | .block => "\n * "
  | .markup => "\n  - "
  | .line => "\n// "

/-- What a wrapped comment ends with, behind its last line. -/
def closing : CommentStyle → Text → Text
  | .block, _ => "\n */"
  | .markup, _ => "\n-->"
  | .line, token => "\n//\n\n".toList ++ token

/-- The parts of a wrapped comment. -/
lemma wrap_eq (style : CommentStyle) (lines : List Text) (token : Text) :
    style.wrap lines token
      = style.opening ++ (Text.join style.separator lines ++ style.closing token) := by
  cases style with
  | block => exact List.append_assoc ..
  | markup => exact List.append_assoc ..
  | line =>
    rw [← List.append_assoc]
    exact List.append_assoc ..

/-- The start token begins what a wrapped comment begins with. -/
lemma startToken_isPrefix_opening (style : CommentStyle) : style.startToken <+: style.opening := by
  cases style <;> decide

variable {style : CommentStyle} {token : Text}

/-- What a wrapped comment ends with holds the end token. -/
lemma endToken_isInfix_closing (h : token ∈ style.endTokens) : token <:+: style.closing token := by
  cases style with
  | block =>
    obtain rfl := List.mem_singleton.1 h
    decide
  | markup =>
    obtain rfl := List.mem_singleton.1 h
    decide
  | line => exact (List.suffix_append _ _).isInfix

/-- No end token is a part of a start token with the line feed in front of it. -/
lemma not_endToken_isInfix (h : token ∈ style.endTokens) :
    ¬ token <:+: '\n' :: style.startToken := by
  cases style <;> revert token <;> decide

/-- No end token holds a line feed. -/
lemma lineFeed_notMem_endToken (h : token ∈ style.endTokens) : '\n' ∉ token := by
  cases style <;> revert token <;> decide

/-- No end token holds a blank or an opening bracket. -/
lemma notMem_endToken (h : token ∈ style.endTokens) : ' ' ∉ token ∧ '<' ∉ token := by
  cases style <;> revert token <;> decide

/-- No end token is a number. -/
lemma exists_not_isDigit (h : token ∈ style.endTokens) : ∃ c ∈ token, c.isDigit = false := by
  have hany : token.any (fun c => !c.isDigit) = true := by
    cases style <;> revert token <;> decide
  simpa using hany

/-- An end token has characters. -/
lemma endToken_ne_nil (h : token ∈ style.endTokens) : token ≠ [] := by
  cases style <;> revert token <;> decide

/-- Only the end token of a markup comment ends with a closing bracket. -/
lemma endToken_eq_concat_iff (h : token ∈ style.endTokens) {t : Text} :
    token = t ++ ['>'] ↔ style = .markup ∧ t = "--" := by
  have hmarkup : "-->".toList = "--".toList ++ ['>'] := rfl
  constructor
  · rintro rfl
    cases style with
    | markup => exact ⟨rfl, List.append_cancel_right ((List.mem_singleton.1 h).trans hmarkup)⟩
    | _ =>
      refine absurd (List.mem_append_right t (List.mem_singleton_self '>')) ?_
      revert h
      generalize t ++ ['>'] = token
      revert token
      decide
  · rintro ⟨rfl, rfl⟩
    exact List.mem_singleton.1 h

/-- A closing bracket behind a text that does not hold an end token can complete one only in a
markup comment. -/
lemma endToken_isInfix_concat_iff (h : token ∈ style.endTokens) {t : Text}
    (ht : ¬ token <:+: t) : token <:+: t ++ ['>'] ↔ style = .markup ∧ "--".toList <:+ t := by
  rw [List.infix_concat_iff, or_iff_left ht, List.suffix_concat_iff,
    or_iff_right (endToken_ne_nil h)]
  simp only [endToken_eq_concat_iff h, and_assoc, exists_and_left, exists_eq_left]

section Unclosed

/-- What the lines of a wrapped comment stand behind. -/
def lineLead : CommentStyle → Text
  | .block => " * "
  | .markup => "  - "
  | .line => "// "

/-- Lines of a comment are separated by a line feed and what leads in each line. -/
lemma separator_eq (style : CommentStyle) : style.separator = '\n' :: style.lineLead := by
  cases style <;> rfl

/-- What stands between the line feed behind the last line of a wrapped comment and the end
token. -/
def closingLead : CommentStyle → Text
  | .block => " "
  | .markup => ""
  | .line => "//\n\n"

/-- A wrapped comment ends with its end token. -/
lemma closing_eq (h : token ∈ style.endTokens) :
    style.closing token = '\n' :: (style.closingLead ++ token) := by
  cases style with
  | block =>
    obtain rfl := List.mem_singleton.1 h
    rfl
  | markup =>
    obtain rfl := List.mem_singleton.1 h
    rfl
  | line => rfl

/-- A wrapped comment up to its end token. -/
def unclosed (style : CommentStyle) (lines : List Text) : Text :=
  style.opening ++ (Text.join style.separator lines ++ '\n' :: style.closingLead)

/-- A comment is what there is of it in front of its end token, and the token. -/
lemma wrap_eq_unclosed (lines : List Text) (h : token ∈ style.endTokens) :
    style.wrap lines token = style.unclosed lines ++ token := by
  rw [wrap_eq, closing_eq h]
  simp only [unclosed, List.append_assoc, List.cons_append]

/-- No end token begins in what a wrapped comment begins with. -/
lemma endToken_clear_opening (h : token ∈ style.endTokens) : Text.Clear token style.opening := by
  cases style <;> revert token <;> decide

/-- No end token begins in what a line of a wrapped comment stands behind. -/
lemma endToken_clear_lineLead (h : token ∈ style.endTokens) : Text.Clear token style.lineLead := by
  cases style <;> revert token <;> decide

/-- No end token begins in what the end token of a wrapped comment stands behind. -/
lemma endToken_clear_closingLead (h : token ∈ style.endTokens) :
    Text.Clear token style.closingLead := by
  cases style <;> revert token <;> decide

/-- The end tokens that are preferred to a token: those in front of it. -/
def preferredTo (style : CommentStyle) (token : Text) : List Text :=
  style.endTokens.takeWhile (· ≠ token)

/-- In front of an end token stand those that are preferred to it. -/
lemma exists_endTokens_eq (h : token ∈ style.endTokens) :
    ∃ later, style.endTokens = style.preferredTo token ++ token :: later :=
  Text.exists_eq_takeWhile_append h

/-- No end token begins in one that it is preferred to. -/
lemma clear_of_mem_preferredTo {u : Text} (h : token ∈ style.endTokens)
    (hu : u ∈ style.preferredTo token) : Text.Clear u token := by
  revert u
  cases style <;> revert token <;> decide

/-- An end token stands in a wrapped comment that is not closed, or behind it, just if it stands in
one of the lines or behind the comment. -/
lemma endToken_isInfix_unclosed (h : token ∈ style.endTokens) {lines : List Text} {x : Text} :
    token <:+: style.unclosed lines ++ x ↔ (∃ l ∈ lines, token <:+: l) ∨ token <:+: x := by
  rw [unclosed, List.append_assoc, List.append_assoc, (endToken_clear_opening h).isInfix_iff,
    separator_eq, List.cons_append,
    Text.isInfix_join_cons_iff (lineFeed_notMem_endToken h) (endToken_clear_lineLead h),
    (endToken_clear_closingLead h).isInfix_iff]

/-- A wrapped comment that is not closed ends with a character that no end token holds. -/
lemma exists_unclosed_eq (style : CommentStyle) (lines : List Text) :
    ∃ a c, style.unclosed lines = a ++ [c] ∧ ∀ token ∈ style.endTokens, c ∉ token := by
  obtain ⟨a, c, e, hc⟩ : ∃ a c, '\n' :: style.closingLead = a ++ [c] ∧
      ∀ token ∈ style.endTokens, c ∉ token := by
    cases style with
    | block => exact ⟨['\n'], ' ', rfl, by decide⟩
    | markup => exact ⟨[], '\n', rfl, by decide⟩
    | line => exact ⟨"\n//\n".toList, '\n', rfl, by decide⟩
  refine ⟨style.opening ++ (Text.join style.separator lines ++ a), c, ?_, hc⟩
  rw [unclosed, e]
  simp only [List.append_assoc]

/-- An end token that does not stand in a line stands first behind the comment that is not
closed. -/
lemma firstCut_unclosed (h : token ∈ style.endTokens) {lines : List Text}
    (hlines : ∀ l ∈ lines, ¬ token <:+: l) (x : Text) :
    Text.FirstCut token (style.unclosed lines ++ (token ++ x)) (style.unclosed lines)
      (token ++ x) := by
  have hout : ¬ token <:+: style.unclosed lines := by
    rw [← List.append_nil (style.unclosed lines), endToken_isInfix_unclosed h, List.infix_nil]
    rintro (⟨l, hl, hi⟩ | hnil)
    · exact hlines l hl hi
    · exact endToken_ne_nil h hnil
  obtain ⟨a, c, e, hc⟩ := exists_unclosed_eq style lines
  rw [e] at hout ⊢
  rw [List.append_assoc]
  exact .of_notMem (hc token h) (fun hi => hout (hi.trans (List.prefix_append _ _).isInfix)) x

end Unclosed

end CommentStyle

end SpdxHeaders
