import SpdxHeaders.Proofs.Attribution.EndToken
import SpdxHeaders.Proofs.HeaderBlock.Wrapped
import SpdxHeaders.Proofs.Rewriting.Refusal

/-!
# Where a new header ends

The lines of a header block are read with the end token that closes the last of them. So the end
token can get into the entries for the list of authors and into the statements that are kept, and
with these into the new header, which then ends too early. `endToken_leaks` tells of every entry and
of every kept statement whether it holds the end token, and of the new header whether it is one
closed comment; `header_closed_early` is a header that is not.
-/

namespace SpdxHeaders

open Text HeaderBlock

namespace Attribution
variable {style : CommentStyle} {content : Text} {b : HeaderBlock} {inner line : Text}
  {keep : List Text} {a : Attribution}

/-- An entry that is read in a line of a block holds the end token just if it leaks. -/
lemma isInfix_entry_iff_leaks (h : Located style content b inner) (hline : line ∈ b.text.lines)
    {m : LineMeaning} {entry : Text} (hm : meaning line = .ok m) (hentry : m.entry? = some entry) :
    b.endToken <:+: entry ↔ Leaks style b.endToken line m :=
  endToken_isInfix_entry_iff hm hentry h.closes.mem
    (h.onlyAtEnd.of_isInfix (isInfix_of_mem_lines hline)) (lineFeed_notMem_of_mem_lines hline)

/-- The tag line of a statement in a line of a block holds the end token just if it leaks. -/
lemma isInfix_tagLine_iff_leaks (h : Located style content b inner) (hline : line ∈ b.text.lines)
    {s : Statement} (hm : meaning line = .ok (.copyright s)) :
    b.endToken <:+: s.tagLine ↔ Leaks style b.endToken line (.copyright s) := by
  rw [← isInfix_entry_iff_leaks h hline hm rfl]
  exact endToken_isInfix_dated_iff h.closes.mem

/-- The entries with the end token are those that take it in from a line. -/
lemma mem_authors_isInfix_iff (h : Located style content b inner) (ha : parse keep b.text = .ok a)
    {entry : Text} : entry ∈ a.authors ∧ b.endToken <:+: entry ↔
      ∃ line ∈ b.text.lines, ∃ m, meaning line = .ok m ∧ m.entry? = some entry ∧
        Leaks style b.endToken line m := by
  rw [mem_authors_iff ha]
  constructor
  · rintro ⟨⟨line, hline, m, hm, hentry⟩, hin⟩
    exact ⟨line, hline, m, hm, hentry, (isInfix_entry_iff_leaks h hline hm hentry).1 hin⟩
  · rintro ⟨line, hline, m, hm, hentry, hleaks⟩
    exact ⟨⟨line, hline, m, hm, hentry⟩, (isInfix_entry_iff_leaks h hline hm hentry).2 hleaks⟩

/-- The kept tag lines with the end token are those that take it in from a line. -/
lemma mem_preserved_isInfix_iff (h : Located style content b inner)
    (ha : parse keep b.text = .ok a) {kept : Text} : kept ∈ a.preserved ∧ b.endToken <:+: kept ↔
      ∃ line ∈ b.text.lines, ∃ s, meaning line = .ok (.copyright s) ∧
        Preservation.isPreserved keep s.holder = true ∧ s.tagLine = kept ∧
        Leaks style b.endToken line (.copyright s) := by
  rw [mem_preserved_iff ha]
  constructor
  · rintro ⟨⟨line, hline, s, hm, hkept, rfl⟩, hin⟩
    exact ⟨line, hline, s, hm, hkept, rfl, (isInfix_tagLine_iff_leaks h hline hm).1 hin⟩
  · rintro ⟨line, hline, s, hm, hkept, rfl, hleaks⟩
    exact ⟨⟨line, hline, s, hm, hkept, rfl⟩, (isInfix_tagLine_iff_leaks h hline hm).2 hleaks⟩

/-- With a default holder without the end token, the tag lines hold it only in what is kept. -/
lemma forall_tagLines_iff (h : Located style content b inner) (ha : parse keep b.text = .ok a)
    {defaultHolder : Text} (hholder : ¬ b.endToken <:+: defaultHolder) :
    (∀ l ∈ a.tagLines defaultHolder, ¬ b.endToken <:+: l) ↔
      ∀ kept ∈ a.preserved, ¬ b.endToken <:+: kept := by
  rw [tagLines_eq]
  constructor
  · intro hlines kept hkept
    exact hlines kept (List.mem_append_left _ (mem_copyrightLines_iff.2 (.inr hkept)))
  · intro hpreserved l hl
    rcases List.mem_append.1 hl with hl | hl
    · rcases mem_copyrightLines_iff.1 hl with ⟨year, -, rfl⟩ | hl
      · rw [sharedLine, endToken_isInfix_dated_iff h.closes.mem]
        exact hholder
      · exact hpreserved l hl
    · obtain rfl := List.mem_singleton.1 hl
      obtain ⟨line, -, hm⟩ := exists_license_of_parse ha
      obtain ⟨needle, hrule, -⟩ := declares_of_meaning hm
      exact not_endToken_isInfix_licenseLine h.closes.mem hrule

end Attribution

namespace Rewriting
variable {style : CommentStyle} {content : Text} {b : HeaderBlock} {inner : Text}

/-- The new header is a wrapped comment behind its edge. -/
lemma newHeader_eq (style : CommentStyle) (b : HeaderBlock) (lines : List Text) :
    newHeader style b lines = edge b.before ++ style.wrap lines b.endToken := by
  unfold newHeader edge atFileStart
  cases b.before <;> rfl

/-- A new header holds the end token at its end only just if none of its lines holds it. -/
lemma exists_occursOnce_newHeader_iff (h : b.endToken ∈ style.endTokens) {lines : List Text} :
    (∃ body, OccursOnce b.endToken (newHeader style b lines) body []) ↔
      ∀ l ∈ lines, ¬ b.endToken <:+: l := by
  rw [newHeader_eq, CommentStyle.wrap_eq_unclosed lines h, ← List.append_assoc, occursOnce_end_iff]
  constructor
  · intro hcut l hl hin
    have hunclosed : b.endToken <:+: style.unclosed lines := by
      rw [← List.append_nil (style.unclosed lines), CommentStyle.endToken_isInfix_unclosed h]
      exact .inl ⟨l, hl, hin⟩
    exact hcut.not_isInfix (CommentStyle.endToken_ne_nil h)
      (hunclosed.trans (List.suffix_append _ _).isInfix)
  · intro hlines
    have hcut := CommentStyle.firstCut_unclosed h hlines []
    rw [List.append_nil] at hcut
    rw [List.append_assoc]
    exact hcut.append_left (clear_edge b.before b.endToken h)

/-- Of a header that is located and read, the entries for the list of authors and the kept tag
lines hold the end token that take it in from a line: an author or a holder without a contact from
the end of the last line, a contact where its brackets complete the end of a markup comment. With a
default holder without the end token, the new header that is written is one closed comment, whose
only end token is its end, just if no kept tag line holds the end token. -/
theorem endToken_leaks {style : CommentStyle} {options : ConversionOptions} {content : Text}
    {b : HeaderBlock} {a : Attribution} (hb : locate style content = .ok b)
    (ha : Attribution.parse options.keep b.text = .ok a) :
    (∀ entry, entry ∈ a.authors ∧ b.endToken <:+: entry ↔
      ∃ line ∈ b.text.lines, ∃ m, Attribution.meaning line = .ok m ∧ m.entry? = some entry ∧
        Attribution.Leaks style b.endToken line m) ∧
    (∀ kept, kept ∈ a.preserved ∧ b.endToken <:+: kept ↔
      ∃ line ∈ b.text.lines, ∃ s, Attribution.meaning line = .ok (.copyright s) ∧
        Preservation.isPreserved options.keep s.holder = true ∧ s.tagLine = kept ∧
        Attribution.Leaks style b.endToken line (.copyright s)) ∧
    (b.isNormalized = false → ¬ b.endToken <:+: options.defaultHolder →
      let header := newHeader style b (a.tagLines options.defaultHolder)
      ofContent style options content
          = .ok (.changed (b.before ++ header ++ b.after) a.authors) ∧
        ((∃ body, OccursOnce b.endToken header body []) ↔
          ∀ kept ∈ a.preserved, ¬ b.endToken <:+: kept)) := by
  obtain ⟨inner, hl⟩ := exists_located hb
  refine ⟨fun _ => Attribution.mem_authors_isInfix_iff hl ha,
    fun _ => Attribution.mem_preserved_isInfix_iff hl ha, fun hn hholder => ?_⟩
  refine ⟨ofContent_of_parse hb hn ha, ?_⟩
  rw [exists_occursOnce_newHeader_iff hl.closes.mem, Attribution.forall_tagLines_iff hl ha hholder]

/-- A contact in parentheses that the angle brackets complete to the end of a markup comment. -/
theorem endToken_leaks_contact :
    let line : Text := "<!-- @copyright Copyright (c) 2020 Jo (j--)"
    let content : Text := line ++ "\n@license AGPL-3.0 -->\n".toList
    let options : ConversionOptions := ⟨"Acme", ["jo"], false⟩
    let b : HeaderBlock := ⟨[], line ++ "\n@license AGPL-3.0 -->".toList, "\n", "-->"⟩
    let kept : Text := "SPDX-FileCopyrightText: 2020 Jo <j-->"
    let a : Attribution := ⟨["Jo <j-->"], none, [kept], "AGPL-3.0-only"⟩
    locate .markup content = .ok b ∧ Attribution.parse options.keep b.text = .ok a ∧
      (∃ line ∈ b.text.lines, ∃ m, Attribution.meaning line = .ok m ∧
        m.entry? = some "Jo <j-->".toList ∧ Attribution.Leaks .markup b.endToken line m) ∧
      (∃ line ∈ b.text.lines, ∃ s, Attribution.meaning line = .ok (.copyright s) ∧
        s.tagLine = kept ∧ Attribution.Leaks .markup b.endToken line (.copyright s)) ∧
      ¬ ∃ body, OccursOnce b.endToken (newHeader .markup b (a.tagLines options.defaultHolder))
        body [] := by
  intro line content options b kept a
  have hb : locate .markup content = .ok b := rfl
  have ha : Attribution.parse options.keep b.text = .ok a := by decide +kernel
  have hkept : kept ∈ a.preserved ∧ b.endToken <:+: kept := by decide
  obtain ⟨hauthors, hpreserved, hheader⟩ := endToken_leaks hb ha
  obtain ⟨line', hline, s, hm, -, hs, hleaks⟩ := (hpreserved kept).1 hkept
  have honce := (hheader rfl (by decide)).2
  exact ⟨hb, ha, (hauthors "Jo <j-->").1 (by decide), ⟨line', hline, s, hm, hs, hleaks⟩,
    fun h => honce.1 h kept hkept.1 hkept.2⟩

/-- A holder in the last line takes in the end token, which closes the new header behind its first
line. -/
theorem header_closed_early :
    let content : Text := "/* @license AGPL-3.0\n * @copyright Copyright (c) 2020 Acme*/\n"
    let options : ConversionOptions := ⟨"Foo", ["Acme"], false⟩
    let header : Text :=
      "/**\n * SPDX-FileCopyrightText: 2020 Acme*/\n * SPDX-License-Identifier: AGPL-3.0-only\n */"
    ∃ b a, locate .block content = .ok b ∧ Attribution.parse options.keep b.text = .ok a ∧
      (∃ entry ∈ a.authors, b.endToken <:+: entry) ∧
      (∃ kept ∈ a.preserved, b.endToken <:+: kept) ∧
      '\n' ∉ options.defaultHolder ∧ ¬ b.endToken <:+: options.defaultHolder ∧
      ofContent .block options content = .ok (.changed (header ++ "\n".toList) a.authors) ∧
      ¬ ∃ body, OccursOnce b.endToken header body [] := by
  intro content options header
  have hb : locate .block content
    = .ok ⟨[], "/* @license AGPL-3.0\n * @copyright Copyright (c) 2020 Acme*/", "\n", "*/"⟩ := rfl
  have ha : Attribution.parse options.keep
      "/* @license AGPL-3.0\n * @copyright Copyright (c) 2020 Acme*/"
    = .ok ⟨["Acme*/"], none, ["SPDX-FileCopyrightText: 2020 Acme*/"], "AGPL-3.0-only"⟩ := by
    decide +kernel
  refine ⟨_, _, hb, ha, by decide, by decide, by decide, by decide, ?_, ?_⟩
  · exact (ofContent_of_parse hb rfl ha).trans rfl
  · rintro ⟨body, honce⟩
    -- The first end token stands in the copyright line, so it is not the last one.
    have hfirst : header = "/**\n * SPDX-FileCopyrightText: 2020 Acme".toList ++ "*/".toList
        ++ "\n * SPDX-License-Identifier: AGPL-3.0-only\n */".toList := rfl
    exact absurd (honce.eq_parts hfirst).2 (by decide)

end Rewriting

end SpdxHeaders
