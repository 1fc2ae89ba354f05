import SpdxHeaders.Proofs.HeaderBlock
import SpdxHeaders.Proofs.Text.Offsets

/-!
# Between which bytes the header block lies

A content has a header block just if a start token stands at its beginning or behind a line feed,
and one of the end tokens stands at this place or behind it. The block is told by byte offsets:
`StartsAt` for where it starts, `EndsAt` for the end token and where this stands, and `Spans` for
both. `HeaderBlock.locate` gives just this block, and if there is none it tells which of the two
tokens is missing (`locate_extent`).
-/

namespace SpdxHeaders.HeaderBlock

open Text

/-- A block of the content starts at the offset: at the beginning if the content begins with the
start token, and else at the first line feed in front of a start token. -/
def StartsAt (style : CommentStyle) (content : Text) (o : Nat) : Prop :=
  MatchesAt style.startToken content 0 ∧ o = 0 ∨
    ¬ MatchesAt style.startToken content 0 ∧
      IsLeast {p | MatchesAt ('\n' :: style.startToken) content p} o

/-- The token ends a block that starts at `o`, and stands at `p`: of the end tokens in their order
it is the first that stands at `o` or behind it, and `p` is the first place where it does. -/
structure EndsAt (style : CommentStyle) (content : Text) (o : Nat) (token : Text) (p : Nat) :
    Prop where
  preferred : ∃ l₁ l₂, style.endTokens = l₁ ++ token :: l₂ ∧
    ∀ u ∈ l₁, ∀ q ≥ o, ¬ MatchesAt u content q
  first : IsLeast {q | o ≤ q ∧ MatchesAt token content q} p

/-- The block is cut out of the content from where a block starts to behind the token that ends
it. -/
structure Spans (style : CommentStyle) (content : Text) (b : HeaderBlock) : Prop where
  eq : content = b.before ++ b.text ++ b.after
  starts : StartsAt style content b.start
  ends : ∃ p, EndsAt style content b.start b.endToken p ∧
    p + b.endToken.byteLength = b.start + b.text.byteLength

variable {style : CommentStyle} {content before rest token u : Text} {b : HeaderBlock} {o : Nat}

section Start

/-- A start token has characters. -/
lemma startToken_ne_nil (style : CommentStyle) : style.startToken ≠ [] := by
  cases style <;> decide

/-- A block starts where a search for it finds its beginning. -/
lemma startsAt_iff (he : content = before ++ rest) :
    StartsAt style content before.byteLength ↔ Opens style content before rest := by
  rw [StartsAt, matchesAt_zero_iff (startToken_ne_nil style),
    ← firstCut_iff_isLeast (List.cons_ne_nil _ _) he]
  constructor
  · rintro (⟨hs, hzero⟩ | ⟨hs, hc⟩)
    · have hnil : before ++ rest = [] ++ content := he.symm
      obtain ⟨rfl, rfl⟩ := eq_of_byteLength hnil hzero
      exact .atStart hs
    · exact .onLine hs hc
  · intro h
    cases h with
    | atStart hs => exact .inl ⟨hs, rfl⟩
    | onLine hs hc => exact .inr ⟨hs, hc⟩

/-- Where a block starts, a search finds the beginning of one. -/
lemma StartsAt.exists_opens (h : StartsAt style content o) :
    ∃ before rest, content = before ++ rest ∧ before.byteLength = o ∧
      Opens style content before rest := by
  obtain ⟨before, rest, he, rfl⟩ : IsBoundary content o := by
    rcases h with ⟨-, rfl⟩ | ⟨-, hleast⟩
    · exact ⟨[], content, rfl, rfl⟩
    · exact (hleast.1.isBoundary (List.cons_ne_nil _ _)).1
  exact ⟨before, rest, he, rfl, (startsAt_iff he).1 h⟩

/-- What stands in front of a comment and what it begins are the content. -/
lemma eq_of_opens (h : Opens style content before rest) : content = before ++ rest :=
  eq_of_splitStart? (splitStart?_eq_some_iff.2 h)

/-- No block begins in a content without a start token at the beginning of a line. -/
lemma splitStart?_eq_none_iff :
    splitStart? style content = none ↔
      ¬ style.startToken <+: content ∧ ¬ '\n' :: style.startToken <:+: content := by
  rw [splitStart?, ← List.isPrefixOf_iff_prefix, ← cut?_eq_none_iff]
  split <;> simp_all

end Start

section End

/-- The bytes of a token stand behind a front just if the token occurs in what follows it. -/
lemma exists_matchesAt_behind_iff (hu : u ≠ []) (before rest : Text) :
    (∃ q ≥ before.byteLength, MatchesAt u (before ++ rest) q) ↔ u <:+: rest := by
  rw [← exists_matchesAt_iff hu]
  constructor
  · rintro ⟨q, hq, hmatch⟩
    obtain ⟨q, rfl⟩ := Nat.exists_eq_add_of_le hq
    exact ⟨q, matchesAt_append_iff.1 hmatch⟩
  · rintro ⟨q, hmatch⟩
    exact ⟨_, Nat.le_add_right _ q, matchesAt_append_iff.2 hmatch⟩

/-- The least offset behind a front is the least offset in what follows it. -/
lemma isLeast_behind_iff {q : Nat} :
    IsLeast {q | before.byteLength ≤ q ∧ MatchesAt u (before ++ rest) q} (before.byteLength + q) ↔
      IsLeast {q | MatchesAt u rest q} q := by
  constructor
  · rintro ⟨⟨-, hmatch⟩, hleast⟩
    refine ⟨matchesAt_append_iff.1 hmatch, fun p hp => ?_⟩
    exact Nat.le_of_add_le_add_left
      (hleast ⟨Nat.le_add_right _ p, matchesAt_append_iff.2 hp⟩)
  · rintro ⟨hmatch, hleast⟩
    refine ⟨⟨Nat.le_add_right _ q, matchesAt_append_iff.2 hmatch⟩, fun p ⟨hle, hp⟩ => ?_⟩
    obtain ⟨p, rfl⟩ := Nat.exists_eq_add_of_le hle
    exact Nat.add_le_add_left (hleast (matchesAt_append_iff.1 hp)) _

/-- A token ends a block where it closes what follows the front. -/
lemma endsAt_iff {front after : Text} (he : rest = front ++ (token ++ after))
    (hm : token ∈ style.endTokens) :
    EndsAt style (before ++ rest) before.byteLength token (before.byteLength + front.byteLength) ↔
      Closes style.endTokens rest token front after := by
  have hcut := firstCut_iff_isLeast (CommentStyle.endToken_ne_nil hm) he
  have hnot {u : Text} (hu : u ∈ style.endTokens) :
      (∀ q ≥ before.byteLength, ¬ MatchesAt u (before ++ rest) q) ↔ ¬ u <:+: rest := by
    rw [← exists_matchesAt_behind_iff (CommentStyle.endToken_ne_nil hu) before]
    simp only [not_exists, not_and]
  constructor
  · rintro ⟨⟨l₁, l₂, htokens, hl⟩, hfirst⟩
    refine ⟨hcut.2 (isLeast_behind_iff.1 hfirst), l₁, l₂, htokens, fun u hu => ?_⟩
    exact (hnot (htokens ▸ List.mem_append_left _ hu)).1 (hl u hu)
  · rintro ⟨hfirst, l₁, l₂, htokens, hl⟩
    refine ⟨⟨l₁, l₂, htokens, fun u hu => ?_⟩, isLeast_behind_iff.2 (hcut.1 hfirst)⟩
    exact (hnot (htokens ▸ List.mem_append_left _ hu)).2 (hl u hu)

end End

section Locate

/-- A block spans from where a block starts to behind its end just if it opens and closes. -/
lemma spans_iff : Spans style content b ↔ ∃ inner, Located style content b inner := by
  constructor
  · rintro ⟨he, hstarts, p, hends, hp⟩
    rw [List.append_assoc] at he
    subst he
    obtain ⟨l₁, l₂, htokens, -⟩ := hends.preferred
    have hm : b.endToken ∈ style.endTokens :=
      htokens ▸ List.mem_append_right _ List.mem_cons_self
    -- The end token stands in the text of the block or behind it, and the offsets add up.
    obtain ⟨q, rfl⟩ := Nat.exists_eq_add_of_le hends.first.1.1
    obtain ⟨inner, after, he, rfl⟩ :=
      (matchesAt_iff (CommentStyle.endToken_ne_nil hm)).1 (matchesAt_append_iff.1 hends.first.1.2)
    have hlength : b.text.byteLength = (inner ++ b.endToken).byteLength := by
      rw [byteLength_append]
      unfold start at hp
      omega
    obtain ⟨htext, rfl⟩ := eq_of_byteLength he hlength
    rw [List.append_assoc] at he
    exact ⟨inner, (startsAt_iff rfl).1 hstarts, (endsAt_iff he hm).1 hends, htext⟩
  · rintro ⟨inner, hl⟩
    obtain rfl := eq_of_opens hl.opens
    refine ⟨(List.append_assoc ..).symm, (startsAt_iff rfl).2 hl.opens,
      b.before.byteLength + inner.byteLength,
      (endsAt_iff hl.closes.cut.eq hl.closes.mem).2 hl.closes, ?_⟩
    rw [hl.text_eq, byteLength_append, Nat.add_assoc]
    rfl

/-- The search finds the header block of a content, and nothing else. -/
lemma exists_located_iff :
    (∃ inner, Located style content b inner) ↔ locate style content = .ok b :=
  ⟨fun ⟨_, h⟩ => h.locate_eq, exists_located⟩

/-- The end token does not stand in the text of a block in front of its end. -/
lemma Located.end_of_matchesAt {inner : Text} {q : Nat} (h : Located style content b inner)
    (hq : MatchesAt b.endToken b.text q) : q + b.endToken.byteLength = b.text.byteLength := by
  obtain ⟨front, rest, he, rfl⟩ :=
    (matchesAt_iff (CommentStyle.endToken_ne_nil h.closes.mem)).1 hq
  obtain rfl := h.onlyAtEnd front rest he
  rw [he, List.append_nil, byteLength_append]

/-- There is no header just if there is no start token. -/
lemma locate_eq_noHeader_iff :
    locate style content = .error .noHeader ↔ splitStart? style content = none := by
  unfold locate
  split
  case h_1 hnone => simp [hnone]
  case h_2 hsome =>
    rw [hsome]
    split <;> simp

/-- No token ends a text just if none of them occurs in it. -/
lemma splitEnd?_eq_none_iff {tokens : List Text} {t : Text} :
    splitEnd? tokens t = none ↔ ∀ u ∈ tokens, ¬ u <:+: t := by
  constructor
  · intro hnone u hu hi
    obtain ⟨token, front, after, hc⟩ := exists_closes hu hi
    cases hnone.symm.trans (splitEnd?_eq_some_iff.2 hc)
  · intro hnone
    rw [Option.eq_none_iff_forall_ne_some]
    rintro ⟨token, front, after⟩ hsome
    have hc := splitEnd?_eq_some_iff.1 hsome
    exact hnone token hc.mem ⟨front, after, by rw [hc.cut.eq, List.append_assoc]⟩

/-- A header has no end just if no end token follows its start. -/
lemma locate_eq_noHeaderEnd_iff :
    locate style content = .error .noHeaderEnd ↔ ∃ before rest,
      Opens style content before rest ∧ ∀ u ∈ style.endTokens, ¬ u <:+: rest := by
  simp only [← splitStart?_eq_some_iff, ← splitEnd?_eq_none_iff]
  unfold locate
  split
  case h_1 hnone => simp [hnone]
  case h_2 before rest hsome =>
    split <;> simp [*]

/-- A content has no header block if it neither begins with the start token nor has one behind a
line feed, or if no end token stands where the block starts or behind that place. Otherwise the
block spans from there to behind the first end token; it starts and ends between two characters,
and its text holds the end token at its end only. -/
theorem locate_extent (style : CommentStyle) (content : Text) :
    (locate style content = .error .noHeader ↔
      ¬ MatchesAt style.startToken content 0 ∧
        ∀ o, ¬ MatchesAt ('\n' :: style.startToken) content o) ∧
    (locate style content = .error .noHeaderEnd ↔
      ∃ o, StartsAt style content o ∧
        ∀ u ∈ style.endTokens, ∀ q ≥ o, ¬ MatchesAt u content q) ∧
    ∀ b, locate style content = .ok b ↔
      Spans style content b ∧ MatchesAt b.text content b.start ∧
        IsBoundary content b.start ∧ IsBoundary content (b.start + b.text.byteLength) ∧
        ∀ q, MatchesAt b.endToken b.text q → q + b.endToken.byteLength = b.text.byteLength := by
  refine ⟨?_, ?_, fun b => ?_⟩
  · rw [locate_eq_noHeader_iff, splitStart?_eq_none_iff,
      matchesAt_zero_iff (startToken_ne_nil style), ← exists_matchesAt_iff (List.cons_ne_nil _ _),
      not_exists]
  · rw [locate_eq_noHeaderEnd_iff]
    constructor
    · rintro ⟨before, rest, ho, hnone⟩
      obtain rfl := eq_of_opens ho
      refine ⟨_, (startsAt_iff rfl).2 ho, fun u hu q hq hmatch => hnone u hu ?_⟩
      exact (exists_matchesAt_behind_iff (CommentStyle.endToken_ne_nil hu) before rest).1
        ⟨q, hq, hmatch⟩
    · rintro ⟨o, hstarts, hnone⟩
      obtain ⟨before, rest, rfl, rfl, ho⟩ := hstarts.exists_opens
      refine ⟨before, rest, ho, fun u hu hi => ?_⟩
      obtain ⟨q, hq, hmatch⟩ :=
        (exists_matchesAt_behind_iff (CommentStyle.endToken_ne_nil hu) before rest).2 hi
      exact hnone u hu q hq hmatch
  · rw [← exists_located_iff, spans_iff]
    constructor
    · rintro ⟨inner, hl⟩
      have he := (content_of_locate hl.locate_eq)
      refine ⟨⟨inner, hl⟩, ?_, ⟨b.before, _, he.trans (List.append_assoc ..), rfl⟩,
        ⟨_, b.after, he, byteLength_append _ _⟩, fun q => hl.end_of_matchesAt⟩
      rw [he]
      exact matchesAt_front b.before b.text b.after
    · exact fun h => h.1

-- The keyword that is preferred closes the block, although another one stands in front of it.
example : locate .line "// é\n// class notes\nimport UIKit\n"
    = .ok ⟨[], "// é\n// class notes\nimport", " UIKit\n", "import"⟩ := rfl

end Locate

end SpdxHeaders.HeaderBlock
