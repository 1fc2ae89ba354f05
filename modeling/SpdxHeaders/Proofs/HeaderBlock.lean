import SpdxHeaders.HeaderBlock
import SpdxHeaders.Proofs.CommentStyle

/-!
# Where the header block is

What `HeaderBlock.locate` finds, said without the search: `Opens` tells where a block begins and
`Closes` where it ends. The main facts:

* `splitStart?_eq_some_iff` and `splitEnd?_eq_some_iff`: the two searches find just that;
* `exists_located`: a located block opens and closes;
* `Located.firstCut`: the text of a located block occurs first where the block is;
* `Located.leading`: up to the line feed in front, a located block is the leading comment.
-/

namespace SpdxHeaders.HeaderBlock

/-- The header block of a content begins with `rest`, behind `before`. -/
inductive Opens (style : CommentStyle) (content : Text) : Text → Text → Prop where
  | atStart :
    style.startToken <+: content →
    Opens style content [] content
  | onLine {before rest} :
    ¬ style.startToken <+: content →
    Text.FirstCut ('\n' :: style.startToken) content before rest →
    Opens style content before rest

/-- The text ends a block with `token`, between `front` and `after`: of the tokens that occur in it
this is the first, and this is its first occurrence. -/
structure Closes (tokens : List Text) (t token front after : Text) : Prop where
  cut : Text.FirstCut token t front (token ++ after)
  preferred : ∃ l₁ l₂, tokens = l₁ ++ token :: l₂ ∧ ∀ u ∈ l₁, ¬ u <:+: t

/-- The block is the header block of a content, and `inner` is its text without the end token. -/
structure Located (style : CommentStyle) (content : Text) (b : HeaderBlock) (inner : Text) :
    Prop where
  opens : Opens style content b.before (b.text ++ b.after)
  closes : Closes style.endTokens (b.text ++ b.after) b.endToken inner b.after
  text_eq : b.text = inner ++ b.endToken

section Search
variable {style : CommentStyle} {content before rest : Text}

/-- The search for the start finds where the block begins. -/
lemma splitStart?_eq_some_iff :
    splitStart? style content = some (before, rest) ↔ Opens style content before rest := by
  by_cases hs : style.startToken <+: content
  · rw [splitStart?, if_pos (List.isPrefixOf_iff_prefix.2 hs)]
    constructor
    · intro h
      cases h
      exact .atStart hs
    · intro h
      cases h with
      | atStart => rfl
      | onLine hn => exact absurd hs hn
  · rw [splitStart?, if_neg (mt List.isPrefixOf_iff_prefix.1 hs), Text.cut?_eq_some_iff]
    constructor
    · exact .onLine hs
    · intro h
      cases h with
      | atStart h => exact absurd h hs
      | onLine _ h => exact h

/-- What closes a comment is one of the end tokens. -/
lemma Closes.mem {tokens : List Text} {t token front after : Text}
    (h : Closes tokens t token front after) : token ∈ tokens := by
  obtain ⟨l₁, l₂, rfl, -⟩ := h.preferred
  exact List.mem_append_right _ (List.mem_cons_self ..)

/-- The first of the tokens closes a text, or it does not occur and another one does. -/
lemma Closes.cons_iff {u : Text} {tokens : List Text} {t token front after : Text} :
    Closes (u :: tokens) t token front after ↔
      token = u ∧ Text.FirstCut u t front (u ++ after) ∨
      ¬ u <:+: t ∧ Closes tokens t token front after := by
  constructor
  · rintro ⟨hc, l₁, l₂, e, hl⟩
    cases l₁ with
    | nil =>
      obtain ⟨rfl, -⟩ := List.cons.inj e
      exact .inl ⟨rfl, hc⟩
    | cons w l₁ =>
      obtain ⟨rfl, rfl⟩ := List.cons.inj e
      exact .inr ⟨hl u (List.mem_cons_self ..), hc, l₁, l₂, rfl,
        fun v hv => hl v (List.mem_cons_of_mem _ hv)⟩
  · rintro (⟨rfl, hc⟩ | ⟨hu, hc, l₁, l₂, rfl, hl⟩)
    · exact ⟨hc, [], tokens, rfl, nofun⟩
    · refine ⟨hc, u :: l₁, l₂, rfl, fun v hv => ?_⟩
      rcases List.mem_cons.1 hv with rfl | hv
      · exact hu
      · exact hl v hv

/-- The search for the end finds the token that closes the text. -/
lemma splitEnd?_eq_some_iff {tokens : List Text} {t token front after : Text} :
    splitEnd? tokens t = some (token, front, after) ↔ Closes tokens t token front after := by
  induction tokens with
  | nil =>
    refine ⟨nofun, fun h => ?_⟩
    obtain ⟨l₁, l₂, e, -⟩ := h.preferred
    exact absurd e.symm (List.append_ne_nil_of_right_ne_nil _ (List.cons_ne_nil _ _))
  | cons u tokens ih =>
    rw [Closes.cons_iff, ← ih, splitEnd?]
    cases hc : Text.cut? u t with
    | none =>
      have hu := Text.cut?_eq_none_iff.1 hc
      constructor
      · exact fun h => .inr ⟨hu, h⟩
      · rintro (⟨rfl, hf⟩ | ⟨-, h⟩)
        · exact absurd ⟨front, after, by rw [hf.eq, List.append_assoc]⟩ hu
        · exact h
    | some p =>
      obtain ⟨front', rest⟩ := p
      have hf := Text.cut?_eq_some_iff.1 hc
      obtain ⟨after', rfl⟩ := hf.isPrefix
      simp only [List.drop_left, Option.some.injEq, Prod.mk.injEq]
      constructor
      · rintro ⟨rfl, rfl, rfl⟩
        exact .inl ⟨rfl, hf⟩
      · rintro (⟨rfl, hf'⟩ | ⟨hu, -⟩)
        · obtain ⟨rfl, e⟩ := hf.unique hf'
          exact ⟨rfl, rfl, List.append_cancel_left e⟩
        · exact absurd ⟨front', after', by rw [hf.eq, List.append_assoc]⟩ hu

/-- A text in which a token occurs is closed by some token. -/
lemma exists_closes {tokens : List Text} {t u : Text} (hu : u ∈ tokens) (h : u <:+: t) :
    ∃ token front after, Closes tokens t token front after := by
  induction tokens with
  | nil => cases hu
  | cons w tokens ih =>
    by_cases hw : w <:+: t
    · obtain ⟨front, rest, hc⟩ := Text.exists_firstCut hw
      obtain ⟨after, rfl⟩ := hc.isPrefix
      exact ⟨w, front, after, Closes.cons_iff.2 (.inl ⟨rfl, hc⟩)⟩
    · rcases List.mem_cons.1 hu with rfl | hu
      · exact absurd h hw
      · obtain ⟨token, front, after, hc⟩ := ih hu
        exact ⟨token, front, after, Closes.cons_iff.2 (.inr ⟨hw, hc⟩)⟩

/-- A content that a block begins in and whose rest is closed has a header block. -/
lemma locate_of_opens {token front after : Text} (ho : Opens style content before rest)
    (hc : Closes style.endTokens rest token front after) :
    locate style content = .ok ⟨before, front ++ token, after, token⟩ := by
  simp only [locate, splitStart?_eq_some_iff.2 ho, splitEnd?_eq_some_iff.2 hc]

end Search

section Located
variable {style : CommentStyle} {content : Text} {b : HeaderBlock} {inner : Text}

/-- A block that is found opens and closes. -/
lemma exists_located (h : locate style content = .ok b) :
    ∃ inner, Located style content b inner := by
  unfold locate at h
  split at h
  · cases h
  case h_2 before rest hs =>
    split at h
    · cases h
    case h_2 token front after he =>
      cases h
      have hc := splitEnd?_eq_some_iff.1 he
      have hr : front ++ token ++ after = rest := by rw [hc.cut.eq, List.append_assoc]
      refine ⟨front, ?_, ?_, rfl⟩
      · rw [hr]
        exact splitStart?_eq_some_iff.1 hs
      · rw [hr]
        exact hc

/-- A block that opens and closes is the one that is found. -/
lemma Located.locate_eq (h : Located style content b inner) : locate style content = .ok b := by
  rw [locate_of_opens h.opens h.closes, ← h.text_eq]

/-- The end token stands in the text of a located block at its end only. -/
lemma Located.onlyAtEnd (h : Located style content b inner) :
    Text.OnlyAtEnd b.endToken b.text := by
  rw [h.text_eq]
  exact h.closes.cut.onlyAtEnd

/-- What the block is cut from begins with a mark that holds no end token only if the block does. -/
lemma Located.mark_isPrefix {mark : Text} (h : Located style content b inner)
    (hm : mark <+: b.text ++ b.after) (hn : ¬ b.endToken <:+: mark) : mark <+: b.text := by
  rcases List.prefix_or_prefix_of_prefix hm (List.prefix_append b.text b.after) with hp | hp
  · exact hp
  · refine absurd (List.IsInfix.trans ?_ hp.isInfix) hn
    rw [h.text_eq]
    exact (List.suffix_append _ _).isInfix

/-- The text of a located block begins with the start token, behind a line feed if the block does
not open the content. -/
lemma Located.startToken_isPrefix (h : Located style content b inner) :
    b.before = [] ∧ content = b.text ++ b.after ∧ style.startToken <+: b.text ∨
      ¬ style.startToken <+: content ∧
        Text.FirstCut ('\n' :: style.startToken) content b.before (b.text ++ b.after) ∧
        ('\n' :: style.startToken) <+: b.text := by
  have hn := CommentStyle.not_endToken_isInfix h.closes.mem
  have ho := h.opens
  generalize hb : b.before = before at ho ⊢
  generalize hr : b.text ++ b.after = rest at ho ⊢
  cases ho with
  | atStart hs =>
    refine .inl ⟨rfl, rfl, h.mark_isPrefix (hr ▸ hs) fun hi => hn ?_⟩
    exact hi.trans (List.suffix_cons _ _).isInfix
  | onLine hs hc => exact .inr ⟨hs, hc, h.mark_isPrefix (hr ▸ hc.isPrefix) hn⟩

/-- The text of a located block occurs first where the block is. -/
lemma Located.firstCut (h : Located style content b inner) :
    Text.FirstCut b.text content b.before (b.text ++ b.after) := by
  rcases h.startToken_isPrefix with ⟨hb, e, -⟩ | ⟨-, hc, hp⟩
  · rw [hb, ← e]
    exact .start (e ▸ List.prefix_append _ _)
  · exact hc.extend hp (List.prefix_append _ _)

/-- Replacing the text of a located block keeps what surrounds the block. -/
lemma Located.replaceFirst_text (h : Located style content b inner) (new : Text) :
    Text.replaceFirst b.text new content = b.before ++ new ++ b.after :=
  Text.replaceFirst_eq h.firstCut new

end Located

section Leading

/-- A text that ends where a line begins: empty, or with a line feed at its end. -/
def EndsLine (front : Text) : Prop :=
  front = [] ∨ ∃ f, front = f ++ ['\n']

/-- The leading comment of a content, which stands between `front` and `back`. It begins with the
first start token at the beginning of a line, and ends with the token that closes it. -/
structure LeadingComment (style : CommentStyle) (content front comment back token : Text) :
    Prop where
  eq : content = front ++ comment ++ back
  opens : style.startToken <+: comment
  endsLine : EndsLine front
  first : ∀ front' rest' : Text, content = front' ++ rest' → EndsLine front' →
    style.startToken <+: rest' → front.length ≤ front'.length
  closes : ∃ inner, comment = inner ++ token ∧
    Closes style.endTokens (comment ++ back) token inner back

variable {style : CommentStyle} {content : Text} {b : HeaderBlock} {inner : Text}

/-- What closes a text behind its first character closes what follows that character. -/
lemma Closes.of_cons {tokens : List Text} {t token front after : Text} {c : Char}
    (h : Closes tokens (c :: t) token (c :: front) after) : Closes tokens t token front after := by
  obtain ⟨l₁, l₂, e, hl⟩ := h.preferred
  refine ⟨h.cut.of_cons, l₁, l₂, e, fun u hu hi => hl u hu ?_⟩
  exact hi.trans (List.suffix_cons _ _).isInfix

/-- Up to the line feed in front, a located block is the leading comment. -/
lemma Located.leading (h : Located style content b inner) :
    ∃ front comment, LeadingComment style content front comment b.after b.endToken ∧
      (front = [] ∧ b.before = [] ∧ b.text = comment ∨
        front = b.before ++ ['\n'] ∧ b.text = '\n' :: comment) := by
  rcases h.startToken_isPrefix with ⟨hb, e, hp⟩ | ⟨hs, hc, hp⟩
  · refine ⟨[], b.text, ⟨e, hp, .inl rfl, ?_, inner, h.text_eq, h.closes⟩, .inl ⟨rfl, hb, rfl⟩⟩
    exact fun _ _ _ _ _ => Nat.zero_le _
  · obtain ⟨z, hz⟩ := hp
    have hclose := h.closes
    have htext := h.text_eq
    rw [← hz] at hclose htext
    -- The end token holds no line feed, so the line feed in front is not a part of it.
    obtain ⟨inner', rfl⟩ : ∃ inner', inner = '\n' :: inner' := by
      cases inner with
      | nil =>
        refine absurd ?_ (CommentStyle.lineFeed_notMem_endToken h.closes.mem)
        rw [← List.nil_append b.endToken, ← htext]
        exact List.mem_cons_self ..
      | cons c inner' =>
        obtain ⟨rfl, -⟩ := List.cons.inj htext
        exact ⟨inner', rfl⟩
    obtain ⟨-, htext⟩ := List.cons.inj htext
    refine ⟨b.before ++ ['\n'], style.startToken ++ z, ?_, .inr ⟨rfl, hz.symm⟩⟩
    refine ⟨?_, List.prefix_append _ _, .inr ⟨_, rfl⟩, ?_, inner', htext, hclose.of_cons⟩
    · rw [hc.eq, ← hz]
      simp only [List.append_assoc, List.cons_append, List.nil_append]
    · rintro front' rest' e (rfl | ⟨f, rfl⟩) hr
      · exact absurd (e ▸ hr) hs
      · have hle := hc.least f ('\n' :: rest') (by rw [e, List.append_assoc]; rfl)
          (List.cons_prefix_cons.2 ⟨rfl, hr⟩)
        rw [List.length_append, List.length_append]
        exact Nat.add_le_add_right hle 1

end Leading

end SpdxHeaders.HeaderBlock
