import SpdxHeaders.CommentStyle
import SpdxHeaders.Error

/-!
# The header block

The header block of a file is its first comment that opens the file or stands at the start of a
line. `HeaderBlock.locate` splits the content of a file into the block and what surrounds it, and
the parts make up the content again (`HeaderBlock.content_of_locate`).
-/

namespace SpdxHeaders

/-- The leading comment of a file, with the text on both sides of it. A block that does not open
the file begins with the line feed in front of its start token. -/
structure HeaderBlock where
  /-- What stands in front of the block. -/
  before : Text
  /-- The block, its end token included. -/
  text : Text
  /-- What stands behind the block. -/
  after : Text
  /-- The token that ended the block. -/
  endToken : Text
  deriving DecidableEq, Repr

namespace HeaderBlock

/-- The number of bytes in front of the block. -/
def start (b : HeaderBlock) : Nat :=
  b.before.byteLength

/-- Nothing stands in front of the block. -/
def atFileStart (b : HeaderBlock) : Bool :=
  b.before.isEmpty

/-- The block holds tags already. -/
def isNormalized (b : HeaderBlock) : Bool :=
  Text.contains "SPDX" b.text

/-- The parts of a content in front of its header block and from the block on. -/
def splitStart? (style : CommentStyle) (content : Text) : Option (Text × Text) :=
  if style.startToken.isPrefixOf content then some ([], content)
  else Text.cut? ('\n' :: style.startToken) content

/-- The first of the tokens, in their order, that occurs in the text, with the parts of the text in
front of its first occurrence and behind it. -/
def splitEnd? : List Text → Text → Option (Text × Text × Text)
  | [], _ => none
  | token :: tokens, t =>
    match Text.cut? token t with
    | some (front, rest) => some (token, front, rest.drop token.length)
    | none => splitEnd? tokens t

/-- What stands in front of a start token and what begins with it are the content. -/
theorem eq_of_splitStart? {style : CommentStyle} {content before rest : Text}
    (h : splitStart? style content = some (before, rest)) : content = before ++ rest := by
  unfold splitStart? at h
  split at h
  · simp_all
  · exact Text.eq_of_cut? h

/-- What is in front of an end token, the token and what follows it are the text. -/
theorem eq_of_splitEnd? {tokens : List Text} {t token front after : Text}
    (h : splitEnd? tokens t = some (token, front, after)) : t = front ++ token ++ after := by
  induction tokens with
  | nil => simp [splitEnd?] at h
  | cons u tokens ih =>
    unfold splitEnd? at h
    split at h
    case h_1 front' rest hc =>
      obtain ⟨tail, rfl⟩ := Text.isPrefix_of_cut? hc
      simp only [List.drop_left, Option.some.injEq, Prod.mk.injEq] at h
      obtain ⟨rfl, rfl, rfl⟩ := h
      simp [Text.eq_of_cut? hc]
    · exact ih h

/-- Finds the header block of a content. The end token is looked for from the start token on. -/
def locate (style : CommentStyle) (content : Text) : Except ConversionError HeaderBlock :=
  match splitStart? style content with
  | none => .error .noHeader
  | some (before, rest) =>
    match splitEnd? style.endTokens rest with
    | none => .error .noHeaderEnd
    | some (token, front, after) => .ok ⟨before, front ++ token, after, token⟩

/-- The block and what is on either side of it are the content. -/
theorem content_of_locate {style : CommentStyle} {content : Text} {b : HeaderBlock}
    (h : locate style content = .ok b) : content = b.before ++ b.text ++ b.after := by
  unfold locate at h
  split at h
  · cases h
  case h_2 before rest hs =>
    split at h
    · cases h
    case h_2 token front after he =>
      cases h
      simp [eq_of_splitStart? hs, eq_of_splitEnd? he]

end HeaderBlock

end SpdxHeaders
