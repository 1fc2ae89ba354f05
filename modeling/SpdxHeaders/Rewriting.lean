import SpdxHeaders.Attribution.Basic
import SpdxHeaders.HeaderBlock

/-!
# Rewriting a header

The content of a file with its header replaced by the SPDX tags that stand for it.
-/

namespace SpdxHeaders

/-- The choices of a conversion. -/
structure ConversionOptions where
  /-- The holder in the tag line that stands for all statements that are not kept. -/
  defaultHolder : Text := []
  /-- The holders whose statements are kept. -/
  keep : List Text := []
  /-- Nothing is written. -/
  dryRun : Bool := false
  deriving DecidableEq, Repr

/-- What rewriting makes of the content of a file. -/
inductive Rewriting where
  /-- The header holds tags already. -/
  | alreadyNormalized
  /-- The header was replaced; the authors are those it named. -/
  | changed (content : Text) (authors : List Text)
  deriving DecidableEq, Repr

namespace Rewriting

/-- The comment that takes the place of a header block. -/
def newHeader (style : CommentStyle) (b : HeaderBlock) (tagLines : List Text) : Text :=
  (if b.atFileStart then [] else ['\n']) ++ style.wrap tagLines b.endToken

/-- Replaces the header of a content by SPDX tags. -/
def ofContent (style : CommentStyle) (options : ConversionOptions) (content : Text) :
    Except ConversionError Rewriting := do
  let b ← HeaderBlock.locate style content
  if b.isNormalized then
    return .alreadyNormalized
  let a ← Attribution.parse options.keep b.text
  let header := newHeader style b (a.tagLines options.defaultHolder)
  return .changed (Text.replaceFirst b.text header content) a.authors

end Rewriting

end SpdxHeaders
