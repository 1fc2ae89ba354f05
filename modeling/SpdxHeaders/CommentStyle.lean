import SpdxHeaders.Text.Basic

/-!
# Comment styles

The ways a header comment is written: its start token, the tokens that end it, and how tag lines
are wrapped into a comment of the style.
-/

namespace SpdxHeaders

/-- A way to write a header comment. -/
inductive CommentStyle where
  /-- A block from `/*` to `*/`. -/
  | block
  /-- A markup comment from `<!--` to `-->`. -/
  | markup
  /-- Lines that begin with `//`, up to the keyword of a declaration. -/
  | line
  deriving DecidableEq, Repr

namespace CommentStyle

/-- The token that opens a comment. -/
def startToken : CommentStyle → Text
  | .block => "/*"
  | .markup => "<!--"
  | .line => "//"

/-- The tokens that end a comment, the preferred one first. A comment of lines has no token of its
own and ends with the declaration that follows it. -/
def endTokens : CommentStyle → List Text
  | .block => ["*/"]
  | .markup => ["-->"]
  | .line => ["import", "extension", "protocol", "@objcMembers", "class"]

/-- A comment that holds the lines. The end token of a comment of lines belongs to the code, so it
is put back behind the comment. -/
def wrap (style : CommentStyle) (lines : List Text) (endToken : Text) : Text :=
  match style with
  | .block => "/**\n * ".toList ++ Text.join "\n * " lines ++ "\n */".toList
  | .markup => "<!--\n  - ".toList ++ Text.join "\n  - " lines ++ "\n-->".toList
  | .line => "//\n// ".toList ++ Text.join "\n// " lines ++ "\n//\n\n".toList ++ endToken

end CommentStyle

end SpdxHeaders
