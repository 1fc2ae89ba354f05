import SpdxHeaders.CommentStyle
import SpdxHeaders.Path
import SpdxHeaders.Settings

/-!
# Routing

What is done with a file, as decided by its extension first and its location second.
-/

namespace SpdxHeaders

/-- What is done with a file. -/
inductive Route where
  /-- Its header is rewritten as a comment of the style. -/
  | rewrite (style : CommentStyle)
  /-- It belongs to somebody else and stays as it is. -/
  | vendored
  /-- It needs no header. -/
  | ignorable
  /-- It is not even reported. -/
  | exempt
  /-- Nothing is known about its kind. -/
  | unhandled
  deriving DecidableEq, Repr

namespace Route

/-- The files that share a comment style and the markers of vendored code. -/
inductive Family where
  /-- Sources and style sheets. -/
  | source
  /-- Scripts. -/
  | script
  /-- Markup. -/
  | markup
  /-- Sources with comments of lines. -/
  | lineSource
  deriving DecidableEq, Repr

/-- An extension of a script: `ts` or `js`, with `m` or `c` in front or without. -/
def isScript (extension : Text) : Bool :=
  match extension with
  | [m, t, s] => (m = 'm' || m = 'c') && (t = 't' || t = 'j') && s = 's'
  | [t, s] => (t = 't' || t = 'j') && s = 's'
  | _ => false

/-- The family of an extension. -/
def family? (extension : Text) : Option Family :=
  if (["php", "css", "scss", "m", "h"] : List Text).contains extension then some .source
  else if isScript extension then some .script
  else if (["vue", "html"] : List Text).contains extension then some .markup
  else if extension = "swift".toList then some .lineSource
  else none

/-- The path from the root of the walk, with `/` in front so that a marker `/a/` is found at the top
level too. -/
def anchored (p : Path) : Text :=
  '/' :: Text.join "/" (p.components.map Path.Component.spelling)

/-- Rewrites files of a style unless a marker of vendored code is in their path. -/
def rewriteOutside (markers : List Text) (style : CommentStyle) (path : Text) : Route :=
  if markers.any (Text.contains · path) then .vendored else .rewrite style

/-- What is done with a file of no family. -/
def other (settings : Settings) (path : Text) : Route :=
  if settings.ignorableSuffixes.any (·.isSuffixOf path) then .ignorable
  else if "/l10n/".toList.isPrefixOf path && ".json".toList.isSuffixOf path
      || settings.exemptions.any (Text.contains · path) then .exempt
  else .unhandled

/-- What is done with the file at a path below the root of the walk. -/
def ofPath (settings : Settings) (p : Path) : Route :=
  match family? p.extension with
  | some .source => rewriteOutside settings.vendorMarkers .block (anchored p)
  | some .script => rewriteOutside settings.scriptVendorMarkers .block (anchored p)
  | some .markup => rewriteOutside settings.scriptVendorMarkers .markup (anchored p)
  | some .lineSource => .rewrite .line
  | none => other settings (anchored p)

end Route

end SpdxHeaders
