import SpdxHeaders.Text.Lowercase

/-!
# Preserved holders

A list of texts names the copyright holders whose statements are kept as they are. The texts are
joined with commas to a single needle, which is looked for without regard to case.
-/

namespace SpdxHeaders.Preservation

/-- The needle of a list of texts; an empty list has none and preserves nobody. -/
def needle? : List Text → Option Text
  | [] => none
  | texts => some (Text.join "," texts).lowercase

/-- The statements of the holder are kept. -/
def isPreserved (texts : List Text) (holder : Text) : Bool :=
  match needle? texts with
  | some needle => Text.contains needle holder.lowercase
  | none => false

end SpdxHeaders.Preservation
