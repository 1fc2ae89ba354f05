import SpdxHeaders.Text.Basic

/-!
# Paths

A path is kept as it is spelled, and compared by its components: empty parts and parts `.` do not
count, unless a relative path begins with `.`.
-/

namespace SpdxHeaders

/-- A path as it is spelled. -/
abbrev Path := Text

namespace Path

/-- A component of a path. -/
inductive Component where
  /-- The `/` an absolute path begins with. -/
  | root
  /-- A `.` at the start of a relative path. -/
  | current
  /-- The parent directory, `..`. -/
  | parent
  /-- The name of an entry. -/
  | name (n : Text)
  deriving DecidableEq, Repr

/-- The spelling of a component. -/
def Component.spelling : Component → Text
  | .root => "/"
  | .current => "."
  | .parent => ".."
  | .name n => n

/-- The component that a part between slashes stands for. -/
def Component.ofPart? : Text → Option Component
  | [] => none
  | ['.'] => none
  | ['.', '.'] => some .parent
  | n => some (.name n)

/-- The components of a path without a `/` or `.` at its start. -/
def parts (p : Path) : List Component :=
  (Text.pieces '/' p).filterMap Component.ofPart?

/-- The components of a path. -/
def components (p : Path) : List Component :=
  match p with
  | '/' :: rest => .root :: parts rest
  | ['.'] => [.current]
  | '.' :: '/' :: rest => .current :: parts rest
  | _ => parts p

/-- The path made of names. -/
def ofNames (names : List Text) : Path :=
  Text.join "/" names

/-- The path begins with `/`. -/
def isAbsolute (p : Path) : Bool :=
  p.head? == some '/'

/-- The path `p` as seen from the directory `base`. -/
def join (base p : Path) : Path :=
  if p.isAbsolute then p
  else if base.isEmpty || base.getLast? == some '/' then base ++ p
  else base ++ '/' :: p

/-- The components of `base` are the first components of the path. -/
def startsWith (p base : Path) : Bool :=
  base.components.isPrefixOf p.components

/-- The name of the entry a path leads to. -/
def fileName? (p : Path) : Option Text :=
  match p.components.getLast? with
  | some (.name n) => some n
  | _ => none

/-- What follows the last dot of a name, unless that dot is the first character. -/
def extensionOfName? (n : Text) : Option Text :=
  match n.reverse.dropWhile (· ≠ '.') with
  | [] | ['.'] => none
  | _ => some (n.reverse.takeWhile (· ≠ '.')).reverse

/-- The extension of the entry a path leads to, empty if it has none. -/
def extension (p : Path) : Text :=
  (p.fileName?.bind extensionOfName?).getD []

end Path

end SpdxHeaders
