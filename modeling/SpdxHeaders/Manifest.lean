import SpdxHeaders.Glob.Matching
import SpdxHeaders.Glob.Parser
import SpdxHeaders.Path
import SpdxHeaders.Text.Blank

/-!
# Manifests

A manifest lists files that carry no header in lines that begin with `Files: `. An entry with a `*`
is a glob without regard to case; any other entry stands for a path and all that is below it.
-/

namespace SpdxHeaders

/-- The paths that a manifest excludes. -/
structure Manifest where
  /-- The globs of the manifest. -/
  globs : List Glob := []
  /-- The paths of the manifest, without slashes at their ends. -/
  paths : List Path := []
  deriving Repr

namespace Manifest

/-- The entries of a manifest: the words of its lines `Files: `, the first of each line left out. -/
def entries (content : Text) : List Text :=
  (content.lines.filter ("Files: ".toList.isPrefixOf ·)).flatMap fun line => (Text.words line).drop 1

/-- An entry without the `./` in front of it. -/
def fromRoot : Text → Text
  | '.' :: '/' :: entry => fromRoot entry
  | entry => entry

/-- Why a manifest cannot be used: an entry with a `*` is not a glob. -/
structure Fault where
  /-- The entry. -/
  entry : Text
  /-- What is wrong with it. -/
  cause : Glob.Fault
  deriving DecidableEq, Repr

/-- The wording of a fault. -/
def Fault.message (fault : Fault) : Text :=
  "Invalid dep5 glob: ".toList ++ fault.entry ++ ": ".toList ++ fault.cause.message fault.entry

/-- The manifest with a single entry. -/
def ofEntry (entry : Text) : Except Fault Manifest :=
  if List.elem '*' entry then
    match Glob.ofPattern .strict true entry with
    | .ok glob => .ok { globs := [glob] }
    | .error cause => .error ⟨entry, cause⟩
  else .ok { paths := [Text.dropEndWhile (· = '/') entry] }

/-- The manifest with the given entries; of those at fault the first is reported. -/
def ofEntries (entries : List Text) : Except Fault Manifest := do
  let parts ← entries.mapM fun entry => ofEntry (fromRoot entry)
  return ⟨parts.flatMap Manifest.globs, parts.flatMap Manifest.paths⟩

/-- The path, as seen from the root, is excluded. -/
def excludes (m : Manifest) (p : Path) : Bool :=
  m.globs.any (·.isMatch p) || m.paths.any (p.startsWith ·)

end Manifest

end SpdxHeaders
