import SpdxHeaders.Ignore.RuleFile

/-!
# Layers of ignore rules

Each directory contributes a layer of rules for what is below it. A rule of a deeper layer counts
more, but `.ignore` files of all layers count more than `.gitignore` files, those more than
`.git/info/exclude` files, and the user's own rules count least.
-/

namespace SpdxHeaders

/-- The rules of a directory. -/
structure IgnoreLayer where
  /-- The directory. -/
  base : Location
  /-- The rules of `.ignore`. -/
  ignore : IgnoreFile
  /-- The rules of `.gitignore`. -/
  gitignore : IgnoreFile
  /-- The rules of `.git/info/exclude`. -/
  exclude : IgnoreFile

namespace IgnoreLayer

/-- The parts of the path from a directory to its `.ignore` file. -/
def ignoreParts : List Text := [".ignore"]

/-- The parts of the path from a directory to its `.gitignore` file. -/
def gitignoreParts : List Text := [".gitignore"]

/-- The parts of the path from a directory to its `.git/info/exclude` file. -/
def excludeParts : List Text := [".git", "info", "exclude"]

/-- The layer of a directory. -/
def read (t : FileTree) (dir : Location) : IgnoreLayer :=
  ⟨dir, .read t dir ignoreParts, .read t dir gitignoreParts, .read t dir excludeParts⟩

/-- What is wrong with the ignore files of a layer. -/
def messages (layer : IgnoreLayer) : List Text :=
  [(layer.ignore, ignoreParts), (layer.gitignore, gitignoreParts), (layer.exclude, excludeParts)].flatMap
    fun f => f.1.faults.map (·.message (Location.path (layer.base ++ f.2)))

/-- What one kind of ignore files says about a location: the first of the layers with a rule about
it decides. -/
def verdict? (kind : IgnoreLayer → IgnoreFile) (layers : List IgnoreLayer) (l : Location)
    (isDirectory : Bool) : Option IgnoreRule.Verdict :=
  layers.findSome? fun layer =>
    IgnoreRule.lastVerdict? (kind layer).rules (Path.ofNames (l.drop layer.base.length)) isDirectory

end IgnoreLayer

/-- All rules that hold in a directory. -/
structure IgnoreRules where
  /-- The layers of the directory and those above it, deepest first. -/
  layers : List IgnoreLayer
  /-- The user's own rules, for paths from the current directory. -/
  own : IgnoreFile

namespace IgnoreRules

/-- What the rules say about an entry, which is at a location and was reached by a path. -/
def verdict? (rules : IgnoreRules) (l : Location) (p : Path) (isDirectory : Bool) :
    Option IgnoreRule.Verdict :=
  IgnoreLayer.verdict? (·.ignore) rules.layers l isDirectory
    <|> IgnoreLayer.verdict? (·.gitignore) rules.layers l isDirectory
    <|> IgnoreLayer.verdict? (·.exclude) rules.layers l isDirectory
    <|> IgnoreRule.lastVerdict? rules.own.rules p isDirectory

/-- The rules, and those of a directory below. -/
def enter (rules : IgnoreRules) (t : FileTree) (dir : Location) : IgnoreRules :=
  { rules with layers := .read t dir :: rules.layers }

/-- A name is hidden if it begins with a dot. -/
def isHidden (name : Text) : Bool :=
  name.head? = some '.'

/-- An entry is skipped if it is ignored, or hidden and not admitted. -/
def skips (rules : IgnoreRules) (l : Location) (p : Path) (isDirectory : Bool) : Bool :=
  match rules.verdict? l p isDirectory with
  | some .ignored => true
  | some .admitted => false
  | none => (l.getLast?.map isHidden).getD false

end IgnoreRules

end SpdxHeaders
