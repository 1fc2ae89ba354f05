import SpdxHeaders.Ignore.Layer
import SpdxHeaders.Ignore.UserRules
import SpdxHeaders.Manifest
import SpdxHeaders.Notice

/-!
# Collecting files

The files below a root are met one directory after the other, in the order of names. Ignored
directories are not entered, and the files that the manifest excludes are left out.

The walk may change what is in the files while it goes on, so it is a fold over a state that shows
the file tree: the rules of a directory are read when it is entered.
-/

namespace SpdxHeaders

/-- What is met on a walk. -/
inductive WalkEvent where
  /-- A file, by the names that lead to it from the root. -/
  | file (names : List Text)
  /-- A file that the manifest excludes. -/
  | excluded (names : List Text)
  /-- Something that cannot be read. -/
  | unreadable (description : Text)
  deriving DecidableEq, Repr

/-- How the files below a root are collected. -/
structure Collector where
  /-- The root. -/
  root : Path
  /-- The directories that are not entered, by name or by path from the root. -/
  ignored : List Text
  /-- The files that are left out. -/
  manifest : Manifest

namespace Collector

/-- The path of the manifest below the root. -/
def manifestPath : Path :=
  ".reuse/dep5"

/-- Why files cannot be collected. -/
inductive Fault where
  /-- The manifest cannot be read. -/
  | unreadable (p : Path) (fault : AccessFault)
  /-- The manifest cannot be used. -/
  | manifest (fault : Manifest.Fault)
  deriving DecidableEq, Repr

/-- The wording of a fault. -/
def Fault.message : Fault → Text
  | .unreadable p fault => "Failed to read ".toList ++ p ++ ": ".toList ++ fault.message
  | .manifest fault => fault.message

/-- The entries of the manifest below a root, none if there is no manifest. -/
def manifestEntries (t : FileTree) (root : Path) : Except Fault (List Text) :=
  let p := Path.join root manifestPath
  if t.isFile p then
    match t.readText p with
    | .ok content => .ok (Manifest.entries content)
    | .error fault => .error (.unreadable p fault)
  else .ok []

/-- An entry for an ignored directory without the slashes around it. -/
def trimSlashes (dir : Text) : Text :=
  Text.dropEndWhile (· = '/') (dir.dropWhile (· = '/'))

/-- What is told about the entries of a manifest. -/
def manifestNotices (entries : List Text) : List Notice :=
  if entries.isEmpty then []
  else
    [⟨.debug, .collection,
      "Excluding ".toList ++ Text.ofNat entries.length ++ " dep5 path entries".toList⟩]

/-- The collector for a root with its manifest, and what is told while it is made. -/
def prepare (t : FileTree) (root : Path) (ignoredDirs : List Text) :
    List Notice × Except Fault Collector :=
  match manifestEntries t root with
  | .error fault => ([], .error fault)
  | .ok entries =>
    (manifestNotices entries,
      match Manifest.ofEntries entries with
      | .ok manifest => .ok ⟨root, ignoredDirs.map trimSlashes, manifest⟩
      | .error fault => .error (.manifest fault))

/-- A directory is not entered if an ignored entry is its name or its path from the root. A name
that is not UTF-8 counts as empty. -/
def prunes (c : Collector) (t : FileTree) (names : List Text) : Bool :=
  c.ignored.any fun dir =>
    names.getLast?.map t.nameText = some dir || Path.components dir = names.map .name

/-- The path of what names lead to from the root. -/
def pathOf (c : Collector) (names : List Text) : Path :=
  if names.isEmpty then c.root else Path.join c.root (Path.ofNames names)

/-- What a file is met as. -/
def event (c : Collector) (names : List Text) : WalkEvent :=
  if c.manifest.excludes (Path.ofNames names) then .excluded names else .file names

/-- The path of an entry from the current directory, as the user's own rules see it. -/
def pathFromHere (t : FileTree) (p : Path) : Path :=
  (Text.after? (Path.join t.here.path []) p).getD p

section Fold
variable {σ : Type} (view : σ → FileTree) (visit : σ → WalkEvent → σ)

/-- Walks the directory that names lead to from the start, with the rules that hold in it. -/
def foldBelow (c : Collector) (start : Location) :
    (depth : Nat) → IgnoreRules → (names : List Text) → σ → σ
  | 0, _, _, s => s
  | depth + 1, rules, names, s =>
    let t := view s
    let dir := start ++ names
    let rules := rules.enter t dir
    (t.names dir).foldl
      (fun s name =>
        let names := names ++ [name]
        let l := start ++ names
        let skips := rules.skips l (pathFromHere t (c.pathOf names))
        match t.get? l with
        | some .directory =>
          if skips true || c.prunes t names then s else foldBelow c start depth rules names s
        | some (.file _) => if skips false then s else visit s (c.event names)
        | _ => s)
      s

/-- The rules of all directories above a location, deepest first. -/
def layersAbove (t : FileTree) (l : Location) : List IgnoreLayer :=
  ((List.range l.length).map fun n => IgnoreLayer.read t (l.take n)).reverse

/-- Walks the root of a collector. The root itself is never skipped. -/
def fold (c : Collector) (s : σ) : σ :=
  let t := view s
  match t.locate .content c.root with
  | .error fault =>
    visit s <| .unreadable <|
      c.root ++ ": IO error for operation on ".toList ++ c.root ++ ": ".toList ++ fault.message
  | .ok start =>
    match t.get? start with
    | some .directory =>
      let above := layersAbove t start
      let messages := above.reverse.flatMap IgnoreLayer.messages
      let s := if messages.isEmpty then s else visit s (.unreadable (Text.join "\n" messages))
      foldBelow view visit c start (t.depth + 1) ⟨above, UserRules.read t⟩ [] s
    | _ => visit s (c.event [])

end Fold

/-- What is met below the root in a tree that stays as it is. -/
def events (c : Collector) (t : FileTree) : List WalkEvent :=
  c.fold (fun _ => t) (fun es e => es ++ [e]) []

/-- The files below the root that are collected, by the names that lead to them. -/
def files (c : Collector) (t : FileTree) : List (List Text) :=
  (c.events t).filterMap fun
    | .file names => some names
    | _ => none

/-- What is told about what is met. -/
def notices : WalkEvent → List Notice
  | .file _ => []
  | .excluded names =>
    [⟨.debug, .collection, "Excluded by dep5: ".toList ++ Path.ofNames names⟩]
  | .unreadable description =>
    [⟨.warning, .collection, "Skipping unreadable entry: ".toList ++ description⟩]

end Collector

end SpdxHeaders
