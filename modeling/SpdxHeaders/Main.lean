import SpdxHeaders.Program
import Std.Time.DateTime.Timestamp

/-!
# Command line

Loads what an invocation can reach of the file system, runs the program on it, and writes back what
the program changed.
-/

namespace SpdxHeaders.Main

/-- The loading of a file tree. -/
abbrev Load := StateT FileTree IO

/-- The location of an absolute path without links. -/
def location (p : String) : Location :=
  (Text.pieces '/' p.toList).filter (!·.isEmpty)

/-- An absolute path for a location. -/
def fileName (l : Location) : String :=
  String.ofList l.path

/-- The path without links, if it leads to something. -/
def real? (p : String) : IO (Option String) := do
  try
    return some (← IO.FS.realPath p).toString
  catch _ => return none

/-- What is at a path, if anything is. -/
def entry? (p : String) : IO (Option Node) := do
  try
    let parts := location p
    let dir ← IO.FS.realPath (fileName parts.dropLast)
    let name := String.ofList (parts.getLastD [])
    match (← (dir / name).symlinkMetadata).type with
    | .dir => return some .directory
    | .symlink => return some (.link ((← real? p).getD (p ++ "\x00")).toList)
    | _ => return some (.file (← IO.FS.readBinFile p))
  catch _ => return none

/-- Loads the entry at a location, and the directories it is in. -/
def loadEntry (l : Location) : Load (Option Node) := do
  for n in List.range l.length do
    let dir := l.take n
    if dir ≠ [] && ((← get).get? dir).isNone then
      modify (·.insert dir .directory)
  let node ← entry? (fileName l)
  if let some node := node then
    if l ≠ [] then
      modify (·.insert l node)
  return node

/-- Loads what a path leads through. -/
partial def loadPath (p : String) : Load Unit := do
  let here := (← get).here
  let p := if p.startsWith "/" then p else fileName here ++ "/" ++ p
  let parts := Text.pieces '/' p.toList
  for n in List.range parts.length do
    let part := parts.getD n []
    if part.isEmpty || part = ".".toList || part = "..".toList then
      continue
    if let some dir ← real? (String.ofList (Text.join "/" (parts.take n) ++ ['/'])) then
      if let some (.link target) ← loadEntry (location dir ++ [part]) then
        if !target.elem '\x00' then
          loadPath (String.ofList target)

/-- Loads all that is below a directory without links. -/
partial def loadBelow (dir : String) : Load Unit := do
  let entries ← (do return (← (← IO.FS.realPath dir).readDir).toList : IO _)
  for e in entries do
    match ← loadEntry (location dir ++ [e.fileName.toList]) with
    | some .directory => loadBelow (dir ++ "/" ++ e.fileName)
    | some (.link _) => loadPath (dir ++ "/" ++ e.fileName)
    | _ => pure ()

/-- Loads the ignore files of a directory. -/
def loadIgnoreFiles (dir : Location) : Load Unit := do
  for name in [".ignore", ".gitignore", ".git/info/exclude"] do
    loadPath (fileName dir ++ "/" ++ name)

/-- Loads the files with the user's own choices. -/
def loadHome (home : String) : Load Unit := do
  for name in [".spdx-convert.toml", ".gitconfig", ".config/git/config", ".config/git/ignore"] do
    loadPath (home ++ "/" ++ name)
  if let some p := UserRules.file? (← get) then
    loadPath (String.ofList p)

/-- Loads all that an invocation can reach. -/
def loadFor (i : Invocation) : Load Unit := do
  if let some home := (← get).home then
    loadHome (String.ofList home)
  loadPath (String.ofList (i.settings.getD Settings.fileName))
  if let some p := i.output then
    loadPath (String.ofList p)
  loadPath (String.ofList i.path)
  if let some root ← real? (String.ofList i.path) then
    let l := location root
    for n in List.range l.length do
      loadIgnoreFiles (l.take n)
    loadBelow root
    if let .ok settings := (Settings.load (← get) i.settings).2 then
      loadPath (String.ofList (Path.join root.toList settings.authorsFile))

/-- The files that differ from those loaded. -/
def changes (old new : FileTree) : List (Location × ByteArray) :=
  new.files.filter fun f => (old.files.lookup f.1).map ByteArray.data ≠ some f.2.data

/-- The environment of the program. -/
def environment : IO Environment := do
  let names := ["RUST_LOG", "CLICOLOR_FORCE", "NO_COLOR"]
  let vars ← names.filterMapM fun name => do
    return (← IO.getEnv name).map fun value => (name.toList, value.toList)
  let now := (← Std.Time.Timestamp.now).toNanosecondsSinceUnixEpoch.val.toNat
  return .ofVariables vars (.ofSeconds (now / 1000000000) (now % 1000000000))

end SpdxHeaders.Main

open SpdxHeaders SpdxHeaders.Main in
/-- Runs the program with its arguments on the files of the system. -/
def main (args : List String) : IO UInt32 := do
  let args := args.map String.toList
  let here := location (← IO.FS.realPath ".").toString
  let empty : FileTree := { here, home := (← IO.getEnv "HOME").map String.toList }
  let loading : Load Unit :=
    match Invocation.ofArguments args with
    | .ok i => loadFor i
    | .error _ => pure ()
  let (_, tree) ← loading.run empty
  let done := Program.run (← environment) args tree
  for (l, bytes) in changes tree done.tree do
    IO.FS.writeBinFile (fileName l) bytes
  IO.print (String.ofList done.output)
  IO.eprint (String.ofList done.errors)
  return done.exitCode.toUInt32
