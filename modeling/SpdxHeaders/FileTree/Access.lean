import SpdxHeaders.FileTree.Basic

/-!
# Access by path

A path leads through the directories of a file tree, part by part, and on through the links it
meets. Files are read and written where their path leads.
-/

namespace SpdxHeaders.FileTree

/-- What a path is followed for. -/
inductive Purpose where
  /-- The entry it names, even if that is a link. -/
  | entry
  /-- What it leads to. -/
  | content
  /-- What it leads to, or the place where that would be. -/
  | creation
  deriving DecidableEq, Repr

/-- The most links that a path may lead through. -/
def maxLinks : Nat :=
  40

/-- The most bytes that a name may have. -/
def maxNameLength : Nat :=
  255

/-- The most bytes that a path may have. -/
def maxPathLength : Nat :=
  4095

/-- Follows the parts of a path from a directory. -/
def follow (t : FileTree) (purpose : Purpose) (links : Nat) (at' : Location) (parts : List Text) :
    Except AccessFault Location :=
  match parts with
  | [] => .ok at'
  | part :: parts =>
    match t.get? at' with
    | some .directory =>
      if part.isEmpty || part = ".".toList then follow t purpose links at' parts
      else if part = "..".toList then follow t purpose links at'.dropLast parts
      else if purpose = .creation && !parts.isEmpty && parts.all List.isEmpty then
        .error .isDirectory
      else if maxNameLength < Text.byteLength part then .error .nameTooLong
      else
        match t.get? (at' ++ [part]) with
        | none =>
          if purpose = .creation && parts.isEmpty then .ok (at' ++ [part]) else .error .notFound
        | some (.link target) =>
          if purpose = .entry && parts.isEmpty then .ok (at' ++ [part])
          else
            match links with
            | 0 => .error .tooManyLinks
            | links + 1 =>
              follow t purpose links (if target.isAbsolute then [] else at')
                (Text.pieces '/' target ++ parts)
        | some _ => follow t purpose links (at' ++ [part]) parts
    | _ => .error .notDirectory
  termination_by (links, parts.length)

/-- Where a path leads. -/
def locate (t : FileTree) (purpose : Purpose) (p : Path) : Except AccessFault Location :=
  if List.elem '\x00' p then .error .nulInPath
  else if p.isEmpty then .error .notFound
  else if maxPathLength < Text.byteLength p then .error .nameTooLong
  else
    follow t purpose maxLinks (if Path.isAbsolute p then [] else t.here) (Text.pieces '/' p)

/-- What a path leads to. -/
def node? (t : FileTree) (p : Path) : Option Node :=
  match t.locate .content p with
  | .ok l => t.get? l
  | .error _ => none

/-- The path leads to a file. -/
def isFile (t : FileTree) (p : Path) : Bool :=
  match t.node? p with
  | some (.file _) => true
  | _ => false

/-- The path leads to a directory. -/
def isDirectory (t : FileTree) (p : Path) : Bool :=
  match t.node? p with
  | some .directory => true
  | _ => false

/-- The path leads to something. -/
def contains (t : FileTree) (p : Path) : Bool :=
  (t.node? p).isSome

/-- The bytes at a location. -/
def bytesAt (t : FileTree) (l : Location) : Except AccessFault ByteArray :=
  match t.get? l with
  | some (.file bytes) => .ok bytes
  | some .directory => .error .isDirectory
  | _ => .error .notFound

/-- The bytes of the file that a path leads to. -/
def read (t : FileTree) (p : Path) : Except AccessFault ByteArray := do
  t.bytesAt (← t.locate .content p)

/-- The text of the file that a path leads to. -/
def readText (t : FileTree) (p : Path) : Except AccessFault Text := do
  match Text.ofUtf8? (← t.read p) with
  | some text => return text
  | none => throw .notText

/-- Replaces the bytes at a location. -/
def writeAt (t : FileTree) (l : Location) (bytes : ByteArray) : Except AccessFault FileTree :=
  match t.get? l with
  | some .directory => .error .isDirectory
  | _ => .ok (t.insert l (.file bytes))

/-- Replaces the bytes of the file that a path leads to, or makes the file. -/
def write (t : FileTree) (p : Path) (bytes : ByteArray) : Except AccessFault FileTree := do
  t.writeAt (← t.locate .creation p) bytes

/-- Adds bytes at the end of the file that a path leads to, or makes the file. -/
def append (t : FileTree) (p : Path) (bytes : ByteArray) : Except AccessFault FileTree := do
  let l ← t.locate .creation p
  match t.get? l with
  | some (.file old) => t.writeAt l (old ++ bytes)
  | _ => t.writeAt l bytes

/-- Where a path leads, without links. -/
def canonical (t : FileTree) (p : Path) : Except AccessFault Path :=
  (t.locate .content p).map Location.path

/-- Makes the directory that a path names, and those it is in. -/
def createDirectories (t : FileTree) (p : Path) : Except AccessFault FileTree :=
  let parts := Text.pieces '/' p
  ((List.range parts.length).map fun n => Text.join "/" (parts.take (n + 1))).foldlM make t
where
  /-- Makes a single directory unless it is there. -/
  make (t : FileTree) (p : Path) : Except AccessFault FileTree := do
    if p.isEmpty || t.isDirectory p then return t
    return t.insert (← t.locate .creation p) .directory

/-- Makes a link at a path. -/
def createLink (t : FileTree) (p target : Path) : Except AccessFault FileTree := do
  return t.insert (← t.locate .creation p) (.link target)

/-- Takes what a path names away. -/
def remove (t : FileTree) (p : Path) : Except AccessFault FileTree := do
  return t.erase (← t.locate .entry p)

end SpdxHeaders.FileTree
