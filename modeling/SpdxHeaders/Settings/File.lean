import SpdxHeaders.FileTree.Access
import SpdxHeaders.Notice
import SpdxHeaders.Settings
import SpdxHeaders.Toml.Document

/-!
# Settings files

Settings are read from the file that the user names, which must be usable, or else from the first
usable file of the current directory and the home directory. What a file does not set has its
built-in value, and keys that mean nothing are passed over.
-/

namespace SpdxHeaders.Settings

/-- The name of a settings file. -/
def fileName : Path :=
  ".spdx-convert.toml"

/-- The text that a document assigns to a key. -/
def text? (es : Toml.Entries) (key : Text) (builtIn : Text) : Option Text :=
  match es.lookup key with
  | none => some builtIn
  | some (.value (.string t)) => some t
  | some _ => none

/-- The list of texts that a document assigns to a key. -/
def texts? (es : Toml.Entries) (key : Text) (builtIn : List Text) : Option (List Text) :=
  match es.lookup key with
  | none => some builtIn
  | some (.value (.array items)) =>
    items.mapM fun
      | .string t => some t
      | _ => none
  | some _ => none

/-- The settings of a document. -/
def ofToml? (es : Toml.Entries) : Option Settings := do
  let builtIn : Settings := {}
  return {
    ignoredDirs := ← texts? es "ignored_dirs" builtIn.ignoredDirs
    keep := ← texts? es "preserve_spdx" builtIn.keep
    vendorMarkers := ← texts? es "vendor_segments" builtIn.vendorMarkers
    scriptVendorMarkers := ← texts? es "script_vendor_segments" builtIn.scriptVendorMarkers
    ignorableSuffixes := ← texts? es "ignorable_suffixes" builtIn.ignorableSuffixes
    exemptions := ← texts? es "unhandled_exemptions" builtIn.exemptions
    authorsFile := ← text? es "authors_file" builtIn.authorsFile }

/-- Why a settings file is not usable. -/
inductive Fault where
  /-- The file cannot be read. -/
  | unreadable (p : Path) (fault : AccessFault)
  /-- The file holds no settings. -/
  | malformed (p : Path)
  deriving DecidableEq, Repr

/-- The wording of a fault. -/
def Fault.message : Fault → Text
  | .unreadable p fault =>
    "Failed to read config file: ".toList ++ p ++ ": ".toList ++ fault.message
  | .malformed p => "Failed to parse config file: ".toList ++ p ++ ": TOML parse error".toList

/-- The path in a fault. -/
def Fault.path : Fault → Path
  | .unreadable p _ | .malformed p => p

/-- The wording of a fault of a file that the user named. -/
def Fault.messageOfNamed (fault : Fault) : Text :=
  "Failed to load config from ".toList ++ fault.path ++ ": ".toList ++ fault.message

/-- The settings in the file at a path. -/
def ofFile (t : FileTree) (p : Path) : Except Fault Settings :=
  match t.readText p with
  | .error fault => .error (.unreadable p fault)
  | .ok content =>
    match Toml.ofText? content >>= ofToml? with
    | some settings => .ok settings
    | none => .error (.malformed p)

/-- The first usable of some files that need not exist, and what is told about those that are not
usable. -/
def firstUsable (t : FileTree) : List Path → List Notice × Settings
  | [] => ([], {})
  | p :: ps =>
    if t.contains p then
      match ofFile t p with
      | .ok settings => ([], settings)
      | .error fault =>
        let (notices, settings) := firstUsable t ps
        (⟨.warning, .settings, "Ignoring ".toList ++ p ++ ": ".toList ++ fault.message⟩ :: notices,
          settings)
    else firstUsable t ps

/-- The files that are looked for if the user names none. -/
def candidates (t : FileTree) : List Path :=
  fileName :: (t.home.map (Path.join · fileName)).toList

/-- The settings that hold, and what is told while they are looked for. -/
def load (t : FileTree) (named : Option Path) : List Notice × Except Fault Settings :=
  match named with
  | some p => ([], ofFile t p)
  | none =>
    let (notices, settings) := firstUsable t (candidates t)
    (notices, .ok settings)

end SpdxHeaders.Settings
