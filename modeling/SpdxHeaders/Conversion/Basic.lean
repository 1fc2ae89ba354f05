import SpdxHeaders.Authors
import SpdxHeaders.Collector
import SpdxHeaders.Conversion.File
import SpdxHeaders.Routing

/-!
# Conversions

A conversion takes the collected files below a root one after the other and stops at the first that
cannot be converted. If none stops it, the author list is appended to its file.
-/

namespace SpdxHeaders

/-- A conversion that is ready to run. -/
structure Conversion where
  /-- The root, an absolute path without links. -/
  root : Path
  options : ConversionOptions
  settings : Settings
  collector : Collector

namespace Conversion

/-- The directory that a path leads to, if it can be converted. -/
def resolveRoot (t : FileTree) (p : Path) (options : ConversionOptions) :
    Except ConversionError Path := do
  match t.canonical p with
  | .error fault =>
    .error (.invalidArguments
      ("cannot resolve ".toList ++ p ++ ": ".toList ++ fault.message))
  | .ok root =>
    if !t.isDirectory root then
      .error (.invalidArguments (root ++ " is not a directory".toList))
    else if !options.dryRun && (Text.trim options.defaultHolder).isEmpty then
      .error (.invalidArguments "the default file copyright text is empty")
    else .ok root

/-- The conversion of a root, and what is told while it is prepared. -/
def prepare (t : FileTree) (root : Path) (settings : Settings) (options : ConversionOptions) :
    List Notice × Except Collector.Fault Conversion :=
  let (notices, collector) := Collector.prepare t root settings.ignoredDirs
  (notices, collector.map fun collector => ⟨root, options, settings, collector⟩)

/-- The wording of what keeps a conversion from being prepared. -/
def preparationMessage (fault : Collector.Fault) : Text :=
  "Failed to prepare file collector: ".toList ++ fault.message

/-- The file that the author list is appended to. -/
def authorsFile (c : Conversion) : Path :=
  Path.join c.root c.settings.authorsFile

/-- How far a conversion has come. -/
structure Progress where
  /-- The file tree with the files converted so far. -/
  tree : FileTree
  /-- The reports that were passed on so far, each as soon as it was known. -/
  reports : List FileReport := []
  /-- The reports that are kept for the report on the conversion. -/
  files : List FileReport := []
  /-- The authors that were collected so far. -/
  authors : Authors.Registry := {}
  /-- What was told so far. -/
  notices : List Notice := []
  /-- Why the conversion stopped. -/
  failure : Option ConversionError := none

namespace Progress

/-- Takes the report on a file: its authors are collected, it is passed on, and it is kept. -/
def report (s : Progress) (f : FileReport) : Progress :=
  { s with
    authors := s.authors.extend f.authors
    reports := s.reports ++ [f]
    files := s.files ++ [f] }

/-- Adds what is told. -/
def tell (s : Progress) (notices : List Notice) : Progress :=
  { s with notices := s.notices ++ notices }

end Progress

/-- Takes the file that names lead to from the root. -/
def takeFile (c : Conversion) (s : Progress) (names : List Text) : Progress :=
  let p := c.collector.pathOf names
  match Route.ofPath c.settings (Path.ofNames names) with
  | .rewrite style =>
    let (notices, result) := convertFile c.options style p s.tree
    let s := s.tell notices
    match result with
    | .ok (tree, f) => { s with tree := tree }.report f
    | .error e => { s with failure := some (e.inFile p) }
  | .vendored => s.report ⟨p, .vendored, []⟩
  | .ignorable => s.report ⟨p, .ignorable, []⟩
  | .unhandled => s.report ⟨p, .unhandled, []⟩
  | .exempt =>
    s.tell [⟨.debug, .conversion, "Not reporting ".toList ++ Path.ofNames names⟩]

/-- Takes what is met on the walk. A conversion that has stopped takes nothing more. -/
def step (c : Conversion) (s : Progress) (e : WalkEvent) : Progress :=
  if s.failure.isSome then s
  else
    let s := s.tell (Collector.notices e)
    match e with
    | .file names => c.takeFile s names
    | _ => s

/-- The conversion of all collected files. -/
def convertFiles (c : Conversion) (t : FileTree) : Progress :=
  c.collector.fold Progress.tree c.step { tree := t }

/-- What a conversion leaves behind. -/
structure Result where
  /-- The file tree. -/
  tree : FileTree
  /-- The reports that were passed on, in their order. -/
  reports : List FileReport
  /-- What was told. -/
  notices : List Notice
  /-- The report on the conversion, or why it stopped. -/
  outcome : Except ConversionError Report

/-- The report on a conversion that has taken all files. -/
def reportAfter (c : Conversion) (s : Progress) : Report :=
  let authors := s.authors.finalize
  ⟨c.root, c.options.dryRun, s.files, Report.tallyOf s.files, authors, Authors.markdown authors,
    c.authorsFile⟩

/-- Runs a conversion on a file tree. -/
def run (c : Conversion) (t : FileTree) : Result :=
  let s := c.convertFiles t
  match s.failure with
  | some e => ⟨s.tree, s.reports, s.notices, .error e⟩
  | none =>
    let report := c.reportAfter s
    if c.options.dryRun then ⟨s.tree, s.reports, s.notices, .ok report⟩
    else
      match s.tree.append c.authorsFile report.authorsMarkdown.toUtf8 with
      | .ok tree => ⟨tree, s.reports, s.notices, .ok report⟩
      | .error fault =>
        ⟨s.tree, s.reports, s.notices, .error ((ConversionError.access fault).inFile c.authorsFile)⟩

end Conversion

end SpdxHeaders
