import SpdxHeaders.Text.Basic

/-!
# TOML documents

A document assigns values to keys, directly or in tables. A table may be made in three ways: by a
header of its own, by a header below it, or by dotted keys. Each of these may go on where the rules
of the format allow it, and nothing is assigned twice.
-/

namespace SpdxHeaders.Toml

/-- A value. Of numbers, truth values, times and inline tables it only matters that they are
well-formed. -/
inductive Value where
  | string (t : Text)
  | array (items : List Value)
  | other
  deriving Repr

/-- What is assigned to a key. -/
inductive Item where
  /-- A value. -/
  | value (v : Value)
  /-- A table. It is implicit until it has a header of its own, and dotted if it was made by a
  dotted key. -/
  | table (isImplicit isDotted : Bool) (entries : List (Text × Item))
  /-- An array of tables, last first. -/
  | tables (list : List (List (Text × Item)))

/-- The entries of a table. -/
abbrev Entries := List (Text × Item)

namespace Entries

/-- Assigns an item to a key, in place of what was there. -/
def set (key : Text) (item : Item) (es : Entries) : Entries :=
  (key, item) :: es.filter (·.1 ≠ key)

/-- Changes the entries of the table that a path of headers leads to, and makes tables on the
way. -/
def alter (change : Entries → Option Entries) : (path : List Text) → Entries → Option Entries
  | [], es => change es
  | key :: path, es =>
    match es.lookup key with
    | none => do return es.set key (.table true false (← alter change path []))
    | some (.table isImplicit isDotted inner) => do
      return es.set key (.table isImplicit isDotted (← alter change path inner))
    | some (.tables (last :: others)) => do
      return es.set key (.tables ((← alter change path last) :: others))
    | _ => none

/-- Assigns a value to a dotted key. A table it leads through must not have a header of its own, and
the last of them must be one that dotted keys made. -/
def assign (v : Value) : (path : List Text) → (key : Text) → Entries → Option Entries
  | [], key, es =>
    match es.lookup key with
    | none => some (es.set key (.value v))
    | some _ => none
  | outer :: path, key, es =>
    match es.lookup outer with
    | none => do return es.set outer (.table true true (← assign v path key []))
    | some (.table true isDotted inner) =>
      if path.isEmpty && !isDotted then none
      else do return es.set outer (.table true isDotted (← assign v path key inner))
    | some (.tables (last :: others)) =>
      if path.isEmpty then none
      else do return es.set outer (.tables ((← assign v path key last) :: others))
    | _ => none

end Entries

/-- A dotted key with its value. -/
structure Assignment where
  /-- The parts of the key in front of the last. -/
  path : List Text
  /-- The last part of the key. -/
  key : Text
  value : Value

/-- The header that assignments stand under. -/
inductive Header where
  /-- None: they belong to the document itself. -/
  | top
  /-- `[path.key]`: they make a table. -/
  | table (path : List Text) (key : Text)
  /-- `[[path.key]]`: they make the next table of an array. -/
  | element (path : List Text) (key : Text)

/-- A header with the assignments under it. -/
structure Section where
  header : Header
  assignments : List Assignment

/-- Makes assignments in a table. -/
def assignAll (as : List Assignment) (es : Entries) : Option Entries :=
  as.foldlM (fun es a => es.assign a.value a.path a.key) es

/-- Adds the table of a section under a header of its own. The table may have been made by a header
below it, but by nothing else. -/
def addTable (key : Text) (as : List Assignment) (parent : Entries) : Option Entries := do
  let inner ←
    match parent.lookup key with
    | none => some []
    | some (.table true false inner) => some inner
    | some _ => none
  return parent.set key (.table false false (← assignAll as inner))

/-- Adds the table of a section to an array of tables. -/
def addElement (key : Text) (as : List Assignment) (parent : Entries) : Option Entries := do
  let earlier ←
    match parent.lookup key with
    | none => some []
    | some (.tables list) => some list
    | some _ => none
  return parent.set key (.tables ((← assignAll as []) :: earlier))

/-- Adds a section to a document. -/
def addSection (es : Entries) (s : Section) : Option Entries :=
  match s.header with
  | .top => assignAll s.assignments es
  | .table path key => Entries.alter (addTable key s.assignments) path es
  | .element path key => Entries.alter (addElement key s.assignments) path es

/-- The document that sections make, if they agree. -/
def ofSections (sections : List Section) : Option Entries :=
  sections.foldlM addSection []

end SpdxHeaders.Toml
