import SpdxHeaders.Notice
import SpdxHeaders.Text.Blank

/-!
# Choosing notices

Which notices are shown is said by directives: a topic with the least severe notices that are shown
for it. The directive with the longest name that a topic begins with decides, and one without a name
is for all topics.
-/

namespace SpdxHeaders

/-- The notices to show for topics that begin with a name. -/
structure Directive where
  /-- How topics begin, or nothing if the directive is for all topics. -/
  name : Option Text
  /-- The greatest rank that is shown; no notice has rank 0. -/
  rank : Nat
  deriving DecidableEq, Repr

/-- A choice of notices. -/
structure NoticeFilter where
  /-- The directives, each name once. -/
  directives : List Directive
  /-- What a notice has to hold. -/
  needle : Text := []
  deriving DecidableEq, Repr

namespace NoticeFilter

/-- The ranks with names, in capitals. -/
def ranks : List (Text × Nat) :=
  ("OFF".toList, 0)
    :: ([.error, .warning, .info, .debug, .trace] : List Severity).map fun s => (s.name, s.rank)

/-- The rank of the least severe notices. -/
def maxRank : Nat :=
  Severity.trace.rank

/-- The rank with a name, whatever its case. -/
def rank? (name : Text) : Option Nat :=
  ranks.lookup (name.map Char.toUpper)

/-- What is said about an item of a choice that means nothing. -/
def complaint (item : Text) : Text :=
  "warning: invalid logging spec '".toList ++ item ++ "', ignoring it".toList

/-- The directive of an item: a rank, a name, or a name with a rank. -/
def directive? (item : Text) : Except Text Directive :=
  match Text.pieces '=' item with
  | [name] =>
    match rank? name with
    | some rank => .ok ⟨none, rank⟩
    | none => .ok ⟨some name, maxRank⟩
  | [name, level] =>
    let level := Text.trim level
    if level.isEmpty then .ok ⟨some name, maxRank⟩
    else
      match rank? level with
      | some rank => .ok ⟨some name, rank⟩
      | none => .error (complaint level)
  | _ => .error (complaint item)

/-- Adds a directive, in place of the one with the same name. -/
def add (d : Directive) : List Directive → List Directive
  | [] => [d]
  | e :: es => if e.name = d.name then d :: es else e :: add d es

/-- Reads the items of a choice: what they say, and what is wrong with the others. -/
def ofItems (items : List Text) : List Text × List Directive :=
  items.foldl
    (fun (complaints, ds) item =>
      match directive? item with
      | .ok d => (complaints, add d ds)
      | .error complaint => (complaints ++ [complaint], ds))
    ([], [])

/-- The choice without directives: errors are shown. -/
def orErrors (ds : List Directive) : List Directive :=
  if ds.isEmpty then [⟨none, Severity.error.rank⟩] else ds

/-- Reads a choice: items with commas between them, and behind a slash what notices have to hold.
What is wrong with it is given too. -/
def ofText (t : Text) : List Text × NoticeFilter :=
  match Text.pieces '/' t with
  | [] | _ :: _ :: _ :: _ =>
    (["warning: invalid logging spec '".toList ++ t ++ "' (too many '/'s), ignoring it".toList],
      ⟨orErrors [], []⟩)
  | items :: needles =>
    let items := ((Text.pieces ',' items).map Text.trim).filter (!·.isEmpty)
    let (complaints, ds) := ofItems items
    (complaints, ⟨orErrors ds, needles.headD []⟩)

/-- The choice if nothing else is said. -/
def usual (verbose : Bool) : NoticeFilter :=
  ⟨[⟨none, (if verbose then Severity.debug else Severity.warning).rank⟩], []⟩

/-- The longer name wins, and of names of one length the later one. -/
def better (d e : Directive) : Directive :=
  if Text.byteLength (e.name.getD []) < Text.byteLength (d.name.getD []) then d else e

/-- The directive that decides about a topic. -/
def deciding? (f : NoticeFilter) (topic : Topic) : Option Directive :=
  let about := f.directives.filter fun d => (d.name.getD []).isPrefixOf topic.name
  match about with
  | [] => none
  | d :: ds => some (ds.foldl better d)

/-- The notice is shown. -/
def shows (f : NoticeFilter) (n : Notice) : Bool :=
  match f.deciding? n.topic with
  | some d => n.severity.rank ≤ d.rank && Text.contains f.needle n.text
  | none => false

end NoticeFilter

end SpdxHeaders
