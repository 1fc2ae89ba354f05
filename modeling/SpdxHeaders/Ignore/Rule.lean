import SpdxHeaders.Error
import SpdxHeaders.Glob.Matching
import SpdxHeaders.Glob.Parser
import SpdxHeaders.Text.Blank

/-!
# Ignore rules

A line of an ignore file is a glob for paths below the directory of the file. A glob without a slash
inside is looked for at every depth.
-/

namespace SpdxHeaders

/-- A rule of an ignore file. -/
structure IgnoreRule where
  /-- The paths the rule is about. -/
  glob : Glob
  /-- The rule takes back what an earlier rule ignores. -/
  readmits : Bool
  /-- The rule is about directories only. -/
  directoriesOnly : Bool
  deriving Repr

namespace IgnoreRule

/-- What a rule says about a path it is about. -/
inductive Verdict where
  | ignored
  | admitted
  deriving DecidableEq, Repr

/-- What the rule says about a path. -/
def verdict? (rule : IgnoreRule) (p : Text) (isDirectory : Bool) : Option Verdict :=
  if (!rule.directoriesOnly || isDirectory) && rule.glob.isMatch p then
    some (if rule.readmits then .admitted else .ignored)
  else none

/-- What a list of rules says about a path: the last one about it decides. -/
def lastVerdict? (rules : List IgnoreRule) (p : Text) (isDirectory : Bool) : Option Verdict :=
  rules.reverse.findSome? (·.verdict? p isDirectory)

/-- A line without its comment and the blanks at its end, if anything is left. A blank behind a
backslash belongs to the line. -/
def content? (line : Text) : Option Text :=
  if line.head? = some '#' then none
  else
    let line := if "\\ ".toList.isSuffixOf line then line else Text.trimEnd line
    if line.isEmpty then none else some line

/-- The pattern of a line and its marks: a `!` in front readmits, a slash in front ties the pattern
to the directory of the file. -/
def marks (line : Text) : Bool × Bool × Text :=
  match line with
  | '\\' :: '!' :: t => (false, false, '!' :: t)
  | '\\' :: '#' :: t => (false, false, '#' :: t)
  | '!' :: '/' :: t => (true, true, t)
  | '!' :: t => (true, false, t)
  | '/' :: t => (false, true, t)
  | t => (false, false, t)

/-- A pattern without the slash at its end, and whether there was one. A backslash in front of that
slash goes with it. -/
def withoutSlash (pattern : Text) : Bool × Text :=
  match pattern.reverse with
  | '/' :: '\\' :: t => (true, t.reverse)
  | '/' :: t => (true, t.reverse)
  | _ => (false, pattern)

/-- A pattern that is tied to no place, made to match at every depth. -/
def atEveryDepth (pattern : Text) : Text :=
  if "**/".toList.isPrefixOf pattern || pattern = "**".toList then pattern
  else "**/".toList ++ pattern

/-- The rule of a line, if it has one. -/
def ofLine (line : Text) : Except Text (Option IgnoreRule) :=
  match content? line with
  | none => .ok none
  | some line =>
    let (readmits, anchored, pattern) := marks line
    let (directoriesOnly, pattern) := withoutSlash pattern
    let pattern :=
      if anchored || List.elem '/' pattern then pattern else atEveryDepth pattern
    let pattern := if "/**".toList.isSuffixOf pattern then pattern ++ "/*".toList else pattern
    match Glob.ofPattern .lenient false pattern with
    | .ok glob => .ok (some ⟨glob, readmits, directoriesOnly⟩)
    | .error fault => .error (fault.message line)

end IgnoreRule

end SpdxHeaders
