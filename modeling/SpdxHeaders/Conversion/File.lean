import SpdxHeaders.FileTree.Access
import SpdxHeaders.Notice
import SpdxHeaders.Report.Basic
import SpdxHeaders.Rewriting

/-!
# Converting a file

A file is read, its header is rewritten, and it is written back unless nothing may be written.
-/

namespace SpdxHeaders

/-- The name of a style in notices. -/
def CommentStyle.name : CommentStyle → Text
  | .block => "CBlock"
  | .markup => "Html"
  | .line => "LineComment"

namespace Conversion

/-- A file as it is read. -/
structure SourceFile where
  /-- The extension of its name. -/
  extension : Text
  content : Text
  deriving DecidableEq, Repr

/-- The file at a path. -/
def readSource (t : FileTree) (p : Path) : Except ConversionError SourceFile :=
  match t.readText p with
  | .ok content => .ok ⟨p.extension, content⟩
  | .error fault => .error (.access fault)

/-- What is told about a file that is about to be converted. -/
def rewritingNotice (style : CommentStyle) (p : Path) (source : SourceFile) : Notice :=
  ⟨.debug, .rewriting,
    "Rewriting ".toList ++ p ++ " as ".toList ++ style.name ++ " (".toList ++ source.extension
      ++ ")".toList⟩

/-- Writes what rewriting made of a file, unless nothing may be written. -/
def writeBack (options : ConversionOptions) (p : Path) (t : FileTree) :
    Rewriting → Except ConversionError (FileTree × FileReport)
  | .alreadyNormalized => .ok (t, ⟨p, .alreadyTagged, []⟩)
  | .changed content authors =>
    if options.dryRun then .ok (t, ⟨p, .wouldReplace, authors⟩)
    else
      match t.write p content.toUtf8 with
      | .ok t => .ok (t, ⟨p, .replaced, authors⟩)
      | .error fault => .error (.access fault)

/-- What is told while the file at a path is converted, and the tree and the report after that. -/
def convertFile (options : ConversionOptions) (style : CommentStyle) (p : Path) (t : FileTree) :
    List Notice × Except ConversionError (FileTree × FileReport) :=
  match readSource t p with
  | .error e => ([], .error e)
  | .ok source =>
    ([rewritingNotice style p source],
      Rewriting.ofContent style options source.content >>= writeBack options p t)

end Conversion

end SpdxHeaders
