import SpdxHeaders.FileTree.Access
import SpdxHeaders.Ignore.Rule

/-!
# Ignore files

An ignore file is read line by line. A line that is no rule is reported and skipped; a line that is
no text ends the file.
-/

namespace SpdxHeaders

/-- What is wrong with a line of an ignore file. -/
inductive IgnoreFault where
  /-- The line is no rule. -/
  | rule (line : Nat) (description : Text)
  /-- The line is no text. -/
  | notText (line : Nat)
  deriving DecidableEq, Repr

/-- The wording of what is wrong with a line of the file at a path. -/
def IgnoreFault.message (p : Path) : IgnoreFault → Text
  | .rule line description => place line ++ description
  | .notText line => place line ++ AccessFault.notText.message
where
  /-- The file and the line. -/
  place (line : Nat) : Text := p ++ ": line ".toList ++ Text.ofNat line ++ ": ".toList

/-- The rules of an ignore file, and what is wrong with its other lines. -/
structure IgnoreFile where
  rules : List IgnoreRule := []
  faults : List IgnoreFault := []

namespace IgnoreFile

/-- The lines of bytes. A line feed ends a line together with a carriage return right before it. -/
def byteLines : List UInt8 → List (List UInt8)
  | [] => []
  | 10 :: s => [] :: byteLines s
  | 13 :: 10 :: s => [] :: byteLines s
  | b :: s =>
    match byteLines s with
    | [] => [[b]]
    | l :: ls => (b :: l) :: ls

/-- Reads lines from the one with the given number on. -/
def ofLines (number : Nat) : List (List UInt8) → IgnoreFile
  | [] => {}
  | line :: lines =>
    match Text.ofUtf8? ⟨line.toArray⟩ with
    | none => { faults := [.notText number] }
    | some line =>
      let line := if number = 1 then line.dropWhile (· = '\ufeff') else line
      let rest := ofLines (number + 1) lines
      match IgnoreRule.ofLine line with
      | .ok none => rest
      | .ok (some rule) => { rest with rules := rule :: rest.rules }
      | .error description => { rest with faults := .rule number description :: rest.faults }

/-- The ignore file with the given bytes. A line that is no text is not reported if it is all there
is to report. -/
def ofBytes (bytes : ByteArray) : IgnoreFile :=
  let f := ofLines 1 (byteLines bytes.toList)
  match f.faults with
  | [.notText _] => { f with faults := [] }
  | _ => f

/-- The ignore file at a path below a directory. One that cannot be read has no rules. -/
def read (t : FileTree) (dir : Location) (parts : List Text) : IgnoreFile :=
  match t.follow .content FileTree.maxLinks dir parts with
  | .error _ => {}
  | .ok l =>
    match t.bytesAt l with
    | .ok bytes => ofBytes bytes
    | .error _ => {}

end IgnoreFile

end SpdxHeaders
