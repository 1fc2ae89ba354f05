import Mathlib.Tactic.Lemma
import SpdxHeaders.Error

/-!
# Errors and the files they are raised for

A file that cannot be accessed, or whose header cannot be rewritten, raises an error that names no
file yet (`RaisedByFile.inFile`) and does not blame the command line (`RaisedByFile.exitCode`).

Files are put on errors by attaching them where there is none, or directly. Either keeps the root
cause (`rootCause_wrap`), and so do any number of them (`rootCause_wrapped`). Of files that are
attached only the first counts, and only on an error without one (`wrapped_keeps_cause`).
-/

namespace SpdxHeaders.ConversionError

/-- The error is one that a file raises by its header or by the access to it. -/
inductive RaisedByFile : ConversionError → Prop where
  | noHeader : RaisedByFile .noHeader
  | noHeaderEnd : RaisedByFile .noHeaderEnd
  | unrecognizedLicense (line : Text) : RaisedByFile (.unrecognizedLicense line)
  | unrecognizedCopyright (line : Text) : RaisedByFile (.unrecognizedCopyright line)
  | noLicense : RaisedByFile .noLicense
  | access (fault : AccessFault) : RaisedByFile (.access fault)

variable {e : ConversionError}

/-- The file that raises the error is attached to it. -/
lemma RaisedByFile.inFile (h : RaisedByFile e) (p : Text) : e.inFile p = .file p e := by
  cases h <;> rfl

/-- The program exits with 1 for what a file raises. -/
lemma RaisedByFile.exitCode (h : RaisedByFile e) (p : Text) : exitCode (.file p e) = 1 := by
  cases h <;> rfl

section Wrapping

/-- A way to put a file on an error. -/
inductive Wrap where
  /-- The file is attached if the error has none. -/
  | attach (path : Text)
  /-- The file is put around the error, whatever it has. -/
  | nest (path : Text)
  deriving DecidableEq, Repr

/-- The error with a file put on it. -/
def wrap (e : ConversionError) : Wrap → ConversionError
  | .attach p => e.inFile p
  | .nest p => .file p e

/-- The error with files put on it one after the other. -/
def wrapped (e : ConversionError) (ws : List Wrap) : ConversionError :=
  ws.foldl wrap e

/-- No file is left on a root cause. -/
lemma rootCause_ne_file (e : ConversionError) (p : Text) (source : ConversionError) :
    e.rootCause ≠ .file p source := by
  induction e with
  | file q inner ih => exact ih
  | _ => exact nofun

/-- Putting a file on an error keeps its root cause. -/
lemma rootCause_wrap (e : ConversionError) (w : Wrap) : (e.wrap w).rootCause = e.rootCause := by
  cases w with
  | attach p => cases e <;> rfl
  | nest p => rfl

/-- However often an error is wrapped, its root cause stays. -/
lemma rootCause_wrapped (e : ConversionError) (ws : List Wrap) :
    (e.wrapped ws).rootCause = e.rootCause := by
  induction ws generalizing e with
  | nil => rfl
  | cons w ws ih => exact (ih (e.wrap w)).trans (e.rootCause_wrap w)

/-- A file that was attached leaves no room for another one. -/
lemma inFile_inFile (e : ConversionError) (p q : Text) : (e.inFile p).inFile q = e.inFile p := by
  cases e <;> rfl

/-- Of files that are attached only the first counts. -/
lemma wrapped_attach_cons (e : ConversionError) (p : Text) (ps : List Text) :
    e.wrapped ((p :: ps).map .attach) = e.inFile p := by
  induction ps generalizing e p with
  | nil => rfl
  | cons q ps ih => exact (ih (e.inFile p) q).trans (e.inFile_inFile p q)

/-- An error in a file has a path: its own, if it has one, and that of the file otherwise. -/
lemma path?_inFile (e : ConversionError) (p : Text) :
    (e.inFile p).path? = some (e.path?.getD p) := by
  cases e <;> rfl

/-- Putting files on an error keeps its cause. Attaching some is attaching the first, and changes
nothing if the error has a file. The root cause has none, and it is the same whatever files are put
on the error, in whichever way, so the line to blame and the exit status are too. The path is that
of the outermost file the error had, or else of the first that is attached. -/
theorem wrapped_keeps_cause (e : ConversionError) (p : Text) (ps : List Text) :
    e.wrapped ((p :: ps).map .attach) = e.inFile p ∧
    (∀ q source, (file q source).wrapped ((p :: ps).map .attach) = .file q source) ∧
    (∀ q source, e.rootCause ≠ .file q source) ∧
    (∀ ws, (e.wrapped ws).rootCause = e.rootCause ∧
      (e.wrapped ws).offendingLine? = e.offendingLine? ∧ (e.wrapped ws).exitCode = e.exitCode) ∧
    (e.wrapped ((p :: ps).map .attach)).path? = some (e.path?.getD p) := by
  refine ⟨e.wrapped_attach_cons p ps, fun q source => wrapped_attach_cons _ p ps,
    e.rootCause_ne_file, fun ws => ?_, ?_⟩
  · have hcause := e.rootCause_wrapped ws
    exact ⟨hcause, by rw [offendingLine?, hcause, offendingLine?], by rw [exitCode, hcause, exitCode]⟩
  · rw [wrapped_attach_cons, path?_inFile]

-- The path is that of the outermost file, and the line that of the innermost error.
example : let e := (unrecognizedLicense "GPL").wrapped [.nest "a.h", .nest "b.h", .attach "c.h"]
    e.path? = some "b.h".toList ∧ e.offendingLine? = some "GPL".toList ∧ e.exitCode = 1 := by decide

end Wrapping

end SpdxHeaders.ConversionError
