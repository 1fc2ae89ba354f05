import SpdxHeaders.Attribution.Rule
import SpdxHeaders.Preservation

/-!
# Attribution

What a whole header says: its authors, the oldest copyright year, the statements to keep and the
license. `Attribution.parse` reads it off the lines of a header, and `Attribution.tagLines` writes
the SPDX tags that stand for it.
-/

namespace SpdxHeaders

/-- What a header says. -/
structure Attribution where
  /-- The entries for the list of authors, in the order of the header. -/
  authors : List Text := []
  /-- The oldest year among the statements that are not kept. -/
  minYear : Option Nat := none
  /-- The tag lines of the statements that are kept. -/
  preserved : List Text := []
  /-- The SPDX identifier of the license. -/
  license : Text
  deriving DecidableEq, Repr

namespace Attribution

/-- What the lines read so far say. The license may still be missing. -/
structure Draft where
  authors : List Text := []
  minYear : Option Nat := none
  preserved : List Text := []
  license : Option Text := none
  deriving DecidableEq, Repr

/-- The smaller of a year and the oldest year so far. -/
def olderYear (oldest : Option Nat) (year : Nat) : Option Nat :=
  match oldest with
  | some y => if year < y then some year else some y
  | none => some year

/-- Takes in what one more line says. -/
def Draft.add (keep : List Text) (d : Draft) : LineMeaning → Draft
  | .copyright s =>
    if Preservation.isPreserved keep s.holder then
      { d with authors := d.authors ++ [s.author], preserved := d.preserved ++ [s.tagLine] }
    else
      { d with authors := d.authors ++ [s.author], minYear := olderYear d.minYear s.year }
  | .author entry => { d with authors := d.authors ++ [entry] }
  | .license identifier => { d with license := d.license <|> some identifier }
  | .yearOnly | .boilerplate | .unrelated => d

/-- The attribution of a draft that has a license. -/
def Draft.finish (d : Draft) : Except ConversionError Attribution :=
  match d.license with
  | some license => .ok ⟨d.authors, d.minYear, d.preserved, license⟩
  | none => .error .noLicense

/-- Reads a header, keeping the statements of the holders in `keep`. -/
def parse (keep : List Text) (header : Text) : Except ConversionError Attribution := do
  let d ← header.lines.foldlM (fun (d : Draft) line => (meaning line).map (d.add keep)) {}
  d.finish

/-- The elements of a list without those that occurred before. -/
def distinct {α : Type} [DecidableEq α] (xs : List α) : List α :=
  xs.foldl (fun seen x => if x ∈ seen then seen else seen ++ [x]) []

/-- The SPDX tag lines of a header: one for all statements that are not kept, in the name of
`defaultHolder`, those that are kept, and the license. -/
def tagLines (a : Attribution) (defaultHolder : Text) : List Text :=
  let shared : List Text :=
    match a.minYear with
    | some year =>
      ["SPDX-FileCopyrightText: ".toList ++ Text.ofNat year ++ " ".toList ++ defaultHolder]
    | none => []
  distinct (shared ++ a.preserved) ++ ["SPDX-License-Identifier: ".toList ++ a.license]

end Attribution

end SpdxHeaders
