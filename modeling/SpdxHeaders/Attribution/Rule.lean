import SpdxHeaders.Attribution.Pattern
import SpdxHeaders.Error
import SpdxHeaders.Text.Lowercase

/-!
# Rules for header lines

What a single line of a header says is decided by an ordered table of rules, of which the first
that fits decides. A line that fits no rule says nothing, unless it speaks of a license or of a
copyright: such a line is refused, so that no file is relicensed on a guess.
-/

namespace SpdxHeaders.Attribution

/-- A copyright statement: in which year who claims it, and how the holder can be reached. -/
structure Statement where
  year : Nat
  holder : Text
  contact : Option Text
  deriving DecidableEq, Repr

namespace Statement

/-- The entry of the holder in a list of authors. -/
def author (s : Statement) : Text :=
  match s.contact with
  | some contact => s.holder ++ " <".toList ++ contact ++ ">".toList
  | none => s.holder

/-- The tag line that keeps the statement as it is. -/
def tagLine (s : Statement) : Text :=
  "SPDX-FileCopyrightText: ".toList ++ Text.ofNat s.year ++ " ".toList ++ s.author

end Statement

/-- What a header line says. -/
inductive LineMeaning where
  | copyright (statement : Statement)
  /-- A year without a holder. -/
  | yearOnly
  | author (entry : Text)
  /-- A license, by its SPDX identifier. -/
  | license (identifier : Text)
  /-- A sentence of a license notice that says nothing by itself. -/
  | boilerplate
  | unrelated
  deriving DecidableEq, Repr

/-- How the holder of a copyright is written. -/
inductive HolderForm where
  /-- `NAME <CONTACT>` -/
  | angle
  /-- `NAME (CONTACT)` -/
  | paren
  /-- Everything up to the end of the line. -/
  | free
  deriving DecidableEq, Repr

/-- The holder and the contact that begin a text in the given form. -/
def HolderForm.read? : HolderForm → Text → Option (Text × Option Text)
  | .angle, t =>
    (longest (· != '<') (fun u => do
      longest (· != '>') (Text.after? ">") (← Text.after? " <" u)) t).map
        fun (holder, contact, _) => (holder, some contact)
  | .paren, t =>
    (longest (· != '<') (fun u => do
      longest (· != '>') (Text.after? ")") (← Text.after? " (" u)) t).map
        fun (holder, contact, _) => (holder, some contact)
  | .free, t => (longest (· != '\n') some t).map fun (holder, _) => (holder, none)

/-- A rule for header lines. -/
inductive Rule where
  /-- `lead`, a year, perhaps a comma, a space and the holder. -/
  | copyright (lead : Text) (form : HolderForm)
  /-- `lead` and a year. -/
  | yearOnly (lead : Text)
  /-- `lead` and the author up to the end of the line. -/
  | author (lead : Text)
  /-- The text that declares the license with the SPDX identifier. -/
  | license (needle identifier : Text)
  /-- A sentence that says nothing by itself. -/
  | boilerplate (needle : Text)
  deriving DecidableEq, Repr

/-- The statement that begins a text. -/
def statement? (lead : Text) (form : HolderForm) (t : Text) : Option Statement := do
  let (year, rest) ← year? (← Text.after? lead t)
  let rest := (Text.after? "," rest).getD rest
  let (holder, contact) ← form.read? (← Text.after? " " rest)
  return ⟨year, holder, contact⟩

/-- What a line says by a rule, if the rule fits it. -/
def Rule.meaning? : Rule → Text → Option LineMeaning
  | .copyright lead form, line => (leftmost (statement? lead form) line).map .copyright
  | .yearOnly lead, line =>
    (leftmost (fun t => Text.after? lead t >>= year?) line).map fun _ => .yearOnly
  | .author lead, line =>
    (leftmost (fun t => Text.after? lead t >>= longest (· != '\n') some) line).map
      fun (entry, _) => .author entry
  | .license needle identifier, line =>
    if Text.contains needle line then some (.license identifier) else none
  | .boilerplate needle, line =>
    if Text.contains needle line then some .boilerplate else none

/-- The texts that declare a license, with its SPDX identifier. The third text begins the first, so
it has to come later. -/
def licenseRules : List Rule :=
  [.license "@license AGPL-3.0-or-later" "AGPL-3.0-or-later",
   .license "@license GNU AGPL version 3 or any later version" "AGPL-3.0-or-later",
   .license "@license AGPL-3.0" "AGPL-3.0-only",
   .license "@license GNU GPL version 3 or any later version" "GPL-3.0-or-later",
   .license "This file is licensed under the Affero General Public License version 3 or"
     "AGPL-3.0-or-later",
   .license "// GNU GPL version 3 or any later version" "GPL-3.0-or-later"]

/-- Sentences of the license notices that say nothing by themselves. -/
def boilerplateRules : List Rule :=
  [.boilerplate "it under the terms of the GNU General Public License as published by",
   .boilerplate "it under the terms of the GNU Affero General Public License as",
   .boilerplate "it under the terms of the GNU Afferoq General Public License as",
   .boilerplate "it under the terms of the GNU Affero General Public License, version 3,",
   .boilerplate "License, or (at your option) any later version.",
   .boilerplate "GNU General Public License for more details.",
   .boilerplate "GNU Affero General Public License for more details.",
   .boilerplate "You should have received a copy of the GNU General Public License",
   .boilerplate "You should have received a copy of the GNU Affero General Public License",
   .boilerplate "the Free Software Foundation, either version 3 of the License, or",
   .boilerplate "along with this program.  If not, see <http://www.gnu.org/licenses/>",
   .boilerplate "along with this program. If not, see <http://www.gnu.org/licenses/>"]

/-- All rules, in the order in which they are tried. -/
def rules : List Rule :=
  [.copyright "@copyright Copyright (c) " .angle,
   .copyright "@copyright " .angle,
   .copyright "@copyright Copyright (c) " .paren,
   .copyright "@copyright Copyright (c) " .free,
   .copyright "Copyright (c) " .angle,
   .yearOnly "@copyright ",
   .author "@author "] ++ licenseRules ++ boilerplateRules

/-- What a header line says, or why it is refused. -/
def meaning (line : Text) : Except ConversionError LineMeaning :=
  match rules.findSome? fun rule => rule.meaning? line with
  | some m => .ok m
  | none =>
    let lower := line.lowercase
    if Text.contains "license" lower then .error (.unrecognizedLicense line)
    else if Text.contains "copyright" lower then .error (.unrecognizedCopyright line)
    else .ok .unrelated

end SpdxHeaders.Attribution
