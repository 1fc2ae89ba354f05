import SpdxHeaders.Toml.Basic
import SpdxHeaders.Toml.Quoted

/-!
# Reading TOML

A document is read statement by statement. Each statement and each item of an array or table takes
at least a character, so the length of the text bounds the number of steps.
-/

namespace SpdxHeaders.Toml

/-- The text without the blanks in front. -/
def skipBlanks (t : Text) : Text :=
  t.dropWhile isBlank

/-- The text without the blanks, line ends and comments in front. A comment is going on if
`comment`. -/
def skipLines (comment : Bool) : Text → Text
  | '\n' :: t => skipLines false t
  | '\r' :: '\n' :: t => skipLines false t
  | c :: t =>
    if comment then if isPlain c then skipLines true t else c :: t
    else if isBlank c then skipLines false t
    else if c = '#' then skipLines true t
    else c :: t
  | [] => []

/-- What follows the end of a line, which may hold a comment. -/
def afterLine? (t : Text) : Option Text :=
  let t := skipBlanks t
  let t := if t.head? = some '#' then t.dropWhile isPlain else t
  match t with
  | [] => some []
  | '\n' :: t => some t
  | '\r' :: '\n' :: t => some t
  | _ => none

/-- A character of a key without quotes. -/
def isBare (c : Char) : Bool :=
  c.isAlphanum || c = '_' || c = '-'

/-- A part of a dotted key. -/
def keyPart : Text → Option (Text × Text)
  | '"' :: t => basic t
  | '\'' :: t => literal t
  | t =>
    let part := t.takeWhile isBare
    if part.isEmpty then none else some (part, t.dropWhile isBare)

/-- The most parts that a dotted key may have, and the most arrays and inline tables that may be
within each other. -/
def maxDepth : Nat :=
  79

/-- The parts of a dotted key. -/
def keyParts : (budget : Nat) → Text → Option (List Text × Text)
  | 0, _ => none
  | budget + 1, t => do
    let (part, t) ← keyPart (skipBlanks t)
    match skipBlanks t with
    | '.' :: t => do
      let (parts, t) ← keyParts budget t
      return (part :: parts, t)
    | t => return ([part], t)

/-- A dotted key: all parts but the last, the last, and what follows. -/
def key (t : Text) : Option (List Text × Text × Text) := do
  let (parts, t) ← keyParts maxDepth t
  return (parts.dropLast, parts.getLastD [], t)

mutual
/-- A value. -/
def value (depth : Nat) : (fuel : Nat) → Text → Option (Value × Text)
  | 0, _ => none
  | fuel + 1, t =>
    match t, depth with
    | '[' :: _, 0 => none
    | '[' :: t, depth + 1 => do
      let (items, t) ← arrayItems depth fuel (skipLines false t)
      return (.array items, t)
    | '\x7b' :: _, 0 => none
    | '\x7b' :: t, depth + 1 => do
      let (as, t) ← inlineFields depth fuel true (skipBlanks t)
      let _ ← assignAll as []
      return (.other, t)
    | c :: _, _ =>
      if c = '"' || c = '\'' then (quoted t).map fun r => (.string r.1, r.2)
      else
        (Text.after? "true" t <|> Text.after? "false" t <|> afterMoment? t <|> afterNumber? t).map
          (.other, ·)
    | [], _ => none

/-- The items of an array and what follows its bracket. -/
def arrayItems (depth : Nat) : (fuel : Nat) → Text → Option (List Value × Text)
  | 0, _ => none
  | fuel + 1, t =>
    match t with
    | ']' :: t => some ([], t)
    | t => do
      let (v, t) ← value depth fuel t
      match skipLines false t with
      | ',' :: t =>
        let (vs, t) ← arrayItems depth fuel (skipLines false t)
        return (v :: vs, t)
      | ']' :: t => return ([v], t)
      | _ => none

/-- The fields of an inline table and what follows its brace. Only the first may be missing. -/
def inlineFields (depth : Nat) : (fuel : Nat) → (first : Bool) → Text →
    Option (List Assignment × Text)
  | 0, _, _ => none
  | fuel + 1, first, t =>
    match t, first with
    | '\x7d' :: t, true => some ([], t)
    | t, _ => do
      let (a, t) ← assignment depth fuel t
      match skipBlanks t with
      | ',' :: t =>
        let (as, t) ← inlineFields depth fuel false (skipBlanks t)
        return (a :: as, t)
      | '\x7d' :: t => return ([a], t)
      | _ => none

/-- A key with its value. -/
def assignment (depth : Nat) : (fuel : Nat) → Text → Option (Assignment × Text)
  | 0, _ => none
  | fuel + 1, t => do
    let (path, key, t) ← key t
    let t ← Text.after? "=" t
    let (v, t) ← value depth fuel (skipBlanks t)
    return (⟨path, key, v⟩, t)
end

/-- Reads the sections of a document. The assignments of the section that is being read come last
first. -/
def sections : (fuel : Nat) → Header → List Assignment → Text → Option (List Section)
  | 0, _, _, _ => none
  | fuel + 1, header, as, t =>
    match skipBlanks t with
    | [] => some [⟨header, as.reverse⟩]
    | '\n' :: t => sections fuel header as t
    | '\r' :: '\n' :: t => sections fuel header as t
    | '#' :: t => do sections fuel header as (← afterLine? ('#' :: t))
    | '[' :: '[' :: t => do
      let (path, name, t) ← key t
      let t ← afterLine? (← Text.after? "]]" t)
      return ⟨header, as.reverse⟩ :: (← sections fuel (.element path name) [] t)
    | '[' :: t => do
      let (path, name, t) ← key t
      let t ← afterLine? (← Text.after? "]" t)
      return ⟨header, as.reverse⟩ :: (← sections fuel (.table path name) [] t)
    | t => do
      let (a, t) ← assignment maxDepth t.length t
      sections fuel header (a :: as) (← afterLine? t)

/-- The document that a text stands for. A byte order mark in front does not count. -/
def ofText? (t : Text) : Option Entries := do
  let t := (Text.after? "\ufeff" t).getD t
  ofSections (← sections (t.length + 1) .top [] t)

end SpdxHeaders.Toml
