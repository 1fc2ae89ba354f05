import SpdxHeaders.Calendar
import SpdxHeaders.Text.Basic

/-!
# Timestamps

Points in time of the proleptic Gregorian calendar, as RFC 3339 writes them. A second may be the
leap second 60. A fraction is written with as few groups of three digits as it needs.
-/

namespace SpdxHeaders

/-- A point in time, in UTC. -/
structure Timestamp where
  year : Int
  month : Nat
  day : Nat
  hour : Nat
  minute : Nat
  second : Nat
  nanosecond : Nat
  deriving DecidableEq, Repr

namespace Timestamp

/-- The day after. -/
def nextDay (t : Timestamp) : Timestamp :=
  if t.day < Calendar.daysIn t.year t.month then { t with day := t.day + 1 }
  else if t.month < 12 then { t with month := t.month + 1, day := 1 }
  else { t with year := t.year + 1, month := 1, day := 1 }

/-- The day before. -/
def previousDay (t : Timestamp) : Timestamp :=
  if 1 < t.day then { t with day := t.day - 1 }
  else if 1 < t.month then
    { t with month := t.month - 1, day := Calendar.daysIn t.year (t.month - 1) }
  else { t with year := t.year - 1, month := 12, day := 31 }

/-- Moves a time by less than a day, given in minutes. -/
def shift (minutes : Int) (t : Timestamp) : Timestamp :=
  let total : Int := t.hour * 60 + t.minute + minutes
  let ofDay := (total % 1440).toNat
  let t' := { t with hour := ofDay / 60, minute := ofDay % 60 }
  if total < 0 then t'.previousDay else if 1440 ≤ total then t'.nextDay else t'

/-- The day that many days after the first day of 1970. -/
def ofDay : (days : Nat) → Timestamp
  | 0 => ⟨1970, 1, 1, 0, 0, 0, 0⟩
  | days + 1 => (ofDay days).nextDay

/-- The time that many seconds and nanoseconds after the start of 1970. -/
def ofSeconds (seconds nanoseconds : Nat) : Timestamp :=
  let rest := seconds % 86400
  { ofDay (seconds / 86400) with
    hour := rest / 3600, minute := rest / 60 % 60, second := rest % 60
    nanosecond := nanoseconds }

/-- The digits of a number, filled up with zeros to a width. -/
def padded (width n : Nat) : Text :=
  let digits := Text.ofNat n
  List.replicate (width - digits.length) '0' ++ digits

/-- The text of a year; one of more or less than four digits has a sign. -/
def yearText (year : Int) : Text :=
  if 0 ≤ year ∧ year ≤ 9999 then padded 4 year.toNat
  else (if year < 0 then '-' else '+') :: padded 4 year.natAbs

/-- The text of a fraction of a second. -/
def fractionText (nanosecond : Nat) : Text :=
  if nanosecond = 0 then []
  else if nanosecond % 1000000 = 0 then '.' :: padded 3 (nanosecond / 1000000)
  else if nanosecond % 1000 = 0 then '.' :: padded 6 (nanosecond / 1000)
  else '.' :: padded 9 nanosecond

/-- The text of a time. -/
def text (t : Timestamp) : Text :=
  yearText t.year ++ '-' :: padded 2 t.month ++ '-' :: padded 2 t.day ++ 'T' :: padded 2 t.hour
    ++ ':' :: padded 2 t.minute ++ ':' :: padded 2 t.second ++ fractionText t.nanosecond ++ ['Z']

/-- Decimal digits at the start of a text, and what follows them. -/
def digits (t : Text) : Text × Text :=
  t.span Char.isDigit

/-- The number that decimal digits stand for. -/
def valueOf (digits : Text) : Nat :=
  digits.foldl (fun n c => 10 * n + (c.toNat - 48)) 0

/-- A number of two digits, and what follows it. -/
def twoDigits? : Text → Option (Nat × Text)
  | a :: b :: t => if a.isDigit && b.isDigit then some (valueOf [a, b], t) else none
  | _ => none

/-- A character among those expected, and what follows it. -/
def oneOf? (expected : Text) : Text → Option Text
  | c :: t => if expected.elem c then some t else none
  | [] => none

/-- A year, and what follows it. One without a sign has four digits. -/
def year? : Text → Option (Int × Text)
  | '+' :: t => let (ds, t) := digits t; if ds.length < 4 then none else some (valueOf ds, t)
  | '-' :: t => let (ds, t) := digits t; if ds.length < 4 then none else some (-valueOf ds, t)
  | t => let ds := t.take 4; if ds.length = 4 && ds.all Char.isDigit then some (valueOf ds, t.drop 4) else none

/-- The nanoseconds of a fraction, if there is one, and what follows it. Digits beyond the ninth do
not count. -/
def fraction? : Text → Option (Nat × Text)
  | '.' :: t =>
    let (ds, t) := digits t
    if ds.isEmpty then none else some (valueOf ((ds ++ "00000000".toList).take 9), t)
  | t => some (0, t)

/-- The offset of a zone in minutes. -/
def offset? : Text → Option Int
  | ['Z'] | ['z'] => some 0
  | sign :: t => do
    let (hours, t) ← twoDigits? t
    let t ← oneOf? ":" t
    let (minutes, t) ← twoDigits? t
    if !t.isEmpty || 23 < hours || 59 < minutes then none
    else if sign = '+' then some (hours * 60 + minutes : Nat)
    else if sign = '-' then some (-(hours * 60 + minutes : Nat))
    else none
  | [] => none

/-- The time that a text stands for. -/
def ofText? (t : Text) : Option Timestamp := do
  let (year, t) ← year? t
  let (month, t) ← twoDigits? (← oneOf? "-" t)
  let (day, t) ← twoDigits? (← oneOf? "-" t)
  let (hour, t) ← twoDigits? (← oneOf? "Tt " t)
  let (minute, t) ← twoDigits? (← oneOf? ":" t)
  let (second, t) ← twoDigits? (← oneOf? ":" t)
  let (nanosecond, t) ← fraction? t
  let offset ← offset? t
  if 1 ≤ month && month ≤ 12 && 1 ≤ day && day ≤ Calendar.daysIn year month && hour ≤ 23 && minute ≤ 59
      && second ≤ 60 then
    some (shift (-offset) ⟨year, month, day, hour, minute, second, nanosecond⟩)
  else none

end Timestamp

end SpdxHeaders
