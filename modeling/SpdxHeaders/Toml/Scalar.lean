import SpdxHeaders.Calendar
import SpdxHeaders.Text.Basic

/-!
# Numbers and times of TOML

These functions take a number or a time off the front of a text and give what follows it. Nothing
but well-formedness is asked of numbers and times.
-/

namespace SpdxHeaders.Toml

/-- A blank inside a line. -/
def isBlank (c : Char) : Bool :=
  c = ' ' || c = '\t'

/-- A character that may stand in comments and strings as it is. -/
def isPlain (c : Char) : Bool :=
  c = '\t' || (0x20 ≤ c.toNat && c.toNat ≠ 0x7f)

/-- A hexadecimal digit. -/
def isHexDigit (c : Char) : Bool :=
  c.isDigit || ('a' ≤ c && c ≤ 'f') || ('A' ≤ c && c ≤ 'F')

/-- The value of a digit. -/
def digitValue (c : Char) : Nat :=
  if c.isDigit then c.toNat - '0'.toNat
  else if 'a' ≤ c then c.toNat - 'a'.toNat + 10
  else c.toNat - 'A'.toNat + 10

/-- The number that digits of a base stand for. -/
def numeral (base : Nat) (digits : Text) : Nat :=
  digits.foldl (fun n c => base * n + digitValue c) 0

/-- Digits behind a first one. An underscore may stand between two digits. -/
def moreDigits (isDigit : Char → Bool) : Text → Option (Text × Text)
  | '_' :: c :: t => if isDigit c then (moreDigits isDigit t).map fun r => (c :: r.1, r.2) else none
  | ['_'] => none
  | c :: t =>
    if isDigit c then (moreDigits isDigit t).map fun r => (c :: r.1, r.2) else some ([], c :: t)
  | [] => some ([], [])

/-- At least one digit. -/
def digits (isDigit : Char → Bool) : Text → Option (Text × Text)
  | c :: t => if isDigit c then (moreDigits isDigit t).map fun r => (c :: r.1, r.2) else none
  | [] => none

/-- A decimal number without needless zeros in front. -/
def decimal : Text → Option (Text × Text)
  | '0' :: t => some (['0'], t)
  | t => digits Char.isDigit t

/-- A sign, if there is one: whether it is a minus, and what follows. -/
def sign : Text → Bool × Text
  | '+' :: t => (false, t)
  | '-' :: t => (true, t)
  | t => (false, t)

/-- The digits of a fraction, if there is one. -/
def fraction : Text → Option (Text × Text)
  | '.' :: t => digits Char.isDigit t
  | t => some ([], t)

/-- An exponent, if there is one. -/
def exponent : Text → Option (Int × Text)
  | c :: t =>
    if c = 'e' || c = 'E' then do
      let (negative, t) := sign t
      let (ds, t) ← digits Char.isDigit t
      return (if negative then -numeral 10 ds else numeral 10 ds, t)
    else some (0, c :: t)
  | [] => some (0, [])

/-- A positive number that is too large for a binary number of 64 bits with 53 significant ones:
`significand` times ten to the power of `scale` rounds to no such number. -/
def overflows (significand : Nat) (scale : Int) : Bool :=
  let magnitude : Int := (Nat.toDigits 10 significand).length + scale
  if significand = 0 || magnitude < 309 then false
  else if 309 < magnitude then true
  else if 0 ≤ scale then Nat.pow 2 1024 - Nat.pow 2 970 ≤ significand * Nat.pow 10 scale.toNat
  else (Nat.pow 2 1024 - Nat.pow 2 970) * Nat.pow 10 scale.natAbs ≤ significand

/-- A whole number fits into 64 bits. -/
def fits (negative : Bool) (n : Nat) : Bool :=
  if negative then n ≤ Nat.pow 2 63 else n < Nat.pow 2 63

/-- What follows a whole number of a base, written behind its mark. -/
def afterBased? (isDigit : Char → Bool) (base : Nat) (t : Text) : Option Text := do
  let (ds, t) ← digits isDigit t
  if fits false (numeral base ds) then some t else none

/-- What follows a number in decimal digits. -/
def afterDecimal? (t : Text) : Option Text := do
  let (negative, t) := sign t
  let (whole, rest) ← decimal t
  let (frac, t) ← fraction rest
  let (e, t) ← exponent t
  if t.length = rest.length then
    if fits negative (numeral 10 whole) then some t else none
  else if !negative && overflows (numeral 10 (whole ++ frac)) (e - frac.length) then none
  else some t

/-- What follows a number. -/
def afterNumber? (t : Text) : Option Text :=
  match t with
  | '0' :: 'x' :: t => afterBased? isHexDigit 16 t
  | '0' :: 'o' :: t => afterBased? (fun c => '0' ≤ c && c ≤ '7') 8 t
  | '0' :: 'b' :: t => afterBased? (fun c => c = '0' || c = '1') 2 t
  | t =>
    Text.after? "inf" (sign t).2 <|> Text.after? "nan" (sign t).2 <|> afterDecimal? t

/-- A number of a fixed count of digits, within bounds. -/
def bounded (count low high : Nat) (t : Text) : Option (Nat × Text) :=
  let ds := t.take count
  let n := numeral 10 ds
  if ds.length = count && ds.all Char.isDigit && low ≤ n && n ≤ high then some (n, t.drop count)
  else none

/-- What follows a date. -/
def afterDate? (t : Text) : Option Text := do
  let (year, t) ← bounded 4 0 9999 t
  let t ← Text.after? "-" t
  let (month, t) ← bounded 2 1 12 t
  let t ← Text.after? "-" t
  let (_, t) ← bounded 2 1 (Calendar.daysIn year month) t
  return t

/-- What follows hours and minutes. -/
def afterMinutes? (t : Text) : Option Text := do
  let (_, t) ← bounded 2 0 23 t
  let t ← Text.after? ":" t
  let (_, t) ← bounded 2 0 59 t
  return t

/-- What follows a time of day. -/
def afterTime? (t : Text) : Option Text := do
  let t ← Text.after? ":" (← afterMinutes? t)
  let (_, t) ← bounded 2 0 60 t
  match t with
  | '.' :: c :: rest => if c.isDigit then some (rest.dropWhile Char.isDigit) else some t
  | _ => some t

/-- What follows the offset of a zone. -/
def afterOffset? : Text → Option Text
  | 'Z' :: t | 'z' :: t => some t
  | '+' :: t | '-' :: t => afterMinutes? t
  | _ => none

/-- What follows a time with its zone, if that is given, behind a date. -/
def afterClock (t : Text) : Text :=
  let behind : Option Text :=
    match t with
    | 'T' :: t | 't' :: t | ' ' :: t => afterTime? t
    | _ => none
  match behind with
  | some t => (afterOffset? t).getD t
  | none => t

/-- What follows a date, a time of day, or both. -/
def afterMoment? (t : Text) : Option Text :=
  (afterDate? t).map afterClock <|> afterTime? t

end SpdxHeaders.Toml
