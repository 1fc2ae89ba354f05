/-!
# The calendar

The lengths of years and months in the proleptic Gregorian calendar.
-/

namespace SpdxHeaders.Calendar

/-- A year has 366 days. -/
def isLeap (year : Int) : Bool :=
  year % 4 = 0 && (year % 100 ≠ 0 || year % 400 = 0)

/-- The number of days of a month. -/
def daysIn (year : Int) (month : Nat) : Nat :=
  if month = 2 then if isLeap year then 29 else 28
  else if month = 4 || month = 6 || month = 9 || month = 11 then 30
  else 31

end SpdxHeaders.Calendar
