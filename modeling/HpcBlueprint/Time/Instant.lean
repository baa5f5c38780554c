/-
  Moments of time in the calendar of UTC.

  A moment is a number of seconds since the start of 1970 and a fraction in nanoseconds. In
  a leap second the fraction goes on from one whole second.
-/

namespace HpcBlueprint

/-- A moment of time. -/
structure Instant where
  /-- Seconds since the start of 1970. -/
  seconds : Int
  /-- Nanoseconds; a whole second or more in a leap second. -/
  nanos : Nat
deriving DecidableEq, Inhabited

namespace Instant

/-! ## Calendar -/

/-- Whether a year has a 29th of February. -/
def isLeap (year : Int) : Bool := year % 4 == 0 && (year % 100 != 0 || year % 400 == 0)

/-- The number of days of a month. -/
def monthLength (year : Int) (month : Nat) : Nat :=
  match month with
  | 2 => if isLeap year then 29 else 28
  | 4 | 6 | 9 | 11 => 30
  | _ => 31

/-- The number of days from the start of the year 1970 to the start of a year. -/
def daysBeforeYear (year : Int) : Int :=
  let y := year - 1
  y * 365 + Int.fdiv y 4 - Int.fdiv y 100 + Int.fdiv y 400 - 719162

/-- The number of days of a year before a month. -/
def daysBeforeMonth (year : Int) (month : Nat) : Nat :=
  ((List.range month).filter (0 < ·)).foldl (fun days m => days + monthLength year m) 0

/-- The number of days from the start of 1970 to a date. -/
def daysOf (year : Int) (month day : Nat) : Int :=
  daysBeforeYear year + daysBeforeMonth year month + (day - 1 : Nat)

/-- The year in which a day lies. -/
def yearOf (days : Int) : Int :=
  let guess := 1970 + Int.fdiv (days * 400) 146097
  if days < daysBeforeYear guess then guess - 1
  else if daysBeforeYear (guess + 1) ≤ days then guess + 1
  else guess

/-- The month and day of a day of a year, counted from zero, given the month reached. -/
def monthAndDay (year : Int) : Nat → Nat → Nat → Nat × Nat
  | 0, month, day => (month, day + 1)
  | left + 1, month, day =>
    let length := monthLength year month
    if day < length then (month, day + 1) else monthAndDay year left (month + 1) (day - length)

/-! ## Text -/

/-- A number with zeros in front up to a width. -/
def padded (width n : Nat) : String :=
  let digits := toString n
  String.ofList (List.replicate (width - digits.length) '0') ++ digits

/-- A year has four digits, and a sign outside of those. -/
def yearText (year : Int) : String :=
  if 0 ≤ year && year ≤ 9999 then padded 4 year.toNat
  else (if year < 0 then "-" else "+") ++ padded (if year < 0 then 4 else 5) year.natAbs

/-- A fraction has three, six or nine digits, and none if it is zero. -/
def fractionText (nanos : Nat) : String :=
  if nanos == 0 then ""
  else if nanos % 1000000 == 0 then "." ++ padded 3 (nanos / 1000000)
  else if nanos % 1000 == 0 then "." ++ padded 6 (nanos / 1000)
  else "." ++ padded 9 nanos

/-- A moment in UTC; `zone` is how UTC is written. -/
def render (t : Instant) (zone : String) : String :=
  let days := Int.fdiv t.seconds 86400
  let second := (t.seconds - days * 86400).toNat
  let year := yearOf days
  let (month, day) := monthAndDay year 11 1 (days - daysBeforeYear year).toNat
  let isLeapSecond := decide (1000000000 ≤ t.nanos)
  yearText year ++ "-" ++ padded 2 month ++ "-" ++ padded 2 day ++ "T" ++
    padded 2 (second / 3600) ++ ":" ++ padded 2 (second / 60 % 60) ++ ":" ++
    padded 2 (second % 60 + if isLeapSecond then 1 else 0) ++
    fractionText (if isLeapSecond then t.nanos - 1000000000 else t.nanos) ++ zone

end Instant

end HpcBlueprint
