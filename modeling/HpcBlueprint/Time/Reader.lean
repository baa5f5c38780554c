/-
  Reading moments of time.

  A date, a time and an offset from UTC, as in `2024-02-29T12:34:56.789+01:00`. Blanks may
  stand between the parts, and a blank may stand for the `T`.
-/
import HpcBlueprint.Text.Blank
import HpcBlueprint.Time.Instant

namespace HpcBlueprint.Instant

/-- What is left of a text after its leading blanks. -/
def skipBlanks (cs : List Char) : List Char := cs.dropWhile Text.isBlank

/-- The number that some digits write. -/
def digitsValue (digits : List Char) : Nat :=
  digits.foldl (fun n c => n * 10 + (c.toNat - '0'.toNat)) 0

/-- A number of at least one and at most `width` digits. -/
def number (width : Nat) (cs : List Char) : Option (Nat × List Char) :=
  let digits := (cs.take width).takeWhile Char.isDigit
  if digits.isEmpty then none else some (digitsValue digits, cs.drop digits.length)

/-- A number in a range after blanks. -/
def numberIn (low high : Nat) (cs : List Char) : Option (Nat × List Char) := do
  let (n, rest) ← number 2 (skipBlanks cs)
  if low ≤ n && n ≤ high then some (n, rest) else none

/-- A year: up to four digits, or any number of them after a sign. -/
def year (cs : List Char) : Option (Int × List Char) :=
  match skipBlanks cs with
  | '-' :: rest => (number rest.length rest).map fun (n, rest) => (-(n : Int), rest)
  | '+' :: rest => (number rest.length rest).map fun (n, rest) => ((n : Int), rest)
  | rest => (number 4 rest).map fun (n, rest) => ((n : Int), rest)

/-- What is left of a text after blanks and a mark. -/
def after (mark : Char) (cs : List Char) : Option (List Char) :=
  match skipBlanks cs with
  | c :: rest => if c == mark then some rest else none
  | [] => none

/-- A fraction of a second in nanoseconds; digits after the ninth mean nothing. -/
def fraction (cs : List Char) : Option (Nat × List Char) :=
  match cs with
  | '.' :: rest =>
    let digits := rest.takeWhile Char.isDigit
    let kept := digits.take 9
    if digits.isEmpty then none
    else some (digitsValue kept * Nat.pow 10 (9 - kept.length), rest.drop digits.length)
  | _ => some (0, cs)

/-- Two digits. -/
def twoDigits (cs : List Char) : Option (Nat × List Char) :=
  match cs with
  | a :: b :: rest => if a.isDigit && b.isDigit then some (digitsValue [a, b], rest) else none
  | _ => none

/-- The hours and minutes of an offset, in seconds. -/
def offsetSize (cs : List Char) : Option (Int × List Char) := do
  let (hours, rest) ← twoDigits cs
  let (minutes, rest) ← twoDigits (rest.dropWhile fun c => c == ':' || Text.isBlank c)
  if minutes < 60 then some ((hours * 3600 + minutes * 60 : Nat), rest) else none

/-- An offset from UTC in seconds: `Z`, `UTC`, or a sign with hours and minutes. -/
def offset (cs : List Char) : Option (Int × List Char) :=
  if (cs.take 3).map Char.toUpper == "UTC".toList then some (0, cs.drop 3)
  else
    match cs with
    | 'Z' :: rest | 'z' :: rest => some (0, rest)
    | '+' :: rest => offsetSize rest
    | '-' :: rest | '\u2212' :: rest => (offsetSize rest).map fun (n, rest) => (-n, rest)
    | _ => none

/-- The years that are read. -/
def minYear : Int := -262143

/-- The last year of the calendar. -/
def maxYear : Int := 262142

/-- The moment that a text names. -/
def ofText? (text : String) : Option Instant := do
  let (y, cs) ← year text.toList
  let cs ← after '-' cs
  let (month, cs) ← numberIn 1 12 cs
  let cs ← after '-' cs
  let (day, cs) ← numberIn 1 31 cs
  let cs ← match cs with
    | 'T' :: rest | 't' :: rest | ' ' :: rest => some rest
    | _ => none
  let (hour, cs) ← numberIn 0 23 cs
  let cs ← after ':' cs
  let (minute, cs) ← numberIn 0 59 cs
  let cs ← after ':' cs
  let (second, cs) ← numberIn 0 60 cs
  let (nanos, cs) ← fraction cs
  let (shift, cs) ← offset (skipBlanks cs)
  if !(skipBlanks cs).isEmpty then none
  else if y < minYear || maxYear < y || monthLength y month < day || 86400 ≤ shift.natAbs then none
  else
    let isLeapSecond := second == 60
    some {
      seconds := daysOf y month day * 86400 + (hour * 3600 + minute * 60 : Nat) +
        (if isLeapSecond then 59 else second : Nat) - shift
      nanos := nanos + if isLeapSecond then 1000000000 else 0 }

end HpcBlueprint.Instant
