/-
  Double-precision numbers as bit patterns.

  A `Binary64` is its 64 bits, so equality is decidable and no arithmetic on
  floating-point hardware is involved. `Binary64.ofRatio` rounds a quotient of
  natural numbers to the nearest double, a tie going to the even significand;
  `Binary64.ofDecimal` reads `digits · 10 ^ exponent` through it.
-/

namespace HpcBlueprint

/-- A double-precision number, held as its bit pattern. -/
structure Binary64 where
  bits : UInt64
deriving DecidableEq, Inhabited

namespace Binary64

/-! ## Parts of a bit pattern -/

/-- The 52 bits below the exponent field. -/
def fractionField (x : Binary64) : Nat := x.bits.toNat % Nat.pow 2 52

/-- The 11 bits of the biased exponent. -/
def exponentField (x : Binary64) : Nat := x.bits.toNat / Nat.pow 2 52 % Nat.pow 2 11

/-- Whether the sign bit is set. -/
def isNegative (x : Binary64) : Bool := Nat.pow 2 63 ≤ x.bits.toNat

/-- A full exponent field with an empty fraction is an infinity. -/
def isInfinite (x : Binary64) : Bool := x.exponentField == 2047 && x.fractionField == 0

/-- A full exponent field with a fraction is not a number. -/
def isNaN (x : Binary64) : Bool := x.exponentField == 2047 && x.fractionField != 0

/-- Whether the number is neither an infinity nor NaN. -/
def isFinite (x : Binary64) : Bool := x.exponentField != 2047

/-- Whether the number is one of the two zeros. -/
def isZero (x : Binary64) : Bool := x.exponentField == 0 && x.fractionField == 0

/-- The significand `m` of a finite number `± m · 2 ^ scale`. -/
def significand (x : Binary64) : Nat :=
  if x.exponentField == 0 then x.fractionField else x.fractionField + Nat.pow 2 52

/-- The power of two that the significand of a finite number is scaled by. -/
def scale (x : Binary64) : Int :=
  if x.exponentField == 0 then -1074 else (x.exponentField : Int) - 1075

/-! ## Building numbers -/

/-- The number with this sign and these lower 63 bits. -/
def ofMagnitude (negative : Bool) (magnitude : Nat) : Binary64 :=
  ⟨(if negative then magnitude + Nat.pow 2 63 else magnitude).toUInt64⟩

/-- Zero of the given sign. -/
def zero (negative : Bool) : Binary64 := ofMagnitude negative 0

/-- Infinity of the given sign. -/
def infinity (negative : Bool) : Binary64 := ofMagnitude negative (2047 * Nat.pow 2 52)

/-- The quiet NaN with a clear sign. -/
def nan : Binary64 := ofMagnitude false (2047 * Nat.pow 2 52 + Nat.pow 2 51)

/-- `num / den` rounded to a whole number, a tie going to the even neighbour. -/
def roundQuotient (num den : Nat) : Nat :=
  let q := num / den
  let r := num % den
  if 2 * r < den then q else if den < 2 * r then q + 1 else q + q % 2

/-- `num / den / 2 ^ s` rounded to a whole number, a tie going to the even neighbour. -/
def roundScaled (num den : Nat) (s : Int) : Nat :=
  if 0 ≤ s then roundQuotient num (den * Nat.pow 2 s.toNat)
  else roundQuotient (num * Nat.pow 2 (-s).toNat) den

/-- Whether `2 ^ 53 ≤ num / den / 2 ^ s`: the quotient needs a larger scale. -/
def exceeds (num den : Nat) (s : Int) : Bool :=
  if 0 ≤ s then den * Nat.pow 2 s.toNat * Nat.pow 2 53 ≤ num
  else den * Nat.pow 2 53 ≤ num * Nat.pow 2 (-s).toNat

/-- The scale at which the quotient of two positive numbers has 53 significant bits,
    or the least scale if it is too small for that. -/
def scaleOf (num den : Nat) : Int :=
  let guess : Int := (Nat.log2 num : Int) - (Nat.log2 den : Int) - 53
  let guess := if guess < -1074 then -1074 else guess
  if exceeds num den guess then guess + 1 else guess

/-- The double nearest to `num / den`, a tie going to the even significand; quotients beyond
    the largest double become infinite. -/
def ofRatio (negative : Bool) (num den : Nat) : Binary64 :=
  if num == 0 then zero negative
  else
    let s := scaleOf num den
    let m := roundScaled num den s
    -- A significand that rounded up to 53 zeros moves into the next exponent by addition.
    let magnitude := if m < Nat.pow 2 52 then m else (s + 1074).toNat * Nat.pow 2 52 + m
    if 2047 * Nat.pow 2 52 ≤ magnitude then infinity negative else ofMagnitude negative magnitude

/-- The number of decimal digits of a natural number; zero has one. -/
def digitCount (n : Nat) : Nat := (Nat.toDigits 10 n).length

/-- The double nearest to `digits · 10 ^ exponent`. -/
def ofDecimal (negative : Bool) (digits : Nat) (exponent : Int) : Binary64 :=
  let magnitude := (digitCount digits : Int) + exponent
  if digits == 0 || magnitude < -400 then zero negative
  else if 400 < magnitude then infinity negative
  else if 0 ≤ exponent then ofRatio negative (digits * Nat.pow 10 exponent.toNat) 1
  else ofRatio negative digits (Nat.pow 10 (-exponent).toNat)

/-- Numeric equality: the two zeros are equal, and all NaNs count as one number. -/
def sameNumber (x y : Binary64) : Bool :=
  x == y || (x.isZero && y.isZero) || (x.isNaN && y.isNaN)

end Binary64

end HpcBlueprint
