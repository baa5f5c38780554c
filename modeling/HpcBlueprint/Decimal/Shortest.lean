/-
  The shortest decimal text that reads back as the same double.

  `Binary64.shortest` finds the fewest digits for which some decimal lies in the
  interval of reals that round to the number, and of those the nearest. How the
  digits are laid out is a `FloatLayout`, one record value per written format.
-/
import HpcBlueprint.Decimal.Binary64

namespace HpcBlueprint

namespace Binary64

/-- The positive reals that round to a double, as three numerators over one denominator:
    the lower end, the number itself and the upper end. -/
structure Interval where
  low : Nat
  mid : Nat
  high : Nat
  den : Nat
  /-- The ends themselves round to the number iff its significand is even. -/
  closed : Bool

/-- The rounding interval of a positive finite number. The gap below a power of two is
    half as wide as the one above. -/
def interval (x : Binary64) : Interval :=
  let m := x.significand
  let s := x.scale
  let narrow := m == Nat.pow 2 52 && x.exponentField > 1
  let up := if 0 ≤ s then Nat.pow 2 s.toNat else 1
  let den := if 0 ≤ s then 4 else 4 * Nat.pow 2 (-s).toNat
  { low := (4 * m - if narrow then 1 else 2) * up
    mid := 4 * m * up
    high := (4 * m + 2) * up
    den := den
    closed := m % 2 == 0 }

/-- Whether the decimal `d · 10 ^ e` lies in the interval. -/
def Interval.covers (i : Interval) (d : Nat) (e : Int) : Bool :=
  let left := if 0 ≤ e then d * Nat.pow 10 e.toNat * i.den else d * i.den
  let scale := if 0 ≤ e then 1 else Nat.pow 10 (-e).toNat
  if i.closed then i.low * scale ≤ left && left ≤ i.high * scale
  else i.low * scale < left && left < i.high * scale

/-- The largest `d` with `d · 10 ^ e` at most the middle of the interval, and whether the
    next larger one is nearer (on a tie, whether it is the even one). -/
def Interval.below (i : Interval) (e : Int) : Nat × Bool :=
  let num := if 0 ≤ e then i.mid else i.mid * Nat.pow 10 (-e).toNat
  let den := if 0 ≤ e then i.den * Nat.pow 10 e.toNat else i.den
  let d := num / den
  let r := num % den
  (d, if 2 * r == den then d % 2 == 1 else den < 2 * r)

/-- The best decimal of the grid `· 10 ^ e` that lies in the interval, if one does. -/
def Interval.pick (i : Interval) (e : Int) : Option Nat :=
  let (d, upper) := i.below e
  let near := if upper then d + 1 else d
  let far := if upper then d else d + 1
  if i.covers near e then some near
  else if i.covers far e then some far
  else none

/-- The first grid, from coarse to fine, that has a decimal in the interval. -/
def Interval.search (i : Interval) : Nat → Int → Nat × Int
  | 0, e => ((i.below e).1, e)
  | n + 1, e =>
    match i.pick e with
    | some d => (d, e)
    | none => i.search n (e - 1)

/-- Moves trailing zeros of the digits into the exponent. -/
def stripZeros : Nat → Nat → Int → Nat × Int
  | 0, d, e => (d, e)
  | n + 1, d, e => if d != 0 && d % 10 == 0 then stripZeros n (d / 10) (e + 1) else (d, e)

/-- The decimal exponent at which a positive number has exactly one digit before the point,
    or one more than that. -/
def leadingExponent (i : Interval) : Int :=
  let guess : Int := ((Nat.log2 i.mid : Int) - (Nat.log2 i.den : Int)) * 30103 / 100000
  guess + 1

/-- The shortest decimal `d · 10 ^ e` that reads back as this positive finite number; of the
    shortest ones the nearest. -/
def shortest (x : Binary64) : Nat × Int :=
  let i := x.interval
  let (d, e) := i.search 19 (leadingExponent i)
  stripZeros 20 d e

end Binary64

/-- How the digits of a floating-point number are laid out in a text format. -/
structure FloatLayout where
  /-- The text of positive infinity; a minus sign goes in front for the other one. -/
  infinity : String
  nan : String
  /-- Positional notation is used while the point stands at most this many places after the
      first digit; `none` for always. -/
  maxPoint : Option Int
  /-- Positional notation is used while the point stands more than this many places before
      the first digit. -/
  minPoint : Int

namespace FloatLayout

/-- A run of zeros. -/
def zeros (n : Nat) : String := String.ofList (List.replicate n '0')

/-- The text of a positive finite number with the given shortest digits. A positional text
    always shows a point; an exponent is written without sign or padding when positive. -/
def digits (layout : FloatLayout) (d : Nat) (e : Int) : String :=
  let ds := Nat.toDigits 10 d
  let point : Int := ds.length + e
  let positional := match layout.maxPoint with
    | none => true
    | some top => layout.minPoint < point && point ≤ top
  if positional then
    if 0 ≤ e then String.ofList ds ++ zeros e.toNat ++ ".0"
    else if 0 < point then
      String.ofList (ds.take point.toNat) ++ "." ++ String.ofList (ds.drop point.toNat)
    else "0." ++ zeros (-point).toNat ++ String.ofList ds
  else
    let exponent := "e" ++ toString (point - 1)
    match ds with
    | [] => exponent
    | [c] => String.ofList [c] ++ exponent
    | c :: rest => String.ofList (c :: '.' :: rest) ++ exponent

/-- The text of a double in this layout. -/
def render (layout : FloatLayout) (x : Binary64) : String :=
  let sign := if x.isNegative then "-" else ""
  if x.isNaN then layout.nan
  else if x.isInfinite then sign ++ layout.infinity
  else if x.isZero then sign ++ "0.0"
  else
    let (d, e) := x.shortest
    sign ++ layout.digits d e

end FloatLayout

end HpcBlueprint
