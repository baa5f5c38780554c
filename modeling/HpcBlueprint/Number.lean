/-
  The numbers of a blueprint: integers of 64 bits, signed or unsigned, and doubles.

  An integer and a double are never equal, and a number is written in the one text that
  reads back as the same number.
-/
import HpcBlueprint.Decimal.Shortest

namespace HpcBlueprint

/-- An integer or a double. -/
inductive Number
  | int (n : Int)
  | float (x : Binary64)
deriving DecidableEq, Inhabited

namespace Number

/-- Doubles are positional up to sixteen places before the point and five behind it, always
    with a point or an exponent; the special values are spelled as in YAML. -/
def floatLayout : FloatLayout :=
  { infinity := ".inf", nan := ".nan", maxPoint := some 16, minPoint := -5 }

/-- The text of a number. -/
def text : Number → String
  | .int n => toString n
  | .float x => floatLayout.render x

/-- Whether two numbers are the same key: equal integers, or doubles of the same value. -/
def sameKey : Number → Number → Bool
  | .int m, .int n => m == n
  | .float x, .float y => x.sameNumber y
  | _, _ => false

end Number

end HpcBlueprint
