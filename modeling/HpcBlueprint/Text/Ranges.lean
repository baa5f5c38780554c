/-
  Classes of characters, listed as ranges of code points.
-/

namespace HpcBlueprint.Text

/-- Whether one of the ranges, both ends included, holds the code point of a character. -/
def inRanges (ranges : Array (Nat × Nat)) (c : Char) : Bool :=
  ranges.any fun (first, last) => first ≤ c.toNat && c.toNat ≤ last

end HpcBlueprint.Text
