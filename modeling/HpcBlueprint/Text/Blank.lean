/-
  White space of any script, and texts without it at their ends.
-/
import HpcBlueprint.Text.Ranges

namespace HpcBlueprint.Text

/-- The code points of white space, as ranges. -/
def blankRanges : Array (Nat × Nat) := #[
  (0x09, 0x0d), (0x20, 0x20), (0x85, 0x85), (0xa0, 0xa0), (0x1680, 0x1680), (0x2000, 0x200a),
  (0x2028, 0x2029), (0x202f, 0x202f), (0x205f, 0x205f), (0x3000, 0x3000)]

/-- Whether a character is white space. -/
def isBlank (c : Char) : Bool := inRanges blankRanges c

/-- A text without white space at its ends. -/
def trim (text : String) : String :=
  String.ofList ((text.toList.dropWhile isBlank).reverse.dropWhile isBlank).reverse

end HpcBlueprint.Text
