/-
  The smallest parts of HCL: gaps, names, numbers and escapes.
-/
import HpcBlueprint.Json.Reader
import HpcBlueprint.Number
import HpcBlueprint.Text.Identifier

namespace HpcBlueprint.Hcl

/-! ## Gaps -/

/-- What is left of a text after its first line break; none if there is no line. -/
def lineBreak? : List Char → Option (List Char)
  | '\n' :: rest => some rest
  | '\r' :: '\n' :: rest => some rest
  | _ => none

/-- What is left at the end of the line; a carriage return has to end it. -/
def toLineEnd : List Char → Option (List Char)
  | [] => some []
  | '\n' :: rest => some ('\n' :: rest)
  | '\r' :: '\n' :: rest => some ('\r' :: '\n' :: rest)
  | '\r' :: _ => none
  | _ :: rest => toLineEnd rest

/-- What is left after a comment that ends with the line. -/
def lineComment? : List Char → Option (List Char)
  | '#' :: rest => toLineEnd rest
  | '/' :: '/' :: rest => toLineEnd rest
  | _ => none

/-- What is left behind the end of a comment. -/
def behindComment? : List Char → Option (List Char)
  | '*' :: '/' :: rest => some rest
  | _ :: rest => behindComment? rest
  | [] => none

/-- What is left after a comment within lines. -/
def inlineComment? : List Char → Option (List Char)
  | '/' :: '*' :: rest => behindComment? rest
  | _ => none

/-- Skips blanks and comments; `lines` says whether line breaks may be skipped too. -/
def skipWithin (lines : Bool) : Nat → List Char → List Char
  | 0, cs => cs
  | bound + 1, cs =>
    let cs := cs.dropWhile fun c => c == ' ' || c == '\t' || (lines && (c == '\n' || c == '\r'))
    match inlineComment? cs with
    | some rest => skipWithin lines bound rest
    | none =>
      match if lines then lineComment? cs else none with
      | some rest => skipWithin lines bound rest
      | none => cs

/-- What is left of a text after a gap. -/
def skipGap (lines : Bool) (cs : List Char) : List Char := skipWithin lines cs.length cs

/-- What is left after the rest of a line that holds nothing more. -/
def endOfLine? (cs : List Char) : Option (List Char) :=
  let cs := skipGap false cs
  let cs := (lineComment? cs).getD cs
  if cs.isEmpty then some [] else lineBreak? cs

/-! ## Names -/

/-- Whether a name may begin with a character: as identifiers do, or with an underscore. -/
def isNameStart (c : Char) : Bool := Text.beginsIdentifier c || c == '_'

/-- Whether a name may go on with a character: as identifiers do, or with a hyphen. -/
def isNamePart (c : Char) : Bool := Text.inIdentifier c || c == '-'

/-- A name. -/
def name? : List Char → Option (String × List Char)
  | c :: rest =>
    if isNameStart c then
      some (String.ofList (c :: rest.takeWhile isNamePart), rest.dropWhile isNamePart)
    else none
  | [] => none

/-- What is left after a given word that is a whole name. -/
def keyword? (word : String) (cs : List Char) : Option (List Char) :=
  match name? cs with
  | some (name, rest) => if name == word then some rest else none
  | none => none

/-! ## Numbers -/

/-- A double as a number: a whole one is an integer, kept within 64 bits. -/
def ofBinary64 (x : Binary64) : Number :=
  let unit := Nat.pow 2 (-x.scale).toNat
  if 0 ≤ x.scale then
    .int (min (x.significand * Nat.pow 2 x.scale.toNat) (Nat.pow 2 63 - 1) : Nat)
  else if x.significand % unit == 0 then .int (x.significand / unit : Nat)
  else .float x

/-- The fraction and exponent behind the digits of a number. -/
def fractionAndExponent? (cs : List Char) : Option (Option (List Char × Int) × List Char) :=
  let (fraction, rest) := match cs with
    | '.' :: more =>
      let digits := more.takeWhile Char.isDigit
      if digits.isEmpty then ([], cs) else (digits, more.drop digits.length)
    | _ => ([], cs)
  match rest with
  | e :: more =>
    if e == 'e' || e == 'E' then
      let (negative, more) := match more with
        | '-' :: more => (true, more)
        | '+' :: more => (false, more)
        | more => (false, more)
      (Json.digits? more).map fun (digits, rest) =>
        let n := (Json.digitsValue digits : Int)
        (some (fraction, if negative then -n else n), rest)
    else some (if fraction.isEmpty then none else some (fraction, 0), rest)
  | [] => some (if fraction.isEmpty then none else some (fraction, 0), rest)

/-- A number without a sign. Integers have to fit into 64 bits, and doubles must be finite. -/
def number? (cs : List Char) : Option (Number × List Char) := do
  let (digits, rest) ← Json.digits? cs
  match ← fractionAndExponent? rest with
  | (none, rest) =>
    let n := Json.digitsValue digits
    if n < Nat.pow 2 64 then some (.int n, rest) else none
  | (some (fraction, exponent), rest) =>
    let x := Binary64.ofDecimal false (Json.digitsValue (digits ++ fraction))
      (exponent - fraction.length)
    if x.isFinite then some (ofBinary64 x, rest) else none

/-- A number with its sign turned. Integers are taken modulo `2 ^ 64`, into 64 signed bits. -/
def negated : Number → Number
  | .int n => .int ((-n).bmod (Nat.pow 2 64))
  | .float x => .float (Binary64.ofMagnitude (!x.isNegative) (x.bits.toNat % Nat.pow 2 63))

/-! ## Escapes -/

/-- Hexadecimal digits, exactly so many. -/
def hexDigits? : Nat → Nat → List Char → Option (Nat × List Char)
  | 0, value, cs => some (value, cs)
  | n + 1, value, c :: rest => do hexDigits? n (value * 16 + (← Json.hexDigit? c)) rest
  | _ + 1, _, [] => none

/-- The character with a code point of so many hexadecimal digits. -/
def numbered? (digits : Nat) (cs : List Char) : Option (Char × List Char) := do
  let (n, rest) ← hexDigits? digits 0 cs
  if n.isValidChar then some (Char.ofNat n, rest) else none

/-- The character of an escape whose backslash has been read. -/
def escape? : List Char → Option (Char × List Char)
  | 'u' :: rest => numbered? 4 rest
  | 'U' :: rest => numbered? 8 rest
  | c :: rest => (Json.lettered? c).map fun c => (c, rest)
  | [] => none

end HpcBlueprint.Hcl
