/-
  What plain YAML scalars stand for.

  A plain scalar is null, a boolean, an integer, a floating-point number or a text, by its
  spelling alone. `resolve` decides; `isAmbiguous` says which texts other readers might
  take for something else, so that they are written in quotes.
-/
import HpcBlueprint.Number

namespace HpcBlueprint.Yaml

/-- The value of a scalar. -/
inductive Scalar
  | null
  | bool (b : Bool)
  | number (n : Number)
  /-- An integer beyond 64 bits but within 128. -/
  | wide (n : Int)
  | text (s : String)
deriving DecidableEq, Inhabited

namespace Scalar

/-! ## Spellings -/

/-- The spellings of null. -/
def isNull (s : String) : Bool := s == "null" || s == "Null" || s == "NULL" || s == "~"

/-- The spellings of the booleans. -/
def bool? (s : String) : Option Bool :=
  if s == "true" || s == "True" || s == "TRUE" then some true
  else if s == "false" || s == "False" || s == "FALSE" then some false
  else none

/-- The value of a digit in bases up to sixteen. -/
def digit? (base : Nat) (c : Char) : Option Nat :=
  let value? :=
    if '0' ≤ c && c ≤ '9' then some (c.toNat - 48)
    else if 'a' ≤ c && c ≤ 'f' then some (c.toNat - 87)
    else if 'A' ≤ c && c ≤ 'F' then some (c.toNat - 55)
    else none
  value?.filter (· < base)

/-- The number written by a non-empty run of digits. -/
def digits? (base : Nat) (s : List Char) : Option Nat :=
  if s.isEmpty then none
  else s.foldl (fun acc c => do return (← acc) * base + (← digit? base c)) (some 0)

/-- A number without its sign: in one of the bases that have a letter, or decimal without a
    leading zero. -/
def magnitude? : List Char → Option Nat
  | '0' :: 'x' :: rest => digits? 16 rest
  | '0' :: 'o' :: rest => digits? 8 rest
  | '0' :: 'b' :: rest => digits? 2 rest
  | '0' :: c :: rest => if (c :: rest).all Char.isDigit then none else digits? 10 ('0' :: c :: rest)
  | s => digits? 10 s

/-- An integer of any size. -/
def integer? (s : List Char) : Option Int :=
  match s with
  | '-' :: rest => (magnitude? rest).map fun n => -(n : Int)
  | '+' :: rest => (magnitude? rest).map Int.ofNat
  | rest => (magnitude? rest).map Int.ofNat

/-- A sign followed by one more zero-led run of digits is text, not a number. -/
def isZeroLed (s : List Char) : Bool :=
  let body := match s with
    | '-' :: rest => rest
    | '+' :: rest => rest
    | rest => rest
  match body with
  | '0' :: c :: rest => (c :: rest).all Char.isDigit
  | _ => false

/-- The exponent behind a decimal number: nothing, or a letter, a sign and digits. -/
def exponent? : List Char → Option Int
  | [] => some 0
  | c :: rest =>
    if c == 'e' || c == 'E' then
      match rest with
      | '-' :: ds => (digits? 10 ds).map fun n => -(n : Int)
      | '+' :: ds => (digits? 10 ds).map Int.ofNat
      | ds => (digits? 10 ds).map Int.ofNat
    else none

/-- A decimal number without its sign: digits with at most one point among them, at least
    one digit, and perhaps an exponent. -/
def decimal? (negative : Bool) (s : List Char) : Option Binary64 :=
  let whole := s.takeWhile Char.isDigit
  let rest := s.dropWhile Char.isDigit
  let (fraction, rest) := match rest with
    | '.' :: more => (more.takeWhile Char.isDigit, more.dropWhile Char.isDigit)
    | _ => ([], rest)
  match digits? 10 (whole ++ fraction), exponent? rest with
  | some d, some e => some (Binary64.ofDecimal negative d (e - fraction.length))
  | _, _ => none

/-- A floating-point number; one too large for a double is none. -/
def float? (s : String) : Option Binary64 :=
  if [".inf", ".Inf", ".INF", "+.inf", "+.Inf", "+.INF"].contains s then some (.infinity false)
  else if ["-.inf", "-.Inf", "-.INF"].contains s then some (.infinity true)
  else if [".nan", ".NaN", ".NAN"].contains s then some .nan
  else
    let x? := match s.toList with
      | '-' :: rest => decimal? true rest
      | '+' :: rest => decimal? false rest
      | rest => decimal? false rest
    x?.filter Binary64.isFinite

/-- An integer as a scalar, as long as it has at most 128 bits. -/
def ofInteger? (n : Int) : Option Scalar :=
  if -Int.pow 2 63 ≤ n && n < Int.pow 2 64 then some (.number (.int n))
  else if -Int.pow 2 127 ≤ n && n < Int.pow 2 128 then some (.wide n)
  else none

/-- A scalar that is spelled like an integer. -/
def integerScalar? (s : String) : Option Scalar := (integer? s.toList).bind ofInteger?

/-- What a plain scalar stands for. -/
def resolve (s : String) : Scalar :=
  if s.isEmpty || isNull s then .null
  else
    match bool? s with
    | some b => .bool b
    | none =>
      match integerScalar? s with
      | some n => n
      | none =>
        if isZeroLed s.toList then .text s
        else
          match float? s with
          | some x => .number (.float x)
          | none => .text s

end Scalar

end HpcBlueprint.Yaml
