/-
  Reading JSON.

  The reader is strict: no comments, no trailing commas, nothing behind the document.
-/
import HpcBlueprint.Json.Basic

namespace HpcBlueprint.Json

/-! ## Scalars -/

/-- What is left of a text after its leading white space. -/
def skipSpace (cs : List Char) : List Char :=
  cs.dropWhile fun c => c == ' ' || c == '\n' || c == '\t' || c == '\r'

/-- The value of a hexadecimal digit. -/
def hexDigit? (c : Char) : Option Nat :=
  if c.isDigit then some (c.toNat - '0'.toNat)
  else if 'a' ≤ c ∧ c ≤ 'f' then some (c.toNat - 'a'.toNat + 10)
  else if 'A' ≤ c ∧ c ≤ 'F' then some (c.toNat - 'A'.toNat + 10)
  else none

/-- Four hexadecimal digits. -/
def unit? : List Char → Option (Nat × List Char)
  | a :: b :: c :: d :: rest => do
    let a ← hexDigit? a
    let b ← hexDigit? b
    let c ← hexDigit? c
    let d ← hexDigit? d
    return (((a * 16 + b) * 16 + c) * 16 + d, rest)
  | _ => none

/-- The character of an escape by number: one unit, or a high and a low one. -/
def numbered? (cs : List Char) : Option (Char × List Char) := do
  let (u, rest) ← unit? cs
  if 0xd800 ≤ u && u < 0xdc00 then
    match rest with
    | '\\' :: 'u' :: more => do
      let (v, rest) ← unit? more
      if 0xdc00 ≤ v && v < 0xe000 then
        return (Char.ofNat (0x10000 + (u - 0xd800) * 0x400 + (v - 0xdc00)), rest)
      else none
    | _ => none
  else if 0xdc00 ≤ u && u < 0xe000 then none
  else return (Char.ofNat u, rest)

/-- The character of a one-letter escape. -/
def lettered? : Char → Option Char
  | '"' => some '"'
  | '\\' => some '\\'
  | '/' => some '/'
  | 'b' => some '\x08'
  | 'f' => some '\x0c'
  | 'n' => some '\n'
  | 'r' => some '\r'
  | 't' => some '\t'
  | _ => none

/-- The rest of a text behind its opening quote; `kept` holds what was read, last first. -/
def stringFrom (bound : Nat) (kept : List Char) (cs : List Char) : Option (String × List Char) :=
  match bound with
  | 0 => none
  | bound + 1 =>
    match cs with
    | '"' :: rest => some (String.ofList kept.reverse, rest)
    | '\\' :: 'u' :: rest => do
      let (c, rest) ← numbered? rest
      stringFrom bound (c :: kept) rest
    | '\\' :: letter :: rest => do
      let c ← lettered? letter
      stringFrom bound (c :: kept) rest
    | c :: rest => if c.toNat < 0x20 then none else stringFrom bound (c :: kept) rest
    | [] => none

/-- The text whose opening quote has been read. -/
def string? (cs : List Char) : Option (String × List Char) := stringFrom (cs.length + 1) [] cs

/-- Digits, at least one. -/
def digits? (cs : List Char) : Option (List Char × List Char) :=
  let digits := cs.takeWhile Char.isDigit
  if digits.isEmpty then none else some (digits, cs.drop digits.length)

/-- The number that some digits write. -/
def digitsValue (digits : List Char) : Nat :=
  digits.foldl (fun n c => n * 10 + (c.toNat - '0'.toNat)) 0

/-- The digits before the point: no zero stands before another. -/
def whole? (cs : List Char) : Option (List Char × List Char) :=
  match cs with
  | '0' :: rest => if rest.head?.any Char.isDigit then none else some (['0'], rest)
  | _ => digits? cs

/-- A fraction, if there is one. -/
def fraction? (cs : List Char) : Option (List Char × List Char) :=
  match cs with
  | '.' :: rest => (digits? rest).map fun (d, rest) => ('.' :: d, rest)
  | _ => some ([], cs)

/-- An exponent, if there is one. -/
def exponent? (cs : List Char) : Option (List Char × List Char) :=
  match cs with
  | e :: sign :: rest =>
    if e != 'e' && e != 'E' then some ([], cs)
    else if sign == '+' || sign == '-' then
      (digits? rest).map fun (d, rest) => (e :: sign :: d, rest)
    else (digits? (sign :: rest)).map fun (d, rest) => (e :: d, rest)
  | [e] => if e != 'e' && e != 'E' then some ([], cs) else none
  | [] => some ([], [])

/-- A number. -/
def number? (cs : List Char) : Option (String × List Char) := do
  let (sign, rest) := match cs with
    | '-' :: rest => (['-'], rest)
    | _ => ([], cs)
  let (whole, rest) ← whole? rest
  let (fraction, rest) ← fraction? rest
  let (exponent, rest) ← exponent? rest
  return (String.ofList (sign ++ whole ++ fraction ++ exponent), rest)

/-- The rest of a text behind a word. -/
def word? (word : String) (cs : List Char) : Option (List Char) :=
  if word.toList.isPrefixOf cs then some (cs.drop word.length) else none

/-! ## Documents -/

namespace Data

mutual

/-- A document; the bound limits how often the reader goes on. -/
def readValue : Nat → List Char → Option (Data × List Char)
  | 0, _ => none
  | bound + 1, cs =>
    match skipSpace cs with
    | '"' :: rest => (string? rest).map fun (s, rest) => (.string s, rest)
    | '[' :: rest =>
      match skipSpace rest with
      | ']' :: rest => some (.array [], rest)
      | rest => (readItems bound rest).map fun (items, rest) => (.array items, rest)
    | '\x7b' :: rest =>
      match skipSpace rest with
      | '\x7d' :: rest => some (.object [], rest)
      | rest => (readFields bound rest).map fun (fields, rest) => (.object fields, rest)
    | 't' :: rest => (word? "rue" rest).map fun rest => (.bool true, rest)
    | 'f' :: rest => (word? "alse" rest).map fun rest => (.bool false, rest)
    | 'n' :: rest => (word? "ull" rest).map fun rest => (.null, rest)
    | rest => (number? rest).map fun (text, rest) => (.number text, rest)

/-- The items of an array up to its end. -/
def readItems : Nat → List Char → Option (List Data × List Char)
  | 0, _ => none
  | bound + 1, cs => do
    let (d, rest) ← readValue bound cs
    match skipSpace rest with
    | ',' :: rest => (readItems bound rest).map fun (items, rest) => (d :: items, rest)
    | ']' :: rest => some ([d], rest)
    | _ => none

/-- The fields of an object up to its end. -/
def readFields : Nat → List Char → Option (List (String × Data) × List Char)
  | 0, _ => none
  | bound + 1, cs =>
    match skipSpace cs with
    | '"' :: rest => do
      let (name, rest) ← string? rest
      match skipSpace rest with
      | ':' :: rest => do
        let (d, rest) ← readValue bound rest
        match skipSpace rest with
        | ',' :: rest =>
          (readFields bound rest).map fun (fields, rest) => ((name, d) :: fields, rest)
        | '\x7d' :: rest => some ([(name, d)], rest)
        | _ => none
      | _ => none
    | _ => none

end

/-- The document that a text holds. -/
def ofText? (text : String) : Option Data :=
  let cs := text.toList
  match readValue (2 * cs.length + 2) cs with
  | some (d, rest) => if (skipSpace rest).isEmpty then some d else none
  | none => none

/-- The content of a text. -/
def string? : Data → Option String
  | .string s => some s
  | _ => none

/-- The content of a list of texts. -/
def strings? : Data → Option (List String)
  | .array items => items.mapM string?
  | _ => none

/-- The value of a field that is written exactly once. -/
def single? (fields : List (String × Data)) (name : String) : Option Data :=
  match fields.filter (·.1 == name) with
  | [(_, d)] => some d
  | _ => none

end Data

end HpcBlueprint.Json
