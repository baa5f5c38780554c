/-
  JSON data, and how it is laid out over lines.
-/
import HpcBlueprint.Text.Quoted

namespace HpcBlueprint.Json

/-- A JSON document. Numbers keep the text they are written as. -/
inductive Data
  | null
  | bool (b : Bool)
  | number (text : String)
  | string (s : String)
  | array (items : List Data)
  /-- Fields in order. -/
  | object (fields : List (String × Data))
deriving Inhabited

/-! ## Texts -/

/-- Two hexadecimal digits. -/
def hexByte (n : Nat) : String :=
  let digits := Text.hex n
  if digits.length < 2 then "0" ++ digits else digits

/-- A character inside a text: quotes, backslashes and control characters are escaped. -/
def escaped (c : Char) : String :=
  match c with
  | '"' => "\\\""
  | '\\' => "\\\\"
  | '\n' => "\\n"
  | '\r' => "\\r"
  | '\t' => "\\t"
  | '\x08' => "\\b"
  | '\x0c' => "\\f"
  | c => if c.toNat < 0x20 then "\\u00" ++ hexByte c.toNat else String.ofList [c]

/-- A text in quotes. -/
def quoted (s : String) : String := "\"" ++ String.join (s.toList.map escaped) ++ "\""

/-! ## Layout -/

/-- The start of a line at a depth. -/
def indent (depth : Nat) : String := String.ofList (List.replicate (2 * depth) ' ')

/-- Lines between brackets; without lines the brackets meet. -/
def bracketed (opening closing : String) (depth : Nat) (lines : List String) : String :=
  if lines.isEmpty then opening ++ closing
  else
    opening ++ "\n" ++ ",\n".intercalate (lines.map (indent (depth + 1) ++ ·)) ++ "\n" ++
      indent depth ++ closing

namespace Data

mutual

/-- The layout of data at a depth: one item or field a line. -/
def layout (depth : Nat) : Data → String
  | .null => "null"
  | .bool b => toString b
  | .number text => text
  | .string s => quoted s
  | .array items => bracketed "[" "]" depth (layoutItems (depth + 1) items)
  | .object fields => bracketed "\x7b" "\x7d" depth (layoutFields (depth + 1) fields)

/-- The texts of the items of an array. -/
def layoutItems (depth : Nat) : List Data → List String
  | [] => []
  | d :: rest => d.layout depth :: layoutItems depth rest

/-- The texts of the fields of an object. -/
def layoutFields (depth : Nat) : List (String × Data) → List String
  | [] => []
  | (name, d) :: rest => (quoted name ++ ": " ++ d.layout depth) :: layoutFields depth rest

end

/-- The text of data over several lines. -/
def render (d : Data) : String := d.layout 0

/-- A list of texts. -/
def texts (items : List String) : Data := .array (items.map .string)

/-- A text, or null. -/
def textOrNull : Option String → Data
  | some s => .string s
  | none => .null

end Data

end HpcBlueprint.Json
