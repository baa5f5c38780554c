/-
  Why YAML data cannot be read.

  A `Problem` is what is wrong, a `Place` is where. A problem that a value raises about
  itself is placed by the innermost collection or scalar reader around it
  (`Error.placed`); a place given once is kept.
-/
import HpcBlueprint.Yaml.Mark
import HpcBlueprint.Yaml.Scalar
import HpcBlueprint.Yaml.Tree

namespace HpcBlueprint.Yaml

/-! ## Paths -/

/-- One step from a value into a part of it. -/
inductive Step
  | index (i : Nat)
  | key (name : String)
  /-- Into the value of a key that is not written as a scalar. -/
  | unnamed
deriving DecidableEq

/-- The way from the root of a document to one of its values, the last step first. -/
abbrev Path := List Step

/-- The text of a path; the root is a dot. -/
def Path.render : Path → String
  | [] => "."
  | .index i :: rest => Path.render rest ++ "[" ++ toString i ++ "]"
  | .key name :: rest => (if rest.isEmpty then "" else Path.render rest ++ ".") ++ name
  | .unnamed :: rest => (if rest.isEmpty then "" else Path.render rest ++ ".") ++ "?"

/-! ## Problems -/

/-- What stands where something else was expected. -/
inductive Found
  | null
  | bool (b : Bool)
  | number (n : Number)
  | wide (n : Int)
  | text (s : String)
  | sequence
  | mapping
deriving DecidableEq

/-- How messages lay out floating-point numbers: always positional. -/
def Found.floatLayout : FloatLayout :=
  { infinity := "inf", nan := "NaN", maxPoint := none, minPoint := 0 }

/-- The description of what was found. -/
def Found.describe : Found → String
  | .null => "unit value"
  | .bool b => "boolean \x60" ++ toString b ++ "\x60"
  | .number (.int n) => "integer \x60" ++ toString n ++ "\x60"
  | .number (.float x) => "floating point \x60" ++ Found.floatLayout.render x ++ "\x60"
  | .wide n => "integer \x60" ++ toString n ++ "\x60 as " ++ (if n < 0 then "i128" else "u128")
  | .text s => "string " ++ Text.quoted s
  | .sequence => "sequence"
  | .mapping => "map"

/-- What a scalar is when it is not what was expected. -/
def Found.ofScalar : Scalar → Found
  | .null => .null
  | .bool b => .bool b
  | .number n => .number n
  | .wide n => .wide n
  | .text s => .text s

/-- What is wrong with a value. -/
inductive Problem
  | wrongType (found : Found) (wanted : String)
  | wrongValue (found : Found) (wanted : String)
  | unknownField (name : String) (known : List String)
  | missingField (name : String)
  | duplicateField (name : String)
  | unknownVariant (name : String) (known : List String)
  | duplicateKey (key : Tree)
  /-- A value of several possible types is none of them. -/
  | noAlternative (type : String)
  /-- A value of several possible types has a tag. -/
  | taggedAlternative
  /-- A problem of what the value stands for. -/
  | domain (message : String)

/-- A name in the quotes of messages. -/
def ticked (name : String) : String := "\x60" ++ name ++ "\x60"

/-- The names that were possible instead. -/
def oneOf (noun : String) : List String → String
  | [] => "there are no " ++ noun
  | [a] => "expected " ++ ticked a
  | [a, b] => "expected " ++ ticked a ++ " or " ++ ticked b
  | names => "expected one of " ++ ", ".intercalate (names.map ticked)

/-- How a message names a key that occurs twice. -/
def duplicateKeyText : Tree → String
  | .null => "with null key"
  | .bool b => "with key " ++ ticked (toString b)
  | .number n => "with key " ++ n.text
  | .string s => "with key " ++ Text.quoted s
  | _ => "in YAML map"

/-- The wording of a problem. -/
def Problem.message : Problem → String
  | .wrongType found wanted => "invalid type: " ++ found.describe ++ ", expected " ++ wanted
  | .wrongValue found wanted => "invalid value: " ++ found.describe ++ ", expected " ++ wanted
  | .unknownField name known => "unknown field " ++ ticked name ++ ", " ++ oneOf "fields" known
  | .missingField name => "missing field " ++ ticked name
  | .duplicateField name => "duplicate field " ++ ticked name
  | .unknownVariant name known =>
    "unknown variant " ++ ticked name ++ ", " ++ oneOf "variants" known
  | .duplicateKey key => "duplicate entry " ++ duplicateKeyText key
  | .noAlternative type => "data did not match any variant of untagged enum " ++ type
  | .taggedAlternative => "untagged and internally tagged enums do not support enum input"
  | .domain message => message

/-! ## Errors -/

/-- Where a problem is. -/
structure Place where
  mark : Mark
  path : Path

/-- Why a text cannot be read. -/
inductive Error
  /-- The text is not one well-formed document. -/
  | malformed
  /-- Collections are nested too deeply. -/
  | tooDeep (mark : Mark)
  /-- Aliases repeat too much. -/
  | tooRepetitive
  /-- The data is not what it should be. -/
  | data (problem : Problem) (place : Option Place)

namespace Error

/-- Places a problem that has no place yet. -/
def placed (mark : Mark) (path : Path) : Error → Error
  | .data problem none => .data problem (some ⟨mark, path⟩)
  | e => e

/-- The place that a message names. -/
def mark? : Error → Option Mark
  | .malformed => none
  | .tooDeep mark => some mark
  | .tooRepetitive => none
  | .data _ place => place.map (·.mark)

/-- The wording without the place. -/
def summary : Error → String
  | .malformed => "<yaml syntax error>"
  | .tooDeep _ => "recursion limit exceeded"
  | .tooRepetitive => "repetition limit exceeded"
  | .data problem none => problem.message
  | .data problem (some place) =>
    let path := place.path.render
    (if path == "." then "" else path ++ ": ") ++ problem.message

/-- The whole wording. The very first character of a text is not named as a place. -/
def message (e : Error) : String :=
  match e.mark? with
  | some mark => if mark.isStart then e.summary else e.summary ++ " at " ++ mark.describe
  | none => e.summary

end Error

end HpcBlueprint.Yaml
