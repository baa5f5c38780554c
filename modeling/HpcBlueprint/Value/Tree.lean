/-
  Values and YAML document trees.

  `Value.ofTree` makes a value of a tree unless something in it is tagged or keyed by
  anything but a text, number or boolean; keys become their text. `Value.toTree` is the
  tree that is written for a value.
-/
import HpcBlueprint.Value.Basic
import HpcBlueprint.Yaml.Decode

namespace HpcBlueprint.Value

open Yaml (Tree)

/-- Why a tree is no value. -/
inductive ShapeError
  | key (key : Tree)
  | tagged (tag : String)

/-- The wording of a shape error. -/
def ShapeError.message : ShapeError → String
  | .key found => "map keys must be scalars, found " ++ found.debug
  | .tagged name => "tagged values are not supported (found tag !" ++ name ++ ")"

/-- The text of a map key. -/
def keyText : Tree → Except ShapeError String
  | .string s => .ok s
  | .number n => .ok n.text
  | .bool b => .ok (toString b)
  | key => .error (.key key)

mutual

/-- The value of a tree. -/
def ofTree : Tree → Except ShapeError Value
  | .null => .ok .null
  | .bool b => .ok (.bool b)
  | .number n => .ok (.number n)
  | .string s => .ok (.string s)
  | .sequence items => (ofItems items).map .list
  | .mapping entries => (ofEntries [] entries).map .map
  | .tagged tag _ => .error (.tagged tag)

/-- The values of the items of a sequence. -/
def ofItems : List Tree → Except ShapeError (List Value)
  | [] => .ok []
  | t :: rest => (ofTree t).bind fun v => (ofItems rest).map fun vs => v :: vs

/-- Adds the entries of a mapping to a map one after the other. -/
def ofEntries (m : OrderedMap Value) : List (Tree × Tree) → Except ShapeError (OrderedMap Value)
  | [] => .ok m
  | (k, t) :: rest =>
    (keyText k).bind fun key => (ofTree t).bind fun v => ofEntries (m.insert key v) rest

end

mutual

/-- The tree of a value. -/
def toTree : Value → Tree
  | .null => .null
  | .bool b => .bool b
  | .number n => .number n
  | .string s => .string s
  | .list items => .sequence (toTrees items)
  | .map entries => .mapping (toTreeEntries entries)

/-- The trees of values. -/
def toTrees : List Value → List Tree
  | [] => []
  | v :: rest => v.toTree :: toTrees rest

/-- The trees of entries, their keys as texts. -/
def toTreeEntries : List (String × Value) → List (Tree × Tree)
  | [] => []
  | (k, v) :: rest => (.string k, v.toTree) :: toTreeEntries rest

end

/-! ## Texts -/

/-- Reads a value from a YAML node. -/
def decoder : Yaml.Decoder Value :=
  Yaml.Decoder.ofTree fun t => (ofTree t).mapError ShapeError.message

/-- Why a text is no literal. -/
inductive LiteralError
  | unreadable (text : String) (error : Yaml.Error)
  | shape (error : ShapeError)

/-- The value that a text is written as. -/
def parse (text : String) : Except LiteralError Value := do
  let t ← (Yaml.Decoder.ofText Yaml.Decoder.tree text).mapError (.unreadable text)
  (ofTree t).mapError .shape

end HpcBlueprint.Value
