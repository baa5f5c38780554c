/-
  What the blocks of a configuration file declare.

  A `variable` block declares an input and an `output` block an output, named by their
  first label. Nothing is evaluated: what is no literal is kept as its text.
-/
import HpcBlueprint.Blueprint.Basic
import HpcBlueprint.Hcl.Body
import HpcBlueprint.Hcl.Printer

namespace HpcBlueprint

/-! ## Literals -/

namespace Hcl

/-- The content of a text, or the text of any other expression. -/
def Expr.plainText : Expr → String
  | .string s => s
  | e => e.text

/-- The text of a key. -/
def Key.plainText : Key → String
  | .name s => s
  | .expr e => e.plainText

/-- A number as a value: an integer that needs more than 63 bits becomes a double. -/
def numberValue : Number → Number
  | .int n =>
    if -Int.pow 2 63 ≤ n && n < Int.pow 2 63 then .int n
    else .float (Binary64.ofDecimal (n < 0) n.natAbs 0)
  | .float x => .float x

mutual

/-- A literal as a value; anything else as its text. -/
def Expr.value : Expr → Value
  | .null => .null
  | .bool b => .bool b
  | .number n => .number (numberValue n)
  | .string s => .string s
  | .array items => .list (valuesOf items)
  | .object entries => .map (OrderedMap.ofList (entriesOf entries))
  | e => .string e.text

/-- The values of items. -/
def valuesOf : List Expr → List Value
  | [] => []
  | e :: rest => e.value :: valuesOf rest

/-- The entries of an object with their keys as texts. -/
def entriesOf : List (Key × Expr) → List (String × Value)
  | [] => []
  | (k, e) :: rest => (k.plainText, e.value) :: entriesOf rest

end

end Hcl

/-! ## Inputs and outputs -/

/-- Takes an attribute of a `variable` block. -/
def Input.take (i : Input) : String × Hcl.Expr → Input
  | (name, e) =>
    if name == "type" then { i with type := e.text }
    else if name == "description" then { i with description := e.plainText }
    else if name == "default" then { i with default := some e.value, isRequired := false }
    else i

/-- The input that a `variable` block declares. -/
def Input.ofBlock (name : String) (b : Hcl.Block) : Input :=
  b.attributes.foldl Input.take ⟨name, "any", "", none, true⟩

/-- Takes an attribute of an `output` block. -/
def Output.take (o : Output) : String × Hcl.Expr → Output
  | (name, e) =>
    if name == "description" then { o with description := e.plainText }
    else
      match e with
      | .bool b => if name == "sensitive" then { o with isSensitive := b } else o
      | _ => o

/-- The output that an `output` block declares. -/
def Output.ofBlock (name : String) (b : Hcl.Block) : Output :=
  b.attributes.foldl Output.take (Output.named name)

/-! ## Files -/

/-- A block that should declare something but has no label. -/
structure Unnamed where
  block : String

namespace Schema

/-- Nothing is declared. -/
def empty : Schema := ⟨[], [], []⟩

/-- Adds what a block declares; packer knows no outputs. -/
def withBlock (kind : ModuleKind) (s : Schema) (b : Hcl.Block) : Except Unnamed Schema :=
  let isInput := b.type == "variable"
  let isOutput := kind == .terraform && b.type == "output"
  if isInput || isOutput then
    match b.labels.head? with
    | none => .error ⟨b.type⟩
    | some name =>
      .ok (if isInput then { s with inputs := s.inputs ++ [Input.ofBlock name b] }
        else { s with outputs := s.outputs ++ [Output.ofBlock name b] })
  else .ok s

/-- Adds what blocks declare, in order; the first without a name decides. -/
def withBlocks (kind : ModuleKind) (s : Schema) : List Hcl.Block → Except Unnamed Schema
  | [] => .ok s
  | b :: rest => (s.withBlock kind b).bind fun s => withBlocks kind s rest

end Schema

end HpcBlueprint
