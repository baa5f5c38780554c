/-
  The nodes of a YAML document as values are read from them: aliases are replaced by what
  they stand for, and whatever makes reading fail stands as a `fault` where it is met.
-/
import HpcBlueprint.Yaml.Serial
import HpcBlueprint.Yaml.Error

namespace HpcBlueprint.Yaml

/-- A node with its position. -/
inductive Node
  | scalar (mark : Mark) (tag : Option String) (style : ScalarStyle) (text : String)
      (meaning : Scalar)
  | sequence (mark : Mark) (tag : Option String) (items : List Node)
  /-- The entries of a mapping; the label of an entry is its key's text, if the key is
      written as a scalar. -/
  | mapping (mark : Mark) (tag : Option String) (entries : List (Option String × Node × Node))
  /-- Nothing at all: the text has no document. -/
  | absent (mark : Mark)
  /-- Reading fails here. -/
  | fault (error : Error)
deriving Inhabited

namespace Node

/-- The same node with a tag. -/
def withTag (tag : String) : Node → Node
  | .scalar mark _ style text meaning => .scalar mark (some tag) style text meaning
  | .sequence mark _ items => .sequence mark (some tag) items
  | .mapping mark _ entries => .mapping mark (some tag) entries
  | node => node

/-- The text of a scalar. -/
def scalarText? : Node → Option String
  | .scalar _ _ _ text _ => some text
  | _ => none

/-! ## Nodes of a text -/

/-- How deeply collections may be nested. -/
def maxDepth : Nat := 128

/-- How often aliases may be followed for each scalar, alias or end of a collection. -/
def repetitionFactor : Nat := 100

/-- What composing keeps track of. -/
structure Composing where
  /-- How many aliases may still be followed. -/
  budget : Nat
  /-- Whether a fault was met; nothing after it is read. -/
  failed : Bool

/-- A fault, after which nothing is read. -/
def failing (e : Error) : StateM Composing Node := do
  modify fun s => { s with failed := true }
  return .fault e

/-- The text that names the value of an entry. -/
def labelOf : Serial → Option String
  | .scalar _ _ text => some text
  | _ => none

/-- The node that a serialized node stands for; `depth` is how many collections may still be
    opened, and `targets` holds the anchored nodes by number. -/
def compose (targets : Nat → Option Serial) : Nat → Serial → StateM Composing Node
  | depth, written => do
    let followed : Option Serial ← match written with
      | .alias anchor => do
        let s ← get
        if s.budget == 0 then pure none
        else do
          set { s with budget := s.budget - 1 }
          pure (some ((targets anchor).getD .broken))
      | written => pure (some written)
    match followed, depth with
    | none, _ => failing .tooRepetitive
    | some (.scalar p style text), _ =>
      let meaning := if style == .plain then Scalar.resolve text else .text text
      return .scalar p.mark p.tag style text meaning
    | some (.sequence p _), 0 => failing (.tooDeep p.mark)
    | some (.mapping p _), 0 => failing (.tooDeep p.mark)
    | some (.sequence p items), depth + 1 => do
      let mut nodes := #[]
      for item in items do
        if !(← get).failed then nodes := nodes.push (← compose targets depth item)
      return .sequence p.mark p.tag nodes.toList
    | some (.mapping p entries), depth + 1 => do
      let mut nodes := #[]
      for (key, value) in entries do
        if !(← get).failed then
          let k ← compose targets depth key
          if (← get).failed then nodes := nodes.push (labelOf key, k, k)
          else nodes := nodes.push (labelOf key, k, ← compose targets depth value)
      return .mapping p.mark p.tag nodes.toList
    | some _, _ => failing .malformed

/-- The root of the document in a text. -/
def ofStream (s : Stream) : Node :=
  match s.root with
  | .inr mark => .absent mark
  | .inl root =>
    let anchored := root.anchored.reverse
    let targets := fun anchor => (anchored.find? (·.1 == anchor)).map (·.2)
    (compose targets maxDepth root |>.run ⟨root.eventCount * repetitionFactor, false⟩).1

/-! ## Nodes of a tree -/

mutual

/-- A tree as a document that has never been written down. -/
def ofTree : Tree → Node
  | .null => .scalar Mark.start none .plain "null" .null
  | .bool b => .scalar Mark.start none .plain (toString b) (.bool b)
  | .number n => .scalar Mark.start none .plain n.text (.number n)
  | .string s => .scalar Mark.start none .doubleQuoted s (.text s)
  | .sequence items => .sequence Mark.start none (ofTrees items)
  | .mapping entries => .mapping Mark.start none (ofEntries entries)
  | .tagged tag value => (ofTree value).withTag ("!" ++ tag)

/-- Trees as the items of a sequence. -/
def ofTrees : List Tree → List Node
  | [] => []
  | t :: rest => ofTree t :: ofTrees rest

/-- Entries of a mapping, labelled by the texts of their keys. -/
def ofEntries : List (Tree × Tree) → List (Option String × Node × Node)
  | [] => []
  | (k, v) :: rest =>
    let key := ofTree k
    (key.scalarText?, key, ofTree v) :: ofEntries rest

end

end Node

end HpcBlueprint.Yaml
