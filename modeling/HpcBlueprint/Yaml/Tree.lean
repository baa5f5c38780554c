/-
  YAML data without its spelling: the document tree.

  A `Tree` is what a text stands for once quoting, anchors and positions are gone. Its
  mappings keep the order of their entries and hold no key twice; `sameKey` is the
  equality that decides this, and `debug` the text of a tree in messages.
-/
import HpcBlueprint.Number
import HpcBlueprint.Text.Quoted

namespace HpcBlueprint.Yaml

/-- A document tree. -/
inductive Tree
  | null
  | bool (b : Bool)
  | number (n : Number)
  | string (s : String)
  | sequence (items : List Tree)
  | mapping (entries : List (Tree × Tree))
  /-- A value with a tag of the document's own, written without its exclamation mark. -/
  | tagged (tag : String) (value : Tree)
deriving Inhabited

namespace Tree

/-- A tree without the tags around it. -/
def untagged : Tree → Tree
  | .tagged _ value => value.untagged
  | t => t

/-! ## Keys -/

mutual

/-- Whether two trees are the same key. The order of entries inside a key does not count. -/
def sameKey : Tree → Tree → Bool
  | .null, .null => true
  | .bool a, .bool b => a == b
  | .number m, .number n => m.sameKey n
  | .string a, .string b => a == b
  | .sequence xs, .sequence ys => sameItems xs ys
  | .mapping es, .mapping fs => es.length == fs.length && entriesWithin es fs
  | .tagged s a, .tagged t b => s == t && sameKey a b
  | _, _ => false

/-- Whether two lists hold the same keys in the same order. -/
def sameItems : List Tree → List Tree → Bool
  | [], [] => true
  | x :: xs, y :: ys => sameKey x y && sameItems xs ys
  | _, _ => false

/-- Whether every entry of the first mapping stands in the second. -/
def entriesWithin : List (Tree × Tree) → List (Tree × Tree) → Bool
  | [], _ => true
  | (k, v) :: es, fs => fs.any (fun f => sameKey k f.1 && sameKey v f.2) && entriesWithin es fs

end

/-! ## Text in messages -/

mutual

/-- A tree as messages show it: the kind of each node and its content. -/
def debug : Tree → String
  | .null => "Null"
  | .bool b => "Bool(" ++ toString b ++ ")"
  | .number n => "Number(" ++ n.text ++ ")"
  | .string s => "String(" ++ Text.quoted s ++ ")"
  | .sequence items => "Sequence [" ++ ", ".intercalate (debugItems items) ++ "]"
  | .mapping entries => "Mapping \x7b" ++ ", ".intercalate (debugEntries entries) ++ "\x7d"
  | .tagged tag value => "TaggedValue \x7b tag: !" ++ tag ++ ", value: " ++ value.debug ++ " \x7d"

/-- The items of a sequence as messages show them. -/
def debugItems : List Tree → List String
  | [] => []
  | t :: rest => t.debug :: debugItems rest

/-- The entries of a mapping as messages show them. -/
def debugEntries : List (Tree × Tree) → List String
  | [] => []
  | (k, v) :: rest => (debugKey k ++ ": " ++ v.debug) :: debugEntries rest

/-- A scalar key is shown without its kind. -/
def debugKey : Tree → String
  | .bool b => toString b
  | .number n => n.text
  | .string s => Text.quoted s
  | .null => "Null"
  | .sequence items => "Sequence [" ++ ", ".intercalate (debugItems items) ++ "]"
  | .mapping entries => "Mapping \x7b" ++ ", ".intercalate (debugEntries entries) ++ "\x7d"
  | .tagged tag value => "TaggedValue \x7b tag: !" ++ tag ++ ", value: " ++ value.debug ++ " \x7d"

end

end Tree

end HpcBlueprint.Yaml
