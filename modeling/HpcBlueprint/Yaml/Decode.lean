/-
  Reading typed values from YAML nodes.

  A `Decoder α` reads a value at a path or says what is wrong and where. Records refuse
  unknown and repeated fields; lists and records may be left empty where nothing is
  written. `Decoder.ofText` reads a whole text: faults of the data win over faults of the
  text that come after them.
-/
import HpcBlueprint.Yaml.Node

namespace HpcBlueprint.Yaml

/-- A way to read a value from a node that stands at a path. -/
abbrev Decoder (α : Type) := Path → Node → Except Error α

/-! ## Scalars -/

/-- A tag of the YAML core. -/
def coreTag (name : String) : String := "tag:yaml.org,2002:" ++ name

/-- The name of a tag of the document's own: what follows the exclamation mark, or the mark
    itself if nothing does. -/
def localTag? (tag : Option String) : Option String :=
  tag.bind fun t =>
    match t.toList with
    | ['!'] => some t
    | '!' :: rest => some (String.ofList rest)
    | _ => none

/-- What a scalar stands for. The core tags demand their type, any other global tag makes
    the scalar a text, and a local tag changes nothing here. -/
def scalarValue (tag : Option String) (text : String) (meaning : Scalar) : Except Problem Scalar :=
  match tag with
  | none => .ok meaning
  | some t =>
    let demand (value : Option Scalar) (wanted : String) : Except Problem Scalar :=
      match value with
      | some v => .ok v
      | none => .error (.wrongValue (.text text) wanted)
    if t == coreTag "bool" then demand ((Scalar.bool? text).map .bool) "a boolean"
    else if t == coreTag "int" then demand (Scalar.integerScalar? text) "an integer"
    else if t == coreTag "float" then
      demand ((Scalar.float? text).map fun x => .number (.float x)) "a float"
    else if t == coreTag "null" then demand (if Scalar.isNull text then some .null else none) "null"
    else if (localTag? tag).isSome then .ok meaning
    else .ok (.text text)

/-- The error for a node that is not what was wanted. -/
def unexpected (wanted : String) : Node → Error
  | .scalar _ tag _ text meaning =>
    match scalarValue tag text meaning with
    | .ok s => .data (.wrongType (.ofScalar s) wanted) none
    | .error p => .data p none
  | .sequence .. => .data (.wrongType .sequence wanted) none
  | .mapping .. => .data (.wrongType .mapping wanted) none
  | .absent _ => .data (.wrongType .null wanted) none
  | .fault e => e

/-- Where a node stands. -/
def Node.mark : Node → Mark
  | .scalar mark .. | .sequence mark .. | .mapping mark .. | .absent mark => mark
  | .fault _ => Mark.start

/-- Places the problems that a reader leaves without a place at the node itself. -/
def placedAt (node : Node) (path : Path) (r : Except Error α) : Except Error α :=
  r.mapError (·.placed node.mark path)

/-- Fails because the node is not what was wanted. -/
def refuse (wanted : String) (path : Path) (node : Node) : Except Error α :=
  placedAt node path (.error (unexpected wanted node))

/-- Whether a node is an empty plain scalar or nothing at all, which may stand for an empty
    list or record. -/
def isBlankNode : Node → Bool
  | .scalar _ _ style text _ => style == .plain && text.isEmpty
  | .absent _ => true
  | _ => false

namespace Decoder

/-- Any scalar, by its text. -/
def text : Decoder String := fun path node =>
  match node with
  | .scalar _ _ _ text _ => .ok text
  | node => refuse "a string" path node

/-- A boolean written plainly. -/
def bool : Decoder Bool := fun path node =>
  match node with
  | .scalar _ tag style text _ =>
    let plain := style == .plain || (style == .literal && tag == some (coreTag "bool"))
    match if plain then Scalar.bool? text else none with
    | some b => .ok b
    | none => refuse "a boolean" path node
  | node => refuse "a boolean" path node

/-- A value that may be null. -/
def optional (d : Decoder α) : Decoder (Option α) := fun path node =>
  match node with
  | .scalar _ tag style text _ =>
    if style != .plain then some <$> d path node
    else if tag == some (coreTag "null") then
      if Scalar.isNull text then .ok none
      else .error (.data (.wrongValue (.text text) "null") none)
    else if tag.isNone && (text.isEmpty || Scalar.isNull text) then .ok none
    else some <$> d path node
  | .absent _ => .ok none
  | .fault e => .error e
  | node => some <$> d path node

/-! ## Collections -/

/-- The items of a list in order; the first that cannot be read decides. -/
def eachItem (d : Decoder α) (path : Path) : Nat → List Node → Except Error (List α)
  | _, [] => .ok []
  | i, node :: rest => do
    let a ← d (.index i :: path) node
    return a :: (← eachItem d path (i + 1) rest)

/-- A list. -/
def list (d : Decoder α) : Decoder (List α) := fun path node =>
  match node with
  | .sequence _ _ items => placedAt node path (eachItem d path 0 items)
  | node => if isBlankNode node then .ok [] else refuse "a sequence" path node

/-- The step into the value of a mapping entry. -/
def entryStep : Option String → Step
  | some name => .key name
  | none => .unnamed

/-- The entries of a mapping in order, keys by their text. -/
def eachEntry (d : Decoder α) (path : Path) :
    List (Option String × Node × Node) → Except Error (List (String × α))
  | [] => .ok []
  | (label, key, value) :: rest => do
    let k ← text path key
    let a ← d (entryStep label :: path) value
    return (k, a) :: (← eachEntry d path rest)

/-- A mapping from names; names may repeat. -/
def pairs (d : Decoder α) : Decoder (List (String × α)) := fun path node =>
  match node with
  | .mapping _ _ entries => placedAt node path (eachEntry d path entries)
  | node => if isBlankNode node then .ok [] else refuse "a map" path node

/-! ## Records -/

/-- The name of a field. -/
def fieldName (known : List String) : Decoder String := fun path node =>
  match node with
  | .scalar _ _ _ name _ =>
    if known.contains name then .ok name
    else placedAt node path (.error (.data (.unknownField name known) none))
  | node => refuse "field identifier" path node

/-- Reads the entries of a record one after the other into a draft. -/
def eachField (known : List String) (read : String → σ → Decoder σ) (path : Path) :
    List String → σ → List (Option String × Node × Node) → Except Error σ
  | _, draft, [] => .ok draft
  | seen, draft, (label, key, value) :: rest => do
    let name ← fieldName known path key
    if seen.contains name then .error (.data (.duplicateField name) none)
    else
      let draft ← read name draft (entryStep label :: path) value
      eachField known read path (name :: seen) draft rest

/-- A record of the named type: `read` puts one field into the draft, and `finish` makes the
    record of it or names what is missing. -/
def record (type : String) (known : List String) (draft : σ) (read : String → σ → Decoder σ)
    (finish : σ → Except Problem α) : Decoder α := fun path node =>
  let complete (draft : σ) : Except Error α := (finish draft).mapError (.data · none)
  match node with
  | .mapping _ _ entries =>
    placedAt node path (eachField known read path [] draft entries >>= complete)
  | node =>
    if isBlankNode node then placedAt node path (complete draft)
    else refuse ("struct " ++ type) path node

/-- A field that has to be there. -/
def required (name : String) : Option α → Except Problem α
  | some a => .ok a
  | none => .error (.missingField name)

/-- The values of the entries with one name; the others are passed over. -/
def namedEntries (name : String) (path : Path) :
    List (Option String × Node × Node) → Except Error (List (Option String × Node))
  | [] => .ok []
  | (label, key, value) :: rest => do
    let k ← text path key
    let more ← namedEntries name path rest
    return if k == name then (label, value) :: more else more

/-- One field of a record whose other fields do not matter. -/
def onlyField (type name : String) (missing : α) (d : Decoder α) : Decoder α := fun path node =>
  match node with
  | .mapping _ _ entries =>
    placedAt node path <| do
      match ← namedEntries name path entries with
      | [] => .ok missing
      | [(label, value)] => d (entryStep label :: path) value
      | _ => .error (.data (.duplicateField name) none)
  | node => if isBlankNode node then .ok missing else refuse ("struct " ++ type) path node

/-! ## Alternatives -/

/-- The variant of this name. -/
def variantOf (variants : List (String × α)) (name : String) : Except Error α :=
  match variants.lookup name with
  | some a => .ok a
  | none => .error (.data (.unknownVariant name (variants.map (·.1))) none)

/-- One of several names, written as a scalar or as a tag on nothing. -/
def variant (variants : List (String × α)) : Decoder α := fun path node =>
  match node with
  | .scalar _ tag style text _ =>
    match localTag? tag with
    | some name => do
      let a ← variantOf variants name
      if style == .plain && (text.isEmpty || Scalar.isNull text) then .ok a
      else placedAt node path (.error (.data (.wrongValue (.text text) "null") none))
    | none => placedAt node path (variantOf variants text)
  | .sequence _ tag _ | .mapping _ tag _ =>
    match localTag? tag with
    | some name => variantOf variants name >>= fun _ => refuse "unit" path node
    | none => refuse "a YAML tag starting with '!'" path node
  | node => refuse "a YAML tag starting with '!'" path node

/-- What a value of several possible types is written as. -/
inductive Alternative
  | scalar (s : Scalar)
  | collection

mutual

/-- A value of several possible types. Only faults inside it are noticed. -/
def alternative (path : Path) : Node → Except Error Alternative
  | .fault e => .error e
  | .absent _ => .ok (.scalar .null)
  | node@(.scalar _ tag _ text meaning) =>
    placedAt node path <|
      if (localTag? tag).isSome then .error (.data .taggedAlternative none)
      else
        match scalarValue tag text meaning with
        | .error p => .error (.data p none)
        | .ok (.wide n) => .error (.data (.wrongType (.wide n) "any value") none)
        | .ok s => .ok (.scalar s)
  | node@(.sequence _ tag items) =>
    placedAt node path <|
      if (localTag? tag).isSome then .error (.data .taggedAlternative none)
      else (alternativeItems path 0 items).map fun _ => .collection
  | node@(.mapping _ tag entries) =>
    placedAt node path <|
      if (localTag? tag).isSome then .error (.data .taggedAlternative none)
      else (alternativeEntries path entries).map fun _ => .collection

/-- Looks for faults inside the items of a sequence. -/
def alternativeItems (path : Path) : Nat → List Node → Except Error Unit
  | _, [] => .ok ()
  | i, node :: rest =>
    (alternative (.index i :: path) node).bind fun _ => alternativeItems path (i + 1) rest

/-- Looks for faults inside the entries of a mapping. -/
def alternativeEntries (path : Path) : List (Option String × Node × Node) → Except Error Unit
  | [] => .ok ()
  | (label, key, value) :: rest =>
    (alternative path key).bind fun _ =>
      (alternative (entryStep label :: path) value).bind fun _ => alternativeEntries path rest

end

/-! ## Any data -/

/-- A scalar as a tree. -/
def scalarTree : Scalar → Except Problem Tree
  | .null => .ok .null
  | .bool b => .ok (.bool b)
  | .number n => .ok (.number n)
  | .wide n => .error (.wrongType (.wide n) "any YAML value")
  | .text s => .ok (.string s)

/-- Puts a local tag around a tree. -/
def withLocalTag (tag : Option String) (t : Tree) : Tree :=
  match localTag? tag with
  | some name => .tagged name t
  | none => t

mutual

/-- Any value, as a tree. No mapping in it may hold a key twice. -/
def tree (path : Path) : Node → Except Error Tree
  | .fault e => .error e
  | .absent _ => .ok .null
  | node@(.scalar _ tag _ text meaning) =>
    placedAt node path <|
      match scalarValue tag text meaning >>= scalarTree with
      | .ok t => .ok (withLocalTag tag t)
      | .error p => .error (.data p none)
  | node@(.sequence _ tag items) =>
    placedAt node path <|
      (treeItems path 0 items).map fun ts => withLocalTag tag (.sequence ts)
  | node@(.mapping _ tag entries) =>
    placedAt node path <|
      (treeEntries path [] entries).map fun es => withLocalTag tag (.mapping es)

/-- The items of a sequence as trees. -/
def treeItems (path : Path) : Nat → List Node → Except Error (List Tree)
  | _, [] => .ok []
  | i, node :: rest =>
    (tree (.index i :: path) node).bind fun t =>
      (treeItems path (i + 1) rest).map fun ts => t :: ts

/-- The entries after those with the given keys. -/
def treeEntries (path : Path) (seen : List Tree) :
    List (Option String × Node × Node) → Except Error (List (Tree × Tree))
  | [] => .ok []
  | (label, key, value) :: rest =>
    (tree path key).bind fun k =>
      match seen.find? (·.sameKey k) with
      | some first => .error (.data (.duplicateKey first) none)
      | none =>
        (tree (entryStep label :: path) value).bind fun v =>
          (treeEntries path (k :: seen) rest).map fun es => (k, v) :: es

end

/-- A value read from a tree that may be refused for reasons of its own. -/
def ofTree (read : Tree → Except String α) : Decoder α := fun path node => do
  let t ← tree path node
  (read t).mapError fun message => .data (.domain message) none

/-! ## Texts -/

/-- The value that a text holds. -/
def ofText (d : Decoder α) (text : String) : Except Error α := do
  let stream := Stream.ofText text
  let a ← d [] (Node.ofStream stream)
  if stream.complete then .ok a else .error .malformed

end Decoder

end HpcBlueprint.Yaml
