/-
  Reading bodies of HCL: attributes and blocks, each at the end of its line.
-/
import HpcBlueprint.Hcl.Reader

namespace HpcBlueprint.Hcl

/-- A label in quotes or a name. -/
def label? : List Char → Option (String × List Char)
  | '"' :: rest => plainText? (rest.length + 1) [] rest
  | cs => name? cs

/-- The labels in front of a block and what follows its opening brace. -/
def labels? : Nat → List Char → Option (List String × List Char)
  | 0, _ => none
  | _ + 1, '\x7b' :: rest => some ([], rest)
  | bound + 1, cs => do
    let (label, rest) ← label? cs
    let (labels, rest) ← labels? bound (skipGap false rest)
    some (label :: labels, rest)

/-- What follows the opening brace of a block over several lines. -/
def opensLines? (cs : List Char) : Option (List Char) :=
  let rest := skipGap false cs
  lineBreak? ((lineComment? rest).getD rest)

/-- Adds an attribute; no body has two of one name. -/
def Body.withAttribute? (b : Body) (name : String) (e : Expr) : Option Body :=
  if b.attributes.any (·.1 == name) then none
  else some { b with attributes := b.attributes ++ [(name, e)] }

/-- The value of an attribute whose equals sign has been read. -/
def readValue (bound : Nat) (cs : List Char) : Option (Expr × List Char) :=
  readExpr bound false (skipGap false cs)

/-- The inside of a block on one line: at most one attribute. -/
def readLine (bound : Nat) (cs : List Char) : Option (Body × List Char) :=
  let cs := skipGap false cs
  match name? cs with
  | none => some (⟨[], []⟩, cs)
  | some (name, rest) =>
    match skipGap false rest with
    | '=' :: rest => do
      let (e, rest) ← readValue bound rest
      some (⟨[(name, e)], []⟩, skipGap false rest)
    | _ => none

mutual

/-- Adds the attributes and blocks that follow, up to what is neither. -/
def readBody : Nat → Body → List Char → Option (Body × List Char)
  | 0, _, _ => none
  | bound + 1, body, cs =>
    match name? cs with
    | none => some (body, cs)
    | some (name, rest) =>
      match skipGap false rest with
      | '=' :: rest => do
        let (e, rest) ← readValue bound rest
        let body ← body.withAttribute? name e
        readBody bound body (skipGap true (← endOfLine? rest))
      | rest => do
        let (labels, rest) ← labels? (rest.length + 1) rest
        let (inner, rest) ← readInside bound rest
        let block := Block.mk name labels inner.attributes inner.blocks
        let body := { body with blocks := body.blocks ++ [block] }
        readBody bound body (skipGap true (← endOfLine? rest))

/-- The inside of a block, and what follows its closing brace. -/
def readInside : Nat → List Char → Option (Body × List Char)
  | 0, _ => none
  | bound + 1, cs => do
    let (body, rest) ← match opensLines? cs with
      | some rest => readBody bound ⟨[], []⟩ (skipGap true rest)
      | none => readLine bound cs
    match rest with
    | '\x7d' :: rest => some (body, rest)
    | _ => none

end

/-- The body that a text describes. Every reader goes on less than eight times for a
    character. -/
def ofText? (text : String) : Option Body := do
  let cs := text.toList
  let (body, rest) ← readBody (8 * cs.length + 8) ⟨[], []⟩ (skipGap true cs)
  if rest.isEmpty then some body else none

end HpcBlueprint.Hcl
