/-
  The serialization tree of a YAML document: its nodes as they are written, with
  anchors and aliases.

  A malformed text is kept up to the place where it breaks off: there stands a `broken`
  node, the last one of the tree. Reading values from the tree in document order
  therefore meets every fault of the data that comes before the fault of the text.
-/
import HpcBlueprint.Yaml.Token.Lexer

namespace HpcBlueprint.Yaml

/-- What stands in front of a node. -/
structure Properties where
  mark : Mark
  /-- The number of the node's anchor. -/
  anchor : Option Nat
  tag : Option String
deriving Inhabited

/-- A node as it is written. -/
inductive Serial
  | scalar (props : Properties) (style : ScalarStyle) (text : String)
  | sequence (props : Properties) (items : List Serial)
  | mapping (props : Properties) (entries : List (Serial × Serial))
  | alias (anchor : Nat)
  /-- The text is malformed from here on. -/
  | broken
deriving Inhabited

namespace Serial

/-! ## Reading tokens -/

/-- What is left of a document while its nodes are read. -/
structure Reader where
  tokens : List Lexeme
  /-- The anchor names met so far, each with its latest number. -/
  anchors : List (String × Nat)
  /-- How many different anchor names were met. -/
  names : Nat
  /-- The tag handles of the document. -/
  handles : List (String × String)
  /-- Whether the text broke off. -/
  isBroken : Bool

/-- A step of reading. -/
abbrev Read := StateM Reader

/-- The next token; none once the text has broken off. -/
def peek : Read (Option Lexeme) := do
  let r ← get
  return if r.isBroken then none else r.tokens.head?

/-- Drops the next token. -/
def advance : Read Unit := modify fun r => { r with tokens := r.tokens.tail }

/-- Breaks the text off here. -/
def breakOff : Read Serial := do
  modify fun r => { r with isBroken := true }
  return .broken

/-- Gives an anchor name a number: the count of the different names met before. A name used
    again is counted once, so its new number may be given again later. -/
def addAnchor (name : String) : Read Nat := do
  let r ← get
  let known := r.anchors.any (·.1 == name)
  let anchors := (name, r.names) :: r.anchors.filter (·.1 != name)
  set { r with anchors, names := if known then r.names else r.names + 1 }
  return r.names

/-- An empty plain scalar. -/
def empty (mark : Mark) : Serial := .scalar ⟨mark, none, none⟩ .plain ""

/-- The tag that a handle and a suffix stand for. -/
def resolveTag (handle suffix : String) : Read (Option String) := do
  if handle.isEmpty then return some suffix
  else
    let r ← get
    return (r.handles.find? (·.1 == handle)).map fun (_, stem) => stem ++ suffix

/-- The anchor and the tag in front of a node, in either order; none if they are malformed. -/
def properties (mark : Mark) : Read (Option Properties) := do
  let anchorOf : Read (Option Nat) := do
    match ← peek with
    | some ⟨.anchor name, _, _⟩ => advance; return some (← addAnchor name)
    | _ => return none
  let tagOf : Read (Option (String × String)) := do
    match ← peek with
    | some ⟨.tag handle suffix, _, _⟩ => advance; return some (handle, suffix)
    | _ => return none
  let before ← tagOf
  let anchor ← anchorOf
  let written ← if before.isSome then pure before else tagOf
  match written with
  | none => return some ⟨mark, anchor, none⟩
  | some (handle, suffix) =>
    match ← resolveTag handle suffix with
    | some tag => return some ⟨mark, anchor, some tag⟩
    | none => return none

/-- Whether a token ends an entry of a block mapping before its value. -/
def endsBlockValue : Token → Bool
  | .key | .value | .blockEnd => true
  | _ => false

/-- What a node may be. -/
inductive Place
  /-- Inside brackets or braces. -/
  | flow
  /-- An entry of a block sequence or a whole document. -/
  | block
  /-- A key or value of a block mapping, where a sequence may stand without indentation. -/
  | mappingPart
deriving DecidableEq

mutual

/-- The node that begins here. -/
def node : Nat → Place → Read Serial
  | 0, _ => breakOff
  | n + 1, place => do
    match ← peek with
    | none => breakOff
    | some ⟨.alias name, _, _⟩ =>
      match (← get).anchors.find? (·.1 == name) with
      | none => breakOff
      | some (_, anchor) => advance; return .alias anchor
    | some first =>
      match ← properties first.start with
      | none => breakOff
      | some props =>
        match ← peek with
        | none => breakOff
        | some ⟨.scalar style text, _, _⟩ => advance; return .scalar props style text
        | some ⟨.flowSequenceStart, _, _⟩ => advance; return .sequence props (← flowItems n true)
        | some ⟨.flowMappingStart, _, _⟩ => advance; return .mapping props (← flowEntries n true)
        | some ⟨.blockEntry, _, _⟩ =>
          if place == .mappingPart then return .sequence props (← looseItems n)
          else if props.anchor.isSome || props.tag.isSome then return .scalar props .plain ""
          else breakOff
        | some ⟨.blockSequenceStart, _, _⟩ =>
          if place != .flow then do advance; return .sequence props (← blockItems n)
          else if props.anchor.isSome || props.tag.isSome then return .scalar props .plain ""
          else breakOff
        | some ⟨.blockMappingStart, _, _⟩ =>
          if place != .flow then do advance; return .mapping props (← blockEntries n)
          else if props.anchor.isSome || props.tag.isSome then return .scalar props .plain ""
          else breakOff
        | some _ =>
          if props.anchor.isSome || props.tag.isSome then return .scalar props .plain ""
          else breakOff

/-- The entries of a block sequence up to its end. -/
def blockItems : Nat → Read (List Serial)
  | 0 => return [← breakOff]
  | n + 1 => do
    match ← peek with
    | some ⟨.blockEntry, _, stop⟩ => do
      advance
      let item ← match ← peek with
        | none => breakOff
        | some ⟨.blockEntry, _, _⟩ | some ⟨.blockEnd, _, _⟩ => pure (empty stop)
        | some _ => node n .block
      if (← get).isBroken then return [item] else return item :: (← blockItems n)
    | some ⟨.blockEnd, _, _⟩ => advance; return []
    | _ => return [← breakOff]

/-- The entries of a block sequence that has no indentation of its own. -/
def looseItems : Nat → Read (List Serial)
  | 0 => return [← breakOff]
  | n + 1 => do
    match ← peek with
    | some ⟨.blockEntry, _, stop⟩ => do
      advance
      let item ← match ← peek with
        | none => breakOff
        | some ⟨.blockEntry, _, _⟩ => pure (empty stop)
        | some lexeme => if endsBlockValue lexeme.token then pure (empty stop) else node n .block
      if (← get).isBroken then return [item] else return item :: (← looseItems n)
    | some _ => return []
    | none => return [← breakOff]

/-- The entries of a block mapping up to its end. -/
def blockEntries : Nat → Read (List (Serial × Serial))
  | 0 => return [(← breakOff, .broken)]
  | n + 1 => do
    match ← peek with
    | some ⟨.key, _, stop⟩ => do
      advance
      let key ← match ← peek with
        | none => breakOff
        | some lexeme =>
          if endsBlockValue lexeme.token then pure (empty stop) else node n .mappingPart
      blockValue n key
    | some ⟨.blockEnd, _, _⟩ => advance; return []
    | _ => return [(← breakOff, .broken)]

/-- The value behind a key of a block mapping, and the entries after it. -/
def blockValue : Nat → Serial → Read (List (Serial × Serial))
  | 0, key => return [(key, ← breakOff)]
  | n + 1, key => do
    let value ← match ← peek with
      | none => breakOff
      | some ⟨.value, _, stop⟩ => do
        advance
        match ← peek with
        | none => breakOff
        | some lexeme =>
          if endsBlockValue lexeme.token then pure (empty stop) else node n .mappingPart
      | some lexeme => pure (empty lexeme.start)
    if (← get).isBroken then return [(key, value)] else return (key, value) :: (← blockEntries n)

/-- The entries of a flow sequence up to its bracket. -/
def flowItems : Nat → Bool → Read (List Serial)
  | 0, _ => return [← breakOff]
  | n + 1, first => do
    match ← peek with
    | none => return [← breakOff]
    | some ⟨.flowSequenceEnd, _, _⟩ => advance; return []
    | some lexeme =>
      if !first && lexeme.token != .flowEntry then return [← breakOff]
      else do
        if !first then advance
        match ← peek with
        | none => return [← breakOff]
        | some ⟨.flowSequenceEnd, _, _⟩ => advance; return []
        | some ⟨.key, mark, _⟩ => do
          advance
          let pair ← flowPair n
          let item := Serial.mapping ⟨mark, none, none⟩ [pair]
          if (← get).isBroken then return [item] else return item :: (← flowItems n false)
        | some _ => do
          let item ← node n .flow
          if (← get).isBroken then return [item] else return item :: (← flowItems n false)

/-- A mapping of one entry, written without braces in a flow sequence. -/
def flowPair : Nat → Read (Serial × Serial)
  | 0 => return (← breakOff, .broken)
  | n + 1 => do
    let key ← match ← peek with
      | none => breakOff
      | some ⟨.value, _, stop⟩ | some ⟨.flowEntry, _, stop⟩ | some ⟨.flowSequenceEnd, _, stop⟩ => do
        -- The token is dropped, so a colon directly behind the question mark does not count.
        advance
        pure (empty stop)
      | some _ => node n .flow
    match ← peek with
    | none => return (key, ← breakOff)
    | some ⟨.value, _, _⟩ => do
      advance
      match ← peek with
      | none => return (key, ← breakOff)
      | some ⟨.flowEntry, mark, _⟩ | some ⟨.flowSequenceEnd, mark, _⟩ => return (key, empty mark)
      | some _ => return (key, ← node n .flow)
    | some lexeme => return (key, empty lexeme.start)

/-- The entries of a flow mapping up to its brace. -/
def flowEntries : Nat → Bool → Read (List (Serial × Serial))
  | 0, _ => return [(← breakOff, .broken)]
  | n + 1, first => do
    match ← peek with
    | none => return [(← breakOff, .broken)]
    | some ⟨.flowMappingEnd, _, _⟩ => advance; return []
    | some lexeme =>
      if !first && lexeme.token != .flowEntry then return [(← breakOff, .broken)]
      else do
        if !first then advance
        match ← peek with
        | none => return [(← breakOff, .broken)]
        | some ⟨.flowMappingEnd, _, _⟩ => advance; return []
        | some ⟨.key, _, _⟩ => do
          advance
          let key ← match ← peek with
            | none => breakOff
            | some ⟨.value, mark, _⟩ | some ⟨.flowEntry, mark, _⟩
            | some ⟨.flowMappingEnd, mark, _⟩ =>
              pure (empty mark)
            | some _ => node n .flow
          flowValue n key true
        | some _ => do
          let key ← node n .flow
          flowValue n key false

/-- The value behind a key of a flow mapping, and the entries after it. A key that was not
    followed by a colon has an empty value. -/
def flowValue : Nat → Serial → Bool → Read (List (Serial × Serial))
  | 0, key, _ => return [(key, ← breakOff)]
  | n + 1, key, marked => do
    let value ← match ← peek with
      | none => breakOff
      | some ⟨.value, mark, _⟩ =>
        if marked then do
          advance
          match ← peek with
          | none => breakOff
          | some ⟨.flowEntry, mark, _⟩ | some ⟨.flowMappingEnd, mark, _⟩ => pure (empty mark)
          | some _ => node n .flow
        else pure (empty mark)
      | some lexeme => pure (empty lexeme.start)
    if (← get).isBroken then return [(key, value)]
    else return (key, value) :: (← flowEntries n false)

end

/-! ## Size -/

mutual

/-- Whether the text breaks off inside the node. -/
def breaksOff : Serial → Bool
  | .broken => true
  | .sequence _ items => anyBreaksOff items
  | .mapping _ entries => anyEntryBreaksOff entries
  | _ => false

/-- Whether the text breaks off inside one of the nodes. -/
def anyBreaksOff : List Serial → Bool
  | [] => false
  | s :: rest => s.breaksOff || anyBreaksOff rest

/-- Whether the text breaks off inside a key or value of the entries. -/
def anyEntryBreaksOff : List (Serial × Serial) → Bool
  | [] => false
  | (k, v) :: rest => k.breaksOff || v.breaksOff || anyEntryBreaksOff rest

end

mutual

/-- The number of scalars, aliases and ends of collections in the node. -/
def eventCount : Serial → Nat
  | .broken => 0
  | .scalar .. | .alias _ => 1
  | .sequence _ items => eventCounts items + if anyBreaksOff items then 1 else 2
  | .mapping _ entries => entryEventCounts entries + if anyEntryBreaksOff entries then 1 else 2

/-- The number of scalars, aliases and ends of collections in the nodes. -/
def eventCounts : List Serial → Nat
  | [] => 0
  | s :: rest => s.eventCount + eventCounts rest

/-- The number of scalars, aliases and ends of collections in the entries. -/
def entryEventCounts : List (Serial × Serial) → Nat
  | [] => 0
  | (k, v) :: rest => k.eventCount + v.eventCount + entryEventCounts rest

end

mutual

/-- The anchored nodes in document order. -/
def anchored : Serial → List (Nat × Serial)
  | s@(.scalar props _ _) => (props.anchor.map (·, s)).toList
  | s@(.sequence props items) => (props.anchor.map (·, s)).toList ++ anchoredItems items
  | s@(.mapping props entries) => (props.anchor.map (·, s)).toList ++ anchoredEntries entries
  | _ => []

/-- The anchored nodes in the items, in document order. -/
def anchoredItems : List Serial → List (Nat × Serial)
  | [] => []
  | s :: rest => s.anchored ++ anchoredItems rest

/-- The anchored nodes in the entries, in document order. -/
def anchoredEntries : List (Serial × Serial) → List (Nat × Serial)
  | [] => []
  | (k, v) :: rest => k.anchored ++ v.anchored ++ anchoredEntries rest

end

end Serial

/-! ## Documents -/

/-- The first document of a text. -/
structure Stream where
  /-- The root, or where the text ends if it holds no document at all. -/
  root : Serial ⊕ Mark
  /-- Whether the text is well formed and has no further document. -/
  complete : Bool

namespace Stream

/-- The handles that need no directive. -/
def defaultHandles : List (String × String) := [("!", "!"), ("!!", "tag:yaml.org,2002:")]

/-- Reads directives; `none` if they are malformed. -/
def directives :
    List Lexeme → Bool → List (String × String) → Option (List (String × String) × List Lexeme)
  | ⟨.versionDirective major minor, _, _⟩ :: rest, seen, handles =>
    if seen || major != 1 || !(minor == 1 || minor == 2) then none
    else directives rest true handles
  | ⟨.tagDirective handle stem, _, _⟩ :: rest, seen, handles =>
    if handles.any (·.1 == handle) then none
    else directives rest seen (handles ++ [(handle, stem)])
  | tokens, _, handles => some (handles, tokens)

/-- Whether an explicit document has no content of its own. -/
def endsContent : Token → Bool
  | .versionDirective .. | .tagDirective .. | .documentStart | .documentEnd | .streamEnd => true
  | _ => false

/-- Whether nothing but marks of document ends follows. -/
def onlyEnds : List Lexeme → Bool
  | ⟨.documentEnd, _, _⟩ :: rest => onlyEnds rest
  | ⟨.streamEnd, _, _⟩ :: _ => true
  | _ => false

/-- The document whose content begins with these tokens. -/
def content (handles : List (String × String)) (tokens : List Lexeme) (explicit : Bool) : Stream :=
  let handles := handles ++ defaultHandles
  match tokens with
  | [] => ⟨.inl .broken, false⟩
  | first :: _ =>
    if explicit && endsContent first.token then ⟨.inl (Serial.empty first.start), onlyEnds tokens⟩
    else
      let (root, r) := Serial.node (4 * tokens.length + 4) .block |>.run
        { tokens, anchors := [], names := 0, handles, isBroken := false }
      ⟨.inl root, !r.isBroken && onlyEnds r.tokens⟩

/-- The first document of a text. -/
def ofText (text : String) : Stream :=
  let tokens := lex text
  match tokens.head? with
  | none => ⟨.inl .broken, false⟩
  | some first =>
    match first.token with
    | .streamEnd => ⟨.inr first.start, true⟩
    | .versionDirective .. | .tagDirective .. | .documentStart =>
      match directives tokens false [] with
      | some (handles, ⟨.documentStart, _, _⟩ :: rest) => content handles rest true
      | _ => ⟨.inl .broken, false⟩
    | _ => content [] tokens false

end Stream

end HpcBlueprint.Yaml
