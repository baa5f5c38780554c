/-
  From a YAML text to its tokens.

  `lex` returns the tokens that are certain. A token that might still turn out to be the
  first of a mapping key is held back until the colon is or is not found, so where the
  text is malformed the tokens from the earliest pending key on are withheld. The last
  token is `streamEnd` exactly when no place is malformed.
-/
import HpcBlueprint.Yaml.Token.Basic
import HpcBlueprint.Yaml.Token.Scalar

namespace HpcBlueprint.Yaml

/-- A place where a mapping key may have begun, waiting for its colon. -/
structure PendingKey where
  /-- Whether something other than a key here would be malformed. -/
  required : Bool
  /-- How many tokens stand before the key. -/
  position : Nat
  mark : Mark

/-- A pending key stays possible on its own line and within 1024 characters. -/
def PendingKey.expired (k : PendingKey) (here : Mark) : Bool :=
  k.mark.line < here.line || k.mark.index + 1024 < here.index

/-- The state between two tokens. -/
structure Lexer where
  cursor : Cursor
  /-- The tokens so far, last first. -/
  emitted : List Lexeme
  /-- The column of the innermost block collection, if any. -/
  indent : Option Nat
  /-- The columns around it. -/
  outer : List (Option Nat)
  /-- Whether a key may begin here. -/
  keyAllowed : Bool
  /-- The pending key of the current flow level. -/
  pending : Option PendingKey
  /-- The pending keys of the flow levels around it; one entry a level. -/
  outerPending : List (Option PendingKey)

namespace Lexer

/-- The state before the first token. -/
def ofText (text : List Char) : Lexer :=
  { cursor := Cursor.ofText text, emitted := [], indent := none, outer := [],
    keyAllowed := true, pending := none, outerPending := [] }

/-- Whether the lexer is inside brackets or braces. -/
def inFlow (s : Lexer) : Bool := !s.outerPending.isEmpty

/-- The number of tokens so far. -/
def count (s : Lexer) : Nat := s.emitted.length

/-- Adds a token that stretches from `start` to the cursor. -/
def push (s : Lexer) (token : Token) (start : Mark) : Lexer :=
  { s with emitted := ⟨token, start, s.cursor.mark⟩ :: s.emitted }

/-- Inserts a token of no width before all tokens from number `position` on. -/
def insertAt (s : Lexer) (position : Nat) (token : Token) (mark : Mark) : Lexer :=
  let later := s.count - position
  { s with emitted := s.emitted.take later ++ ⟨token, mark, mark⟩ :: s.emitted.drop later }

/-- Adds a token for the next `n` characters. -/
def take (s : Lexer) (n : Nat) (token : Token) : Lexer :=
  { s with cursor := s.cursor.skip n }.push token s.cursor.mark

/-! ## Pending keys -/


/-- Drops a pending key that can no longer become one; `none` if it had to. -/
def refreshKey (here : Mark) : Option PendingKey → Option (Option PendingKey)
  | none => some none
  | some k =>
    if k.expired here then (if k.required then none else some none) else some (some k)

/-- Drops the expired pending keys of all flow levels. -/
def refreshKeys (s : Lexer) : Option Lexer := do
  let here := s.cursor.mark
  let outerPending ← s.outerPending.mapM (refreshKey here)
  let pending ← refreshKey here s.pending
  return { s with pending, outerPending }

/-- Gives up the pending key of this level; malformed if a key was required. -/
def dropKey (s : Lexer) : Option Lexer :=
  if s.pending.any (·.required) then none else some { s with pending := none }

/-- Notes that a key may begin here, if one is allowed. -/
def noteKey (s : Lexer) : Option Lexer :=
  if s.keyAllowed then do
    let required := !s.inFlow && s.indent == some s.cursor.mark.column
    let key : PendingKey := ⟨required, s.count, s.cursor.mark⟩
    let s ← s.dropKey
    return { s with pending := some key }
  else some s

/-! ## Indentation -/

/-- Whether a column lies deeper than the current block collection. -/
def deeper (s : Lexer) (column : Nat) : Bool :=
  match s.indent with
  | none => true
  | some i => i < column

/-- Opens a block collection at this column unless one is open there. The token goes before
    token number `position`. -/
def openBlock (s : Lexer) (column position : Nat) (token : Token) (mark : Mark) : Lexer :=
  if !s.inFlow && s.deeper column then
    { s with outer := s.indent :: s.outer, indent := some column }.insertAt position token mark
  else s

/-- Closes the block collections deeper than `column`; all of them for `none`. -/
def closeBlocks (column : Option Nat) : List (Option Nat) → Lexer → Lexer
  | outer, s =>
    match s.indent with
    | none => s
    | some i =>
      if column.all (· < i) then
        let s := s.push .blockEnd s.cursor.mark
        match outer with
        | [] => { s with indent := none, outer := [] }
        | o :: os => closeBlocks column os { s with indent := o, outer := os }
      else s

/-- Closes block collections unless inside brackets or braces. -/
def unindent (s : Lexer) (column : Option Nat) : Lexer :=
  if s.inFlow then s else closeBlocks column s.outer s

/-! ## Between tokens -/

/-- Moves over blanks, comments and line breaks. A tab at a place where a block key may
    begin is not skipped. -/
def skipGap : Nat → Lexer → Lexer
  | 0, s => s
  | n + 1, s =>
    let atStart := s.cursor.mark.index == 0
    let c := if atStart && s.cursor.sees '\ufeff' then s.cursor.skip 1 else s.cursor
    let tabs := s.inFlow || !s.keyAllowed
    let c := (c.dropWhile (fun ch => ch == ' ' || (tabs && ch == '\t'))).skipComment
    if !c.rest.isEmpty && atBreak c.rest then
      skipGap n { s with cursor := c.skipBreak, keyAllowed := s.keyAllowed || !s.inFlow }
    else { s with cursor := c }

/-! ## Directives, anchors and tags -/

/-- The characters of a tag besides word characters. -/
def isTagChar (verbatim : Bool) (c : Char) : Bool :=
  isWordChar c || ";/?:@&=+$.%!~*'()".toList.contains c || (verbatim && ",[]".toList.contains c)

/-- The number of bytes of a UTF-8 sequence with this first byte. -/
def utf8Width? (b : Nat) : Option Nat :=
  if b < 0x80 then some 1
  else if b < 0xC0 then none
  else if b < 0xE0 then some 2
  else if b < 0xF0 then some 3
  else if b < 0xF8 then some 4
  else none

/-- Reads `n` percent-encoded continuation bytes. -/
def scanContinuation : Nat → List Nat → Cursor → Option (List Nat × Cursor)
  | 0, acc, c => some (acc.reverse, c)
  | n + 1, acc, c =>
    match c.rest with
    | '%' :: a :: b :: _ =>
      match hexNumber? [a, b] with
      | some x => if 0x80 ≤ x && x < 0xC0 then scanContinuation n (x :: acc) (c.skip 3) else none
      | none => none
    | _ => none

/-- One percent-encoded character of a tag. -/
def scanEncoded (c : Cursor) : Option (List Char × Cursor) :=
  match c.rest with
  | '%' :: a :: b :: _ => do
    let lead ← hexNumber? [a, b]
    let width ← utf8Width? lead
    let (more, c) ← scanContinuation (width - 1) [] (c.skip 3)
    let bytes := ByteArray.mk ((lead :: more).map (·.toUInt8)).toArray
    return (((String.fromUTF8? bytes).getD "\ufffd").toList, c)
  | _ => none

/-- The characters of a tag, reversed onto `acc`, and how many were read. -/
def scanTagText (verbatim : Bool) :
    Nat → List Char → Nat → Cursor → Option (List Char × Nat × Cursor)
  | 0, acc, k, c => some (acc, k, c)
  | n + 1, acc, k, c =>
    match c.rest with
    | [] => some (acc, k, c)
    | ch :: _ =>
      if ch == '%' then
        match scanEncoded c with
        | some (text, c) => scanTagText verbatim n (text.reverse ++ acc) (k + 1) c
        | none => none
      else if isTagChar verbatim ch then scanTagText verbatim n (ch :: acc) (k + 1) (c.skip 1)
      else some (acc, k, c)

/-- The suffix of a tag behind `head`, whose exclamation mark is not repeated; malformed if
    both are empty. -/
def scanTagSuffix (verbatim : Bool) (head : List Char) (c : Cursor) : Option (String × Cursor) := do
  let (acc, k, c) ← scanTagText verbatim c.rest.length (head.drop 1).reverse head.length c
  if k == 0 then none else return (String.ofList acc.reverse, c)

/-- An exclamation mark, word characters and perhaps a second mark. -/
def scanTagHandle (c : Cursor) : Option (List Char × Cursor) :=
  if c.sees '!' then
    let (word, c) := (c.skip 1).takeWhile isWordChar
    if c.sees '!' then some ('!' :: word ++ ['!'], c.skip 1) else some ('!' :: word, c)
  else none

/-- Whether a handle ends with a mark of its own. -/
def isFullHandle (handle : List Char) : Bool := 1 < handle.length && handle.getLast? == some '!'

/-- A tag: verbatim, with a named handle, with the primary handle, or a lone mark. -/
def scanTag (s : Lexer) : Option Lexer := do
  let start := s.cursor.mark
  let (handle, suffix, c) ←
    if s.cursor.rest.tail.head? == some '<' then do
      let (suffix, c) ← scanTagSuffix true [] (s.cursor.skip 2)
      if c.sees '>' then some ("", suffix, c.skip 1) else none
    else do
      let (handle, c) ← scanTagHandle s.cursor
      if isFullHandle handle then do
        let (suffix, c) ← scanTagSuffix false [] c
        some (String.ofList handle, suffix, c)
      else do
        let (suffix, c) ← scanTagSuffix false handle c
        some (if suffix.isEmpty then ("", "!", c) else ("!", suffix, c))
  if atBlank c.rest || (s.inFlow && c.sees ',') then
    return { s with cursor := c }.push (.tag handle suffix) start
  else none

/-- An anchor or alias name and what may follow it. -/
def scanName (s : Lexer) (token : String → Token) : Option Lexer :=
  let (name, c) := (s.cursor.skip 1).takeWhile isWordChar
  let ended := atBlank c.rest || c.rest.head?.any ("?:,]\x7d%@\x60".toList.contains ·)
  if name.isEmpty || !ended then none
  else some ({ s with cursor := c }.push (token (String.ofList name)) s.cursor.mark)

/-- A decimal number of at most nine digits. -/
def scanVersionPart (c : Cursor) : Option (Nat × Cursor) :=
  let (digits, c) := c.takeWhile Char.isDigit
  if digits.isEmpty || 9 < digits.length then none
  else some (digits.foldl (fun n d => n * 10 + (d.toNat - 48)) 0, c)

/-- A directive line. -/
def scanDirective (s : Lexer) : Option Lexer := do
  let start := s.cursor.mark
  let (name, c) := (s.cursor.skip 1).takeWhile isWordChar
  if name.isEmpty || !atBlank c.rest then none
  else
    let (token, c) ←
      if name == "YAML".toList then do
        let (major, c) ← scanVersionPart (c.dropWhile isBlank)
        if !c.sees '.' then none
        else
          let (minor, c) ← scanVersionPart (c.skip 1)
          some (Token.versionDirective major minor, c)
      else if name == "TAG".toList then do
        let (handle, c) ← scanTagHandle (c.dropWhile isBlank)
        if !(handle == ['!'] || isFullHandle handle) || !c.rest.head?.any isBlank then none
        else
          let (stem, c) ← scanTagSuffix true [] (c.dropWhile isBlank)
          if !atBlank c.rest then none
          else some (Token.tagDirective (String.ofList handle) stem, c)
      else none
    let s := { s with cursor := c }.push token start
    let c := (c.dropWhile isBlank).skipComment
    if atBreak c.rest then return { s with cursor := c.skipBreak } else none

/-! ## One token -/

/-- Whether a plain scalar may begin with this text. -/
def startsPlain (flow : Bool) : List Char → Bool
  | [] => false
  | c :: rest =>
    !(isBlank c || isBreak c || "-?:,[]\x7b\x7d#&*!|>'\"%@\x60".toList.contains c) ||
      (c == '-' && !rest.head?.any isBlank) ||
      (!flow && (c == '?' || c == ':') && !atBlank rest)

/-- The end of the text: all block collections end at the start of a new line. -/
def finish (s : Lexer) : Option Lexer := do
  let mark := s.cursor.mark
  let mark := if mark.column == 0 then mark else ⟨mark.index, mark.line + 1, 0⟩
  let s := { s with cursor := { s.cursor with mark } }.unindent none
  let s ← s.dropKey
  return { s with keyAllowed := false }.push .streamEnd mark

/-- A bracket or brace that opens a flow collection. -/
def openFlow (s : Lexer) (token : Token) : Option Lexer := do
  let s ← s.noteKey
  return { s with outerPending := s.pending :: s.outerPending, pending := none,
                  keyAllowed := true }.take 1 token

/-- A bracket or brace that closes a flow collection. -/
def closeFlow (s : Lexer) (token : Token) : Option Lexer := do
  let s ← s.dropKey
  let s := match s.outerPending with
    | [] => s
    | k :: ks => { s with pending := k, outerPending := ks }
  return { s with keyAllowed := false }.take 1 token

/-- A dash that begins an entry of a block sequence. -/
def blockEntry (s : Lexer) : Option Lexer :=
  if !s.inFlow && !s.keyAllowed then none
  else do
    let here := s.cursor.mark
    let s ← (s.openBlock here.column s.count .blockSequenceStart here).dropKey
    return { s with keyAllowed := true }.take 1 .blockEntry

/-- A question mark that begins a key. -/
def explicitKey (s : Lexer) : Option Lexer :=
  if !s.inFlow && !s.keyAllowed then none
  else do
    let here := s.cursor.mark
    let s ← (s.openBlock here.column s.count .blockMappingStart here).dropKey
    return { s with keyAllowed := !s.inFlow }.take 1 .key

/-- A colon: it turns the pending key into one, or follows an explicit key. -/
def valueMark (s : Lexer) : Option Lexer :=
  match s.pending with
  | some k =>
    let s := (s.insertAt k.position .key k.mark).openBlock k.mark.column k.position
      .blockMappingStart k.mark
    some ({ s with pending := none, keyAllowed := false }.take 1 .value)
  | none =>
    if !s.inFlow && !s.keyAllowed then none
    else
      let here := s.cursor.mark
      let s := s.openBlock here.column s.count .blockMappingStart here
      some ({ s with keyAllowed := !s.inFlow }.take 1 .value)

/-- A line that starts or ends a document, or a directive. -/
def atMargin (s : Lexer) (scan : Lexer → Option Lexer) : Option Lexer := do
  let s ← (s.unindent none).dropKey
  scan { s with keyAllowed := false }

/-- A scalar, anchor, alias or tag, any of which may begin a key. -/
def maybeKey (s : Lexer) (scan : Lexer → Option Lexer) : Option Lexer := do
  let s ← s.noteKey
  scan { s with keyAllowed := false }

/-- A quoted scalar. -/
def quotedScalar (single : Bool) (s : Lexer) : Option Lexer := do
  let (text, c) ← scanQuoted single s.cursor
  let style := if single then ScalarStyle.singleQuoted else .doubleQuoted
  return { s with cursor := c }.push (.scalar style text) s.cursor.mark

/-- A plain scalar. A key may follow it on the next line. -/
def plainScalar (s : Lexer) : Option Lexer := do
  let least := match s.indent with | some i => i + 1 | none => 0
  let (text, broken, c) ← scanPlain s.inFlow least s.cursor
  return { s with cursor := c, keyAllowed := broken }.push (.scalar .plain text) s.cursor.mark

/-- A literal or folded scalar. -/
def blockScalar (literal : Bool) (s : Lexer) : Option Lexer := do
  let s ← s.dropKey
  let (text, c) ← scanBlock literal s.indent s.cursor
  let style := if literal then ScalarStyle.literal else .folded
  return { s with cursor := c, keyAllowed := true }.push (.scalar style text) s.cursor.mark

/-- The next token; the end of the text yields `streamEnd`. -/
def step (s : Lexer) : Option Lexer := do
  let s ← (skipGap (s.cursor.rest.length + 1) s).refreshKeys
  let s := s.unindent (some s.cursor.mark.column)
  match s.cursor.rest with
  | [] => s.finish
  | ch :: rest =>
    if s.cursor.mark.column == 0 && ch == '%' then s.atMargin scanDirective
    else if s.cursor.seesDocumentMark then
      s.atMargin fun s => some (s.take 3 (if ch == '-' then .documentStart else .documentEnd))
    else if ch == '[' then s.openFlow .flowSequenceStart
    else if ch == '{' then s.openFlow .flowMappingStart
    else if ch == ']' then s.closeFlow .flowSequenceEnd
    else if ch == '}' then s.closeFlow .flowMappingEnd
    else if ch == ',' then do
      let s ← s.dropKey
      return { s with keyAllowed := true }.take 1 .flowEntry
    else if ch == '-' && atBlank rest then s.blockEntry
    else if ch == '?' && (s.inFlow || atBlank rest) then s.explicitKey
    else if ch == ':' && (s.inFlow || atBlank rest) then s.valueMark
    else if ch == '*' then s.maybeKey fun s => s.scanName .alias
    else if ch == '&' then s.maybeKey fun s => s.scanName .anchor
    else if ch == '!' then s.maybeKey scanTag
    else if ch == '|' && !s.inFlow then s.blockScalar true
    else if ch == '>' && !s.inFlow then s.blockScalar false
    else if ch == '\'' then s.maybeKey (quotedScalar true)
    else if ch == '"' then s.maybeKey (quotedScalar false)
    else if startsPlain s.inFlow s.cursor.rest then s.maybeKey plainScalar
    else none

/-- The number of tokens that can no longer become part of a key: all that stand before the
    earliest pending one. -/
def settled (s : Lexer) : Nat :=
  (s.pending :: s.outerPending).foldl (fun n k => match k with
    | some k => if k.expired s.cursor.mark && !k.required then n else min n k.position
    | none => n) s.count

/-- Reads tokens until the end of the text or a malformed place. -/
def run : Nat → Lexer → List Lexeme
  | 0, s => s.emitted.reverse
  | n + 1, s =>
    match s.step with
    | none => s.emitted.reverse.take s.settled
    | some s =>
      match s.emitted with
      | ⟨.streamEnd, _, _⟩ :: _ => s.emitted.reverse
      | _ => run n s

end Lexer

/-- The certain tokens of a text. A byte order mark in front is no part of the text, and a
    character that no text may hold spoils all of it. -/
def lex (text : String) : List Lexeme :=
  let chars := match text.toList with
    | '\ufeff' :: rest => rest
    | chars => chars
  if chars.all isAllowed then Lexer.run (chars.length + 1) (Lexer.ofText chars) else []

end HpcBlueprint.Yaml
