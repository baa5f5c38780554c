/-
  The texts of scalar tokens: line folding, escapes, block scalars.

  Every function takes the cursor at the first character of the scalar and returns
  `none` for a malformed one. Loops over the lines of a scalar are bounded by the
  length of the text that is left.
-/
import HpcBlueprint.Yaml.Mark

namespace HpcBlueprint.Yaml

/-! ## Line folding -/

/-- Blanks and line breaks met between two words of a flow or plain scalar. -/
structure Gap where
  /-- Blanks before the first break. -/
  blanks : List Char
  /-- Whether a line break was met, escaped or not. -/
  broken : Bool
  /-- The first unescaped break. -/
  first : List Char
  /-- The breaks after it. -/
  later : List Char

namespace Gap

/-- No blank and no break. -/
def empty : Gap := ⟨[], false, [], []⟩

/-- An escaped line break. -/
def escaped : Gap := ⟨[], true, [], []⟩

/-- What a gap contributes to the scalar: a single break folds to a space and the first of
    several is dropped. -/
def fold (g : Gap) : List Char :=
  if g.broken then
    if g.first == ['\n'] then (if g.later.isEmpty then [' '] else g.later)
    else g.first ++ g.later
  else g.blanks

/-- Reads blanks and breaks. With `indent`, a tab before that column on a later line is
    malformed. -/
def scan (indent : Option Nat) : Nat → Gap → Cursor → Option (Gap × Cursor)
  | 0, g, c => some (g, c)
  | n + 1, g, c =>
    match c.peek with
    | none => some (g, c)
    | some ch =>
      if isBlank ch then
        if g.broken && ch == '\t' && indent.any (c.mark.column < ·) then none
        else if g.broken then scan indent n g (c.skip 1)
        else scan indent n { g with blanks := g.blanks ++ [ch] } (c.skip 1)
      else if isBreak ch then
        let (text, c) := c.takeBreak
        if g.broken then scan indent n { g with later := g.later ++ text } c
        else scan indent n { g with blanks := [], broken := true, first := text } c
      else some (g, c)

end Gap

/-! ## Quoted scalars -/

/-- The value of a hexadecimal digit. -/
def hexDigit? (c : Char) : Option Nat :=
  if '0' ≤ c && c ≤ '9' then some (c.toNat - 48)
  else if 'a' ≤ c && c ≤ 'f' then some (c.toNat - 87)
  else if 'A' ≤ c && c ≤ 'F' then some (c.toNat - 55)
  else none

/-- The number that a run of hexadecimal digits stands for. -/
def hexNumber? (digits : List Char) : Option Nat :=
  digits.foldl (fun acc c => do return (← acc) * 16 + (← hexDigit? c)) (some 0)

/-- What stands after a backslash. -/
inductive Escape
  | char (c : Char)
  | code (width : Nat)

/-- The escapes of a double-quoted scalar. -/
def escape? (c : Char) : Option Escape :=
  match c with
  | '0' => some (.char '\x00')
  | 'a' => some (.char '\x07')
  | 'b' => some (.char '\x08')
  | 't' => some (.char '\t')
  | '\t' => some (.char '\t')
  | 'n' => some (.char '\n')
  | 'v' => some (.char '\x0b')
  | 'f' => some (.char '\x0c')
  | 'r' => some (.char '\r')
  | 'e' => some (.char '\x1b')
  | ' ' => some (.char ' ')
  | '"' => some (.char '"')
  | '/' => some (.char '/')
  | '\\' => some (.char '\\')
  | 'N' => some (.char '\x85')
  | '_' => some (.char '\xa0')
  | 'L' => some (.char '\u2028')
  | 'P' => some (.char '\u2029')
  | 'x' => some (.code 2)
  | 'u' => some (.code 4)
  | 'U' => some (.code 8)
  | _ => none

/-- The character with this code point, if it is one. -/
def charOfCode? (n : Nat) : Option Char :=
  if h : n.isValidChar then some (Char.ofNatAux n h) else none

/-- The characters up to the next blank, break or closing quote, reversed onto `acc`. The
    flag says that an escaped line break ended them. -/
def scanQuotedWord (single : Bool) :
    Nat → List Char → Cursor → Option (List Char × Bool × Cursor)
  | 0, acc, c => some (acc, false, c)
  | n + 1, acc, c =>
    match c.rest with
    | [] => some (acc, false, c)
    | ch :: rest =>
      if isBlank ch || isBreak ch then some (acc, false, c)
      else if single then
        if ch == '\'' then
          if rest.head? == some '\'' then scanQuotedWord single n ('\'' :: acc) (c.skip 2)
          else some (acc, false, c)
        else scanQuotedWord single n (ch :: acc) (c.skip 1)
      else if ch == '"' then some (acc, false, c)
      else if ch == '\\' then
        match rest with
        | [] => none
        | e :: more =>
          if isBreak e then some (acc, true, (c.skip 1).skipBreak)
          else
            match escape? e with
            | none => none
            | some (.char x) => scanQuotedWord single n (x :: acc) (c.skip 2)
            | some (.code width) =>
              let digits := more.take width
              if digits.length < width then none
              else
                match (hexNumber? digits).bind charOfCode? with
                | none => none
                | some x => scanQuotedWord single n (x :: acc) (c.skip (2 + width))
      else scanQuotedWord single n (ch :: acc) (c.skip 1)

/-- The rest of a quoted scalar behind its opening quote, reversed onto `acc`. -/
def scanQuotedRest (single : Bool) : Nat → List Char → Cursor → Option (List Char × Cursor)
  | 0, _, _ => none
  | n + 1, acc, c =>
    if c.seesDocumentMark || c.rest.isEmpty then none
    else
      match scanQuotedWord single c.rest.length acc c with
      | none => none
      | some (acc, joined, c) =>
        if c.sees (if single then '\'' else '"') then some (acc, c.skip 1)
        else
          match Gap.scan none c.rest.length (if joined then Gap.escaped else Gap.empty) c with
          | none => none
          | some (gap, c) => scanQuotedRest single n (gap.fold.reverse ++ acc) c

/-- A single- or double-quoted scalar with its quotes. -/
def scanQuoted (single : Bool) (c : Cursor) : Option (String × Cursor) := do
  let (text, c) ← scanQuotedRest single (c.rest.length + 1) [] (c.skip 1)
  return (String.ofList text.reverse, c)

/-! ## Plain scalars -/

/-- Whether a plain scalar stops before this text. -/
def endsPlain (flow : Bool) : List Char → Bool
  | [] => true
  | c :: rest =>
    isBlank c || isBreak c || (c == ':' && atBlank rest) ||
      (flow && (c == ',' || c == '[' || c == ']' || c == '{' || c == '}'))

/-- A colon before one of the flow indicators is malformed inside a plain scalar. -/
def badColon (flow : Bool) : List Char → Bool
  | ':' :: c :: _ =>
    flow && (c == ',' || c == '?' || c == '[' || c == ']' || c == '{' || c == '}')
  | _ => false

/-- The characters of one word of a plain scalar, reversed onto `acc`. -/
def scanPlainWord (flow : Bool) : Nat → List Char → Cursor → Option (List Char × Cursor)
  | 0, acc, c => some (acc, c)
  | n + 1, acc, c =>
    if endsPlain flow c.rest && !badColon flow c.rest then some (acc, c)
    else if badColon flow c.rest then none
    else
      match c.rest with
      | [] => some (acc, c)
      | ch :: _ => scanPlainWord flow n (ch :: acc) (c.skip 1)

/-- A plain scalar as it is read so far. -/
structure PlainText where
  /-- The characters, last first. -/
  text : List Char
  /-- Whether a line break follows the last word. -/
  broken : Bool

/-- The words of a plain scalar from here on, given the gap before them. -/
def scanPlainRest (flow : Bool) (indent : Nat) :
    Nat → PlainText → Gap → Cursor → Option (PlainText × Cursor)
  | 0, p, _, c => some (p, c)
  | n + 1, p, gap, c =>
    if c.seesDocumentMark || c.sees '#' then some (p, c)
    else
      match scanPlainWord flow c.rest.length [] c with
      | none => none
      | some (word, after) =>
        let p := if word.isEmpty then p
          else { text := word ++ (gap.fold.reverse ++ p.text), broken := false }
        let gap := if word.isEmpty then gap else Gap.empty
        if atBlank after.rest && !after.rest.isEmpty then
          match Gap.scan (some indent) after.rest.length gap after with
          | none => none
          | some (gap, c) =>
            let p := { p with broken := gap.broken }
            if !flow && c.mark.column < indent then some (p, c)
            else scanPlainRest flow indent n p gap c
        else some (p, after)

/-- A plain scalar: its text and whether a line break follows. -/
def scanPlain (flow : Bool) (indent : Nat) (c : Cursor) : Option (String × Bool × Cursor) := do
  let (p, after) ← scanPlainRest flow indent (c.rest.length + 1) ⟨[], false⟩ Gap.empty c
  return (String.ofList p.text.reverse, p.broken, after)

/-! ## Block scalars -/

/-- What happens to the line breaks at the end of a block scalar. -/
inductive Chomping
  | strip
  | clip
  | keep
deriving DecidableEq

/-- The chomping and the explicit indentation behind the indicator, in either order. -/
def blockHeader (c : Cursor) : Option (Chomping × Option Nat × Cursor) :=
  let chomp (c : Cursor) : Option Chomping × Cursor :=
    if c.sees '+' then (some .keep, c.skip 1)
    else if c.sees '-' then (some .strip, c.skip 1)
    else (none, c)
  let increment (c : Cursor) : Option (Option Nat × Cursor) :=
    match c.peek with
    | some ch =>
      if ch == '0' then none
      else if ch.isDigit then some (some (ch.toNat - 48), c.skip 1)
      else some (none, c)
    | none => some (none, c)
  match chomp c with
  | (some k, c) => (increment c).map fun (i, c) => (k, i, c)
  | (none, c) =>
    match increment c with
    | none => none
    | some (some i, c) => let (k, c) := chomp c; some (k.getD .clip, some i, c)
    | some (none, c) => some (.clip, none, c)

/-- Reads indentation and empty lines before a line of a block scalar. While the
    indentation is unknown every space counts as indentation. Returns the breaks, the
    deepest column met and the cursor. -/
def blockBreaks (indent : Option Nat) :
    Nat → List Char → Nat → Cursor → Option (List Char × Nat × Cursor)
  | 0, breaks, deepest, c => some (breaks, deepest, c)
  | n + 1, breaks, deepest, c =>
    let spaces := (c.rest.takeWhile (· == ' ')).length
    let width := match indent with
      | none => spaces
      | some i => min spaces (i - c.mark.column)
    let c := c.skip width
    let deepest := max deepest c.mark.column
    let shallow := match indent with
      | none => true
      | some i => c.mark.column < i
    if shallow && c.sees '\t' then none
    else if atBreak c.rest && !c.rest.isEmpty then
      let (text, c) := c.takeBreak
      blockBreaks indent n (breaks ++ text) deepest c
    else some (breaks, deepest, c)

/-- A block scalar as it is read so far. -/
structure BlockText where
  /-- The characters, last first. -/
  text : List Char
  /-- The break after the last line. -/
  lastBreak : List Char
  /-- The empty lines after that break. -/
  trailing : List Char
  /-- Whether the last line began with a blank. -/
  blankLine : Bool

/-- The break between two lines of a block scalar. In a folded scalar it becomes a space,
    or nothing before empty lines, unless one of the lines begins with a blank. -/
def BlockText.joint (b : BlockText) (literal blank : Bool) : List Char :=
  if !literal && b.lastBreak == ['\n'] && !b.blankLine && !blank then
    (if b.trailing.isEmpty then [' '] else []) ++ b.trailing
  else b.lastBreak ++ b.trailing

/-- The lines of a block scalar that stand at column `indent`. -/
def blockLines (literal : Bool) (indent : Nat) :
    Nat → BlockText → Cursor → Option (BlockText × Cursor)
  | 0, b, c => some (b, c)
  | n + 1, b, c =>
    if c.mark.column != indent || c.rest.isEmpty then some (b, c)
    else
      let blank := c.rest.head?.any isBlank
      let (line, after) := c.takeWhile (fun ch => !isBreak ch)
      let text := line.reverse ++ ((b.joint literal blank).reverse ++ b.text)
      let (lastBreak, after) := after.takeBreak
      match blockBreaks (some indent) (after.rest.length + 1) [] 0 after with
      | none => none
      | some (trailing, _, after) =>
        blockLines literal indent n ⟨text, lastBreak, trailing, blank⟩ after

/-- A literal or folded scalar. `parent` is the column of the enclosing collection, if any. -/
def scanBlock (literal : Bool) (parent : Option Nat) (c : Cursor) :
    Option (String × Cursor) := do
  let (chomping, increment, c) ← blockHeader (c.skip 1)
  let c := (c.dropWhile isBlank).skipComment
  if !atBreak c.rest then none
  else
    let c := c.skipBreak
    let explicit := increment.map fun i => (match parent with | some p => p + i | none => i)
    let (breaks, deepest, c) ← blockBreaks explicit (c.rest.length + 1) [] 0 c
    let least := match parent with | some p => p + 1 | none => 1
    let indent := explicit.getD (max deepest least)
    let (b, c) ← blockLines literal indent (c.rest.length + 1) ⟨[], [], breaks, false⟩ c
    let tail := match chomping with
      | .strip => []
      | .clip => b.lastBreak
      | .keep => b.lastBreak ++ b.trailing
    return (String.ofList (b.text.reverse ++ tail), c)

end HpcBlueprint.Yaml
