/-
  Positions in a YAML text, and a cursor that moves over it.

  A `Mark` counts characters, lines and columns from zero. A `Cursor` is the rest of
  the text together with the mark of its first character; `skip` moves within a line
  and `skipBreak` over one line break, which is where the line count grows.
-/

namespace HpcBlueprint.Yaml

/-- A place in a text, all three counts starting at zero. -/
structure Mark where
  index : Nat
  line : Nat
  column : Nat
deriving DecidableEq, Inhabited

namespace Mark

/-- The first character of a text. -/
def start : Mark := ⟨0, 0, 0⟩

/-- The first column of the first line. -/
def isStart (m : Mark) : Bool := m.line == 0 && m.column == 0

/-- The place as people count it, from one. -/
def describe (m : Mark) : String :=
  "line " ++ toString (m.line + 1) ++ " column " ++ toString (m.column + 1)

end Mark

/-! ## Character classes -/

/-- A space or a tab. -/
def isBlank (c : Char) : Bool := c == ' ' || c == '\t'

/-- The line breaks of YAML 1.1: line feed, carriage return, next line and the two
    Unicode separators. -/
def isBreak (c : Char) : Bool :=
  c == '\n' || c == '\r' || c == '\x85' || c == '\u2028' || c == '\u2029'

/-- The characters of anchors and tag handles. -/
def isWordChar (c : Char) : Bool := c.isAlphanum || c == '_' || c == '-'

/-- The characters that a YAML text may hold. -/
def isAllowed (c : Char) : Bool :=
  let n := c.toNat
  n == 0x09 || n == 0x0A || n == 0x0D || (0x20 ≤ n && n ≤ 0x7E) || n == 0x85 ||
    (0xA0 ≤ n && n ≤ 0xD7FF) || (0xE000 ≤ n && n ≤ 0xFFFD) || 0x10000 ≤ n

/-- Whether a text starts with a blank or a line break, or is empty. -/
def atBlank : List Char → Bool
  | [] => true
  | c :: _ => isBlank c || isBreak c

/-- Whether a text starts with a line break or is empty. -/
def atBreak : List Char → Bool
  | [] => true
  | c :: _ => isBreak c

/-! ## Cursors -/

/-- The rest of a text and the place where it begins. -/
structure Cursor where
  rest : List Char
  mark : Mark
deriving Inhabited

namespace Cursor

/-- A cursor before the first character. -/
def ofText (text : List Char) : Cursor := ⟨text, Mark.start⟩

/-- The character at the cursor. -/
def peek (c : Cursor) : Option Char := c.rest.head?

/-- Whether the character at the cursor is `ch`. -/
def sees (c : Cursor) (ch : Char) : Bool := c.rest.head? == some ch

/-- Moves over `n` characters of one line. -/
def skip (c : Cursor) (n : Nat) : Cursor :=
  ⟨c.rest.drop n, { c.mark with index := c.mark.index + n, column := c.mark.column + n }⟩

/-- Moves over the longest run of characters with the property and returns the run. -/
def takeWhile (c : Cursor) (p : Char → Bool) : List Char × Cursor :=
  let run := c.rest.takeWhile p
  (run, ⟨c.rest.dropWhile p,
    { c.mark with index := c.mark.index + run.length, column := c.mark.column + run.length }⟩)

/-- Moves over the longest run of characters with the property. -/
def dropWhile (c : Cursor) (p : Char → Bool) : Cursor := (c.takeWhile p).2

/-- The start of the next line, `n` characters on. -/
def newLine (c : Cursor) (rest : List Char) (n : Nat) : Cursor :=
  ⟨rest, ⟨c.mark.index + n, c.mark.line + 1, 0⟩⟩

/-- Moves over one line break and returns what it contributes to a scalar: the two Unicode
    separators stand for themselves and every other break is a line feed. -/
def takeBreak (c : Cursor) : List Char × Cursor :=
  match c.rest with
  | '\r' :: '\n' :: rest => (['\n'], c.newLine rest 2)
  | '\u2028' :: rest => (['\u2028'], c.newLine rest 1)
  | '\u2029' :: rest => (['\u2029'], c.newLine rest 1)
  | ch :: rest => if isBreak ch then (['\n'], c.newLine rest 1) else ([], c)
  | [] => ([], c)

/-- Moves over one line break. -/
def skipBreak (c : Cursor) : Cursor := c.takeBreak.2

/-- Moves over a comment, if one starts here, up to the end of its line. -/
def skipComment (c : Cursor) : Cursor :=
  if c.sees '#' then c.dropWhile (fun ch => !isBreak ch) else c

/-- Whether a line that starts or ends a document begins here: three equal marks at the
    first column and then a blank. -/
def seesDocumentMark (c : Cursor) : Bool :=
  c.mark.column == 0 &&
    match c.rest with
    | '-' :: '-' :: '-' :: rest => atBlank rest
    | '.' :: '.' :: '.' :: rest => atBlank rest
    | _ => false

end Cursor

end HpcBlueprint.Yaml
