/-
  The text that is written for a YAML document tree.

  Collections are written in block style, two columns deeper for each mapping and each
  sequence inside a sequence; a sequence that is the value of a mapping key stands at the
  column of the key. A text is written plainly if it reads back as the same text, else in
  single quotes, in double quotes if it holds characters that need escapes, and as a
  literal block if it has several lines.
-/
import HpcBlueprint.Yaml.Token.Basic
import HpcBlueprint.Yaml.Tree
import HpcBlueprint.Yaml.Scalar

namespace HpcBlueprint.Yaml.Printer

/-! ## What a text allows -/

/-- Characters that are written as they are. -/
def isVisible (c : Char) : Bool :=
  let n := c.toNat
  n == 0x0A || (0x20 ≤ n && n ≤ 0x7E) || (0xA0 ≤ n && n ≤ 0xD7FF) ||
    (0xE000 ≤ n && n ≤ 0xFFFD && n != 0xFEFF) || 0x10000 ≤ n

/-- Whether a space stands next to a line break, in this order of classes. -/
def hasPair (p q : Char → Bool) : List Char → Bool
  | a :: b :: rest => (p a && q b) || hasPair p q (b :: rest)
  | _ => false

/-- Characters that may not begin a plain scalar. -/
def isIndicator (c : Char) : Bool := "#,[]\x7b\x7d&*!|>'\"%@\x60".toList.contains c

/-- A character class that also holds the end of a text. -/
def blankOrEnd : Option Char → Bool
  | none => true
  | some c => isBlank c || isBreak c

/-- Whether a character inside a text would end or break a plain scalar: a colon before a
    blank or a number sign behind one. -/
def interrupts : List Char → Bool
  | a :: b :: rest =>
    ((isBlank a || isBreak a) && b == '#') || (b == ':' && blankOrEnd rest.head?) ||
      interrupts (b :: rest)
  | _ => false

/-- Whether a text begins with something that has a meaning of its own in YAML. -/
def startsSpecial : List Char → Bool
  | [] => false
  | c :: rest =>
    isIndicator c || ((c == '?' || c == ':' || c == '-') && blankOrEnd rest.head?) ||
      "---".toList.isPrefixOf (c :: rest) || "...".toList.isPrefixOf (c :: rest)

/-- The facts about a text that decide how it may be written. -/
structure Analysis where
  /-- Whether it spans several lines. -/
  multiline : Bool
  plain : Bool
  single : Bool
  block : Bool

/-- What a text allows. -/
def analyze (s : List Char) : Analysis :=
  let isSpace (c : Char) : Bool := c == ' '
  let multiline := s.any isBreak
  let special := s.any (!isVisible ·) || hasPair isSpace isBreak s
  let breakSpace := hasPair isBreak isSpace s
  let edge (c : Option Char) (p : Char → Bool) : Bool := c.any p
  let padded := edge s.head? isSpace || edge s.head? isBreak || edge s.getLast? isSpace ||
    edge s.getLast? isBreak
  { multiline
    plain := s.isEmpty ||
      !(special || breakSpace || padded || multiline || startsSpecial s || interrupts s)
    single := s.isEmpty || !(special || breakSpace)
    block := !s.isEmpty && !(special || edge s.getLast? isSpace) }

/-! ## Styles -/

/-- The style that a text asks for by its meaning: a text of several lines is a block, and one
    that would be read as something else is quoted. -/
def wantedStyle (s : String) : ScalarStyle :=
  if s.toList.contains '\n' then .literal
  else
    match Scalar.resolve s with
    | .text _ => if Scalar.isZeroLed s.toList then .singleQuoted else .plain
    | _ => .singleQuoted

/-- The style that a text gets. Keys stand on one line. -/
def style (isKey : Bool) (wanted : ScalarStyle) (s : List Char) : ScalarStyle :=
  let a := analyze s
  let st := if isKey && a.multiline then .doubleQuoted else wanted
  let st := if st == .plain && (!a.plain || (s.isEmpty && isKey)) then .singleQuoted else st
  let st := if st == .singleQuoted && !a.single then .doubleQuoted else st
  if st == .literal && (!a.block || isKey) then .doubleQuoted else st

/-! ## Scalars -/

/-- A hexadecimal number of the given width. -/
def hexPadded (width n : Nat) : String :=
  let ds := (Nat.toDigits 16 n).map Char.toUpper
  String.ofList (List.replicate (width - ds.length) '0' ++ ds)

/-- A character inside double quotes. -/
def doubleQuotedChar (c : Char) : String :=
  if isVisible c && !isBreak c && c != '"' && c != '\\' then String.ofList [c]
  else
    match c with
    | '\x00' => "\\0"
    | '\x07' => "\\a"
    | '\x08' => "\\b"
    | '\t' => "\\t"
    | '\n' => "\\n"
    | '\x0b' => "\\v"
    | '\x0c' => "\\f"
    | '\r' => "\\r"
    | '\x1b' => "\\e"
    | '"' => "\\\""
    | '\\' => "\\\\"
    | '\x85' => "\\N"
    | '\xa0' => "\\_"
    | '\u2028' => "\\L"
    | '\u2029' => "\\P"
    | c =>
      if c.toNat ≤ 0xFF then "\\x" ++ hexPadded 2 c.toNat
      else if c.toNat ≤ 0xFFFF then "\\u" ++ hexPadded 4 c.toNat
      else "\\U" ++ hexPadded 8 c.toNat

/-- A text in double quotes. -/
def doubleQuoted (s : List Char) : String := "\"" ++ String.join (s.map doubleQuotedChar) ++ "\""

/-- A run of spaces. -/
def spaces (n : Nat) : String := String.ofList (List.replicate n ' ')

/-- The characters inside single quotes. A text with line separators continues at the column
    `indent`; `broken` says that a separator stands right before. -/
def singleQuotedBody (indent : Nat) : Bool → List Char → String
  | broken, [] => if broken then spaces indent else ""
  | broken, c :: rest =>
    if isBreak c then String.ofList [c] ++ singleQuotedBody indent true rest
    else
      (if broken && c != ' ' then spaces indent else "") ++
        (if c == '\'' then "''" else String.ofList [c]) ++
        singleQuotedBody indent (broken && c == ' ') rest

/-- A text in single quotes. -/
def singleQuoted (indent : Nat) (s : List Char) : String :=
  "'" ++ singleQuotedBody indent false s ++ "'"

/-- The header of a literal block: a digit if the first line begins with a blank, and what
    happens to the line breaks at its end. -/
def blockHeader (s : List Char) : String :=
  let hint := if s.head?.any (fun c => c == ' ' || isBreak c) then "2" else ""
  let chomp := match s.reverse with
    | [] => "-"
    | c :: rest =>
      if !isBreak c then "-"
      else
        match rest with
        | [] => "+"
        | d :: _ => if isBreak d then "+" else ""
  "|" ++ hint ++ chomp

/-- The lines of a literal block at the column `indent`. -/
def blockBody (indent : Nat) : Bool → List Char → String
  | _, [] => ""
  | fresh, c :: rest =>
    if isBreak c then String.ofList [c] ++ blockBody indent true rest
    else (if fresh then spaces indent else "") ++ String.ofList [c] ++ blockBody indent false rest

/-- A text in the style it gets. Lines after the first stand at the column `indent`. -/
def text (isKey : Bool) (indent : Nat) (s : String) : String :=
  let cs := s.toList
  match style isKey (wantedStyle s) cs with
  | .singleQuoted => singleQuoted indent cs
  | .doubleQuoted => doubleQuoted cs
  | .literal => blockHeader cs ++ "\n" ++ blockBody indent true cs
  | _ => s

/-- A scalar. -/
def scalar (isKey : Bool) (indent : Nat) : Tree → String
  | .bool b => toString b
  | .number n => n.text
  | .string s => text isKey indent s
  | _ => "null"

/-- A key in front of its colon. -/
def keyText : Tree → String
  | .sequence _ => "[]"
  | .mapping _ => "\x7b\x7d"
  | t => scalar true 0 t

/-! ## Collections -/

/-- Whether a key fits on one line in front of its colon. -/
def isSimpleKey : Tree → Bool
  | .string s => !s.toList.any isBreak && s.utf8ByteSize ≤ 128
  | .sequence items => items.isEmpty
  | .mapping entries => entries.isEmpty
  | .tagged .. => false
  | _ => true

/-- Ends the line unless it is ended already. -/
def endLine (written : String) : String :=
  if isBreak written.back then written else written ++ "\n"

/-- Begins a line at a column. -/
def newLine (written : String) (column : Nat) : String := endLine written ++ spaces column

mutual

/-- Appends a node behind an indicator, on the same line where it can; `column` is the column
    of the indicator. -/
def inPlace (written : String) (column : Nat) : Tree → String
  | .sequence ts =>
    if ts.isEmpty then written ++ " []" else items (written ++ " ") (column + 2) true ts
  | .mapping es =>
    if es.isEmpty then written ++ " \x7b\x7d" else entries (written ++ " ") (column + 2) true es
  | .tagged _ t => inPlace written column t
  | .null => written ++ " null"
  | .bool b => written ++ " " ++ toString b
  | .number n => written ++ " " ++ n.text
  | .string s => written ++ " " ++ text false (column + 2) s

/-- Appends the value of a simple key at this column. -/
def afterKey (written : String) (column : Nat) : Tree → String
  | .sequence ts => if ts.isEmpty then written ++ " []" else items written column false ts
  | .mapping es =>
    if es.isEmpty then written ++ " \x7b\x7d" else entries written (column + 2) false es
  | .tagged _ t => afterKey written column t
  | .null => written ++ " null"
  | .bool b => written ++ " " ++ toString b
  | .number n => written ++ " " ++ n.text
  | .string s => written ++ " " ++ text false (column + 2) s

/-- Appends the entries of a mapping, the first one in place or on a line of its own. -/
def entries (written : String) (column : Nat) (fresh : Bool) : List (Tree × Tree) → String
  | [] => written
  | (k, v) :: rest =>
    let start := if fresh then written else newLine written column
    let done :=
      if isSimpleKey k then afterKey (start ++ keyText k ++ ":") column v
      else inPlace (newLine (inPlace (start ++ "?") column k) column ++ ":") column v
    entries done column false rest

/-- Appends the items of a sequence, the first one in place or on a line of its own. -/
def items (written : String) (column : Nat) (fresh : Bool) : List Tree → String
  | [] => written
  | t :: rest =>
    let start := if fresh then written else newLine written column
    items (inPlace (start ++ "-") column t) column false rest

end

/-- The text of a document. -/
def render : Tree → String
  | .mapping es => endLine (if es.isEmpty then "\x7b\x7d" else entries "" 0 true es)
  | .sequence ts => endLine (if ts.isEmpty then "[]" else items "" 0 true ts)
  | t => endLine (scalar false 2 t)

end HpcBlueprint.Yaml.Printer
