/-
  The text of an expression.

  Arrays and objects take a line for each item or entry, except inside the arguments of a
  call, where they stand on one line.
-/
import HpcBlueprint.Hcl.Basic
import HpcBlueprint.Json.Basic
import HpcBlueprint.Text.Search

namespace HpcBlueprint.Hcl

/-! ## Texts -/

/-- A text in which the openings of interpolations and control words are doubled. -/
def doubled : List Char → List Char
  | '$' :: '\x7b' :: rest => '$' :: '$' :: '\x7b' :: doubled rest
  | '%' :: '\x7b' :: rest => '%' :: '%' :: '\x7b' :: doubled rest
  | c :: rest => c :: doubled rest
  | [] => []

/-- A text in quotes. -/
def quoted (s : String) : String := Json.quoted (String.ofList (doubled s.toList))

/-! ## Layout -/

/-- How arrays and objects are laid out. -/
inductive Layout
  /-- On one line. -/
  | line
  /-- Over lines, at a depth. -/
  | lines (depth : Nat)

/-- The layout of what stands inside. -/
def Layout.inner : Layout → Layout
  | .line => .line
  | .lines depth => .lines (depth + 1)

/-- Items of an array between brackets. -/
def arrayText (layout : Layout) (items : List String) : String :=
  match layout with
  | .line => "[" ++ ", ".intercalate items ++ "]"
  | .lines depth => Json.bracketed "[" "]" depth items

/-- Entries of an object between braces. -/
def objectText (layout : Layout) (entries : List String) : String :=
  if entries.isEmpty then "\x7b\x7d"
  else
    match layout with
    | .line => "\x7b " ++ ", ".intercalate entries ++ " \x7d"
    | .lines depth =>
      "\x7b\n" ++ "\n".intercalate (entries.map (Json.indent (depth + 1) ++ ·)) ++ "\n" ++
        Json.indent depth ++ "\x7d"

/-- The mark that drops blanks, if it is set. -/
def tildeText (trim : Bool) : String := if trim then "~" else ""

/-- The variables of a `for` and the word before its source. -/
def namesText (names : List String) : String := "for " ++ ", ".intercalate names ++ " in "

mutual

/-- The text of an expression. -/
def Expr.textIn (layout : Layout) : Expr → String
  | .null => "null"
  | .bool b => toString b
  | .number n => n.text
  | .string s => quoted s
  | .array items => arrayText layout (itemTexts layout.inner items)
  | .object entries => objectText layout (entryTexts layout.inner entries)
  | .template parts => "\"" ++ partTexts layout parts ++ "\""
  | .heredoc indented marker parts =>
    let text := partTexts layout parts
    (if indented then "<<-" else "<<") ++ marker ++ "\n" ++ text ++
      (if Text.endsWith "\n" text then "" else "\n") ++ marker
  | .variable name => name
  | .parens inner => "(" ++ inner.textIn layout ++ ")"
  | .access base steps => base.textIn layout ++ stepTexts layout steps
  | .call function args expanded =>
    "::".intercalate function ++ "(" ++ ", ".intercalate (itemTexts .line args) ++
      (if expanded then "..." else "") ++ ")"
  | .forList names source result condition =>
    "[" ++ namesText names ++ source.textIn layout ++ " : " ++ result.textIn layout ++
      conditionText layout condition ++ "]"
  | .forObject names source key result grouped condition =>
    "\x7b" ++ namesText names ++ source.textIn layout ++ " : " ++ key.textIn layout ++ " => " ++
      result.textIn layout ++ (if grouped then "..." else "") ++
      conditionText layout condition ++ "\x7d"
  | .conditional condition yes no =>
    condition.textIn layout ++ " ? " ++ yes.textIn layout ++ " : " ++ no.textIn layout
  | .unary operator operand => operator ++ operand.textIn layout
  | .chain first rest => first.textIn layout ++ chainTexts layout rest

/-- The texts of the items of an array. -/
def itemTexts (layout : Layout) : List Expr → List String
  | [] => []
  | e :: rest => e.textIn layout :: itemTexts layout rest

/-- The texts of the entries of an object. -/
def entryTexts (layout : Layout) : List (Key × Expr) → List String
  | [] => []
  | (k, e) :: rest => (k.textIn layout ++ " = " ++ e.textIn layout) :: entryTexts layout rest

/-- The text of a key. -/
def Key.textIn (layout : Layout) : Key → String
  | .name s => s
  | .expr e => e.textIn layout

/-- The text of steps into a value. -/
def stepTexts (layout : Layout) : List Access → String
  | [] => ""
  | .attribute name :: rest => "." ++ name ++ stepTexts layout rest
  | .index e :: rest => "[" ++ e.textIn layout ++ "]" ++ stepTexts layout rest
  | .position n :: rest => "." ++ toString n ++ stepTexts layout rest
  | .each :: rest => ".*" ++ stepTexts layout rest
  | .all :: rest => "[*]" ++ stepTexts layout rest

/-- The text of the condition of a `for`. -/
def conditionText (layout : Layout) : Option Expr → String
  | none => ""
  | some e => " if " ++ e.textIn layout

/-- The text of operators and operands. -/
def chainTexts (layout : Layout) : List (String × Expr) → String
  | [] => ""
  | (op, e) :: rest => " " ++ op ++ " " ++ e.textIn layout ++ chainTexts layout rest

/-- The text of the parts of a template. -/
def partTexts (layout : Layout) : List Part → String
  | [] => ""
  | .text s :: rest => String.ofList (doubled s.toList) ++ partTexts layout rest
  | .value trimStart e trimEnd :: rest =>
    "$\x7b" ++ tildeText trimStart ++ e.textIn layout ++ tildeText trimEnd ++ "\x7d" ++
      partTexts layout rest
  | .ifStart trimStart e trimEnd :: rest =>
    "%\x7b" ++ tildeText trimStart ++ " if " ++ e.textIn layout ++ " " ++ tildeText trimEnd ++
      "\x7d" ++ partTexts layout rest
  | .forStart trimStart names e trimEnd :: rest =>
    "%\x7b" ++ tildeText trimStart ++ " " ++ namesText names ++ e.textIn layout ++ " " ++
      tildeText trimEnd ++ "\x7d" ++ partTexts layout rest
  | .word trimStart word trimEnd :: rest =>
    "%\x7b" ++ tildeText trimStart ++ " " ++ word ++ " " ++ tildeText trimEnd ++ "\x7d" ++
      partTexts layout rest

end

/-- The text of an expression. -/
def Expr.text (e : Expr) : String := e.textIn (.lines 0)

end HpcBlueprint.Hcl
