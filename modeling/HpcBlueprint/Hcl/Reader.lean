/-
  Reading HCL.

  Every reader takes the characters that are left and gives back what it read and what is
  left then. `lines` says whether line breaks may stand between the parts of an
  expression, as they may inside parentheses and brackets. The bound of a reader limits how
  often it goes on; the length of the text gives one that is never reached.
-/
import HpcBlueprint.Hcl.Basic
import HpcBlueprint.Hcl.Lexical
import HpcBlueprint.Text.Search

namespace HpcBlueprint.Hcl

/-! ## Texts without interpolation -/

/-- What the next characters of a text inside quotes are. -/
inductive TextStep
  | char (c : Char) (rest : List Char)
  | chars (s : List Char) (rest : List Char)
  /-- The start of an interpolation. -/
  | value (rest : List Char)
  /-- The start of a control word. -/
  | control (rest : List Char)
  | quote (rest : List Char)
  | malformed

/-- The next step of a text; in quotes a backslash escapes and a quote ends. -/
def textStep (quoted : Bool) : List Char → TextStep
  | [] => .malformed
  | '$' :: '$' :: '\x7b' :: rest => .chars ['$', '\x7b'] rest
  | '%' :: '%' :: '\x7b' :: rest => .chars ['%', '\x7b'] rest
  | '$' :: '\x7b' :: rest => .value rest
  | '%' :: '\x7b' :: rest => .control rest
  | c :: rest =>
    if quoted && c == '"' then .quote rest
    else if quoted && c == '\\' then
      match escape? rest with
      | some (c, rest) => .char c rest
      | none => .malformed
    else .char c rest

/-- A text without interpolation whose opening quote has been read. -/
def plainText? : Nat → List Char → List Char → Option (String × List Char)
  | 0, _, _ => none
  | bound + 1, kept, cs =>
    match textStep true cs with
    | .char c rest => plainText? bound (c :: kept) rest
    | .chars s rest => plainText? bound (s.reverse ++ kept) rest
    | .quote rest => some (String.ofList kept.reverse, rest)
    | _ => none

/-! ## Texts over several lines -/

/-- The lines up to the one that begins with the marker, joined, and what follows the marker. -/
def heredocLines (marker : List Char) : Nat → List Char → Option (List Char × List Char)
  | 0, _ => none
  | bound + 1, cs =>
    let start := cs.dropWhile fun c => c == ' ' || c == '\t'
    if marker.isPrefixOf start then some ([], start.drop marker.length)
    else
      let line := cs.takeWhile (· != '\n')
      match cs.drop line.length with
      | _ :: rest =>
        (heredocLines marker bound rest).map fun (text, rest) => (line ++ '\n' :: text, rest)
      | [] => none

/-- The lines of a text; what follows the last line break is a line unless it is empty. -/
def linesOf (text : List Char) : List (List Char) :=
  match (Text.pieces '\n' text).reverse with
  | [] :: rest => rest.reverse
  | all => all.reverse

/-- The number of blanks that a line begins with. -/
def indentOf (line : List Char) : Nat := (line.takeWhile fun c => c == ' ' || c == '\t').length

/-- The smallest indent of the lines of a text that are not empty; the first line may be the
    end of another. -/
def smallestIndent (continued : Bool) (text : List Char) : Option Nat :=
  let lines := if continued then (linesOf text).drop 1 else linesOf text
  ((lines.filter (!·.isEmpty)).map indentOf).min?

/-- A text with blanks taken from the start of its lines. -/
def outdent (n : Nat) (continued : Bool) (text : List Char) : List Char :=
  let cut (line : List Char) : List Char := line.drop (min n (indentOf line))
  match Text.pieces '\n' text with
  | [] => []
  | first :: rest =>
    ['\n'].intercalate ((if continued then first else cut first) :: rest.map cut)

/-- The smallest indent of the parts of a template. -/
def partsIndent (continued : Bool) : List Part → Option Nat
  | [] => none
  | .text s :: rest =>
    match smallestIndent continued s.toList, partsIndent true rest with
    | some a, some b => some (min a b)
    | some a, none => some a
    | none, b => b
  | _ :: rest => partsIndent true rest

/-- The parts of a template with blanks taken from the start of their lines. -/
def outdentParts (n : Nat) (continued : Bool) : List Part → List Part
  | [] => []
  | .text s :: rest =>
    .text (String.ofList (outdent n continued s.toList)) :: outdentParts n true rest
  | part :: rest => part :: outdentParts n true rest

/-! ## Operators -/

/-- A binary operator. -/
def operator? : List Char → Option (String × List Char)
  | '=' :: '=' :: rest => some ("==", rest)
  | '!' :: '=' :: rest => some ("!=", rest)
  | '<' :: '=' :: rest => some ("<=", rest)
  | '>' :: '=' :: rest => some (">=", rest)
  | '&' :: '&' :: rest => some ("&&", rest)
  | '|' :: '|' :: rest => some ("||", rest)
  | '/' :: '/' :: _ => none
  | '/' :: '*' :: _ => none
  | c :: rest =>
    if "<>+-*/%".toList.contains c then some (String.ofList [c], rest) else none
  | [] => none

/-- Sets an entry of an object: a key that is known keeps its place. -/
def putEntry (same : Key → Key → Bool) (entries : List (Key × Expr)) (key : Key) (e : Expr) :
    List (Key × Expr) :=
  if entries.any fun (k, _) => same k key then
    entries.map fun (k, old) => if same k key then (k, e) else (k, old)
  else entries ++ [(key, e)]

/-- Whether two keys are written in the same way, as far as that is a name or a scalar. -/
def sameKey : Key → Key → Bool
  | .name a, .name b => a == b
  | .expr (.string a), .expr (.string b) => a == b
  | .expr (.number a), .expr (.number b) => a == b
  | .expr (.bool a), .expr (.bool b) => a == b
  | .expr .null, .expr .null => true
  | _, _ => false

/-- The variables of a `for` and what follows the word `in`. -/
def forNames? (cs : List Char) : Option (List String × List Char) := do
  let (first, rest) ← name? cs
  let rest := skipGap true rest
  let (names, rest) ← match rest with
    | ',' :: rest => do
      let (second, rest) ← name? (skipGap true rest)
      some ([first, second], skipGap true rest)
    | _ => some ([first], rest)
  let rest ← keyword? "in" rest
  some (names, skipGap true rest)

/-- What follows the word `for` and a gap, if names follow it. -/
def forStart? (cs : List Char) : Option (List Char) :=
  match keyword? "for" cs with
  | some rest =>
    let after := skipGap true rest
    if after.head?.any isNameStart then some after else none
  | none => none

/-- Whether a mark that drops blanks is there, and what follows it. -/
def tilde (cs : List Char) : Bool × List Char :=
  match cs with
  | '~' :: rest => (true, rest)
  | _ => (false, cs)

/-- The end of an interpolation or control word. -/
def closing? (cs : List Char) : Option (Bool × List Char) :=
  match tilde (skipGap true cs) with
  | (trim, '\x7d' :: rest) => some (trim, rest)
  | _ => none

/-! ## Control words of templates -/

/-- What is open in a template. -/
inductive Opened
  | ifPart
  | elsePart
  | forPart
deriving DecidableEq

/-- Whether the control words of a template match. -/
def isBalanced (opened : List Opened) : List Part → Bool
  | [] => opened.isEmpty
  | .ifStart .. :: rest => isBalanced (.ifPart :: opened) rest
  | .forStart .. :: rest => isBalanced (.forPart :: opened) rest
  | .word _ word _ :: rest =>
    match opened with
    | .ifPart :: outer =>
      if word == "else" then isBalanced (.elsePart :: outer) rest
      else word == "endif" && isBalanced outer rest
    | .elsePart :: outer => word == "endif" && isBalanced outer rest
    | .forPart :: outer => word == "endfor" && isBalanced outer rest
    | [] => false
  | _ :: rest => isBalanced opened rest

/-! ## Expressions -/

mutual

/-- An expression. -/
def readExpr : Nat → Bool → List Char → Option (Expr × List Char)
  | 0, _, _ => none
  | bound + 1, lines, cs => do
    let (first, rest) ← readOperand bound lines cs
    let (more, rest) ← readChain bound lines rest
    let e := if more.isEmpty then first else .chain first more
    match skipGap lines rest with
    | '?' :: after => do
      let (yes, rest) ← readExpr bound lines (skipGap lines after)
      match skipGap lines rest with
      | ':' :: after => do
        let (no, rest) ← readExpr bound lines (skipGap lines after)
        some (.conditional e yes no, rest)
      | _ => none
    | _ => some (e, rest)

/-- The operators and operands that follow an operand. -/
def readChain : Nat → Bool → List Char → Option (List (String × Expr) × List Char)
  | 0, _, _ => none
  | bound + 1, lines, cs =>
    match operator? (skipGap lines cs) with
    | none => some ([], cs)
    | some (op, after) => do
      let (e, rest) ← readOperand bound lines (skipGap lines after)
      let (more, rest) ← readChain bound lines rest
      some ((op, e) :: more, rest)

/-- A term with the steps into it. -/
def readOperand : Nat → Bool → List Char → Option (Expr × List Char)
  | 0, _, _ => none
  | bound + 1, lines, cs => do
    let (e, rest) ← readTerm bound lines cs
    let (steps, rest) ← readSteps bound lines rest
    some (if steps.isEmpty then e else .access e steps, rest)

/-- The steps into a value. -/
def readSteps : Nat → Bool → List Char → Option (List Access × List Char)
  | 0, _, _ => none
  | bound + 1, lines, cs =>
    match skipGap lines cs with
    | '.' :: '.' :: _ => some ([], cs)
    | '.' :: '*' :: rest =>
      (readSteps bound lines rest).map fun (more, rest) => (.each :: more, rest)
    | '.' :: rest => do
      let (step, rest) ← match name? rest with
        | some (name, rest) => some (Access.attribute name, rest)
        | none =>
          (Json.digits? rest).map fun (d, rest) => (Access.position (Json.digitsValue d), rest)
      let (more, rest) ← readSteps bound lines rest
      some (step :: more, rest)
    | '[' :: rest => do
      let inner := skipGap true rest
      let all := match inner with
        | '*' :: after =>
          match skipGap true after with
          | ']' :: rest => some rest
          | _ => none
        | _ => none
      match all with
      | some rest => do
        let (more, rest) ← readSteps bound lines rest
        some (.all :: more, rest)
      | none => do
        let (e, rest) ← readExpr bound true inner
        match skipGap true rest with
        | ']' :: rest => do
          let (more, rest) ← readSteps bound lines rest
          some (.index e :: more, rest)
        | _ => none
    | _ => some ([], cs)

/-- A term. -/
def readTerm : Nat → Bool → List Char → Option (Expr × List Char)
  | 0, _, _ => none
  | bound + 1, lines, cs =>
    match cs with
    | '"' :: rest =>
      match plainText? (rest.length + 1) [] rest with
      | some (s, rest) => some (.string s, rest)
      | none => do
        let (parts, rest) ← readParts bound true [] rest
        match rest with
        | '"' :: rest => if isBalanced [] parts then some (.template parts, rest) else none
        | _ => none
    | '[' :: rest => readArray bound (skipGap true rest)
    | '\x7b' :: rest => readObject bound (skipGap true rest)
    | '(' :: rest => do
      let (e, rest) ← readExpr bound true (skipGap true rest)
      match skipGap true rest with
      | ')' :: rest => some (.parens e, rest)
      | _ => none
    | '<' :: '<' :: rest => readHeredoc bound rest
    | '!' :: rest => do
      let (e, rest) ← readOperand bound lines (skipGap lines rest)
      some (.unary "!" e, rest)
    | '-' :: rest =>
      match number? (skipGap false rest) with
      | some (n, rest) => some (.number (negated n), rest)
      | none => do
        let (e, rest) ← readOperand bound lines (skipGap lines rest)
        some (.unary "-" e, rest)
    | c :: _ =>
      if c.isDigit then (number? cs).map fun (n, rest) => (.number n, rest)
      else readNamed bound lines cs
    | [] => none

/-- A variable, a word with a meaning of its own, or a call. -/
def readNamed : Nat → Bool → List Char → Option (Expr × List Char)
  | 0, _, _ => none
  | bound + 1, lines, cs => do
    let (name, rest) ← name? cs
    match skipGap lines rest with
    | '(' :: after => readCall bound [name] after
    | ':' :: ':' :: after => readQualified bound [name] after
    | _ =>
      some (
        if name == "null" then .null
        else if name == "true" then .bool true
        else if name == "false" then .bool false
        else .variable name, rest)

/-- The rest of a name with qualifiers, and the call. -/
def readQualified : Nat → List String → List Char → Option (Expr × List Char)
  | 0, _, _ => none
  | bound + 1, names, cs => do
    let (name, rest) ← name? (skipGap false cs)
    match skipGap false rest with
    | ':' :: ':' :: after => readQualified bound (names ++ [name]) after
    | '(' :: after => readCall bound (names ++ [name]) after
    | _ => none

/-- A call whose opening parenthesis has been read. -/
def readCall : Nat → List String → List Char → Option (Expr × List Char)
  | 0, _, _ => none
  | bound + 1, names, cs => do
    let (args, expanded, rest) ← readArgs bound (skipGap true cs)
    some (.call names args expanded, rest)

/-- The arguments of a call up to the closing parenthesis. -/
def readArgs : Nat → List Char → Option (List Expr × Bool × List Char)
  | 0, _ => none
  | bound + 1, cs =>
    match cs with
    | ')' :: rest => some ([], false, rest)
    | _ => do
      let (e, rest) ← readExpr bound true cs
      match skipGap true rest with
      | ',' :: rest => do
        let (args, expanded, rest) ← readArgs bound (skipGap true rest)
        some (e :: args, expanded, rest)
      | ')' :: rest => some ([e], false, rest)
      | '.' :: '.' :: '.' :: rest =>
        match skipGap true rest with
        | ')' :: rest => some ([e], true, rest)
        | _ => none
      | _ => none

/-- An array whose opening bracket and gap have been read. -/
def readArray : Nat → List Char → Option (Expr × List Char)
  | 0, _ => none
  | bound + 1, cs =>
    match forStart? cs with
    | some rest => do
      let (names, rest) ← forNames? rest
      let (source, rest) ← readExpr bound true rest
      match skipGap true rest with
      | ':' :: rest => do
        let (result, rest) ← readExpr bound true (skipGap true rest)
        let (condition, rest) ← readCondition bound (skipGap true rest)
        match skipGap true rest with
        | ']' :: rest => some (.forList names source result condition, rest)
        | _ => none
      | _ => none
    | none => (readItems bound cs).map fun (items, rest) => (.array items, rest)

/-- The condition at the end of a `for`, if there is one. -/
def readCondition : Nat → List Char → Option (Option Expr × List Char)
  | 0, _ => none
  | bound + 1, cs =>
    match keyword? "if" cs with
    | some rest => (readExpr bound true (skipGap true rest)).map fun (e, rest) => (some e, rest)
    | none => some (none, cs)

/-- The items of an array up to the closing bracket. -/
def readItems : Nat → List Char → Option (List Expr × List Char)
  | 0, _ => none
  | bound + 1, cs =>
    match cs with
    | ']' :: rest => some ([], rest)
    | _ => do
      let (e, rest) ← readExpr bound true cs
      match skipGap true rest with
      | ',' :: rest =>
        (readItems bound (skipGap true rest)).map fun (items, rest) => (e :: items, rest)
      | ']' :: rest => some ([e], rest)
      | _ => none

/-- An object whose opening brace and gap have been read. -/
def readObject : Nat → List Char → Option (Expr × List Char)
  | 0, _ => none
  | bound + 1, cs =>
    match forStart? cs with
    | some rest => do
      let (names, rest) ← forNames? rest
      let (source, rest) ← readExpr bound true rest
      match skipGap true rest with
      | ':' :: rest => do
        let (key, rest) ← readExpr bound true (skipGap true rest)
        match skipGap true rest with
        | '=' :: '>' :: rest => do
          let (result, rest) ← readExpr bound true (skipGap true rest)
          let (grouped, rest) := match skipGap true rest with
            | '.' :: '.' :: '.' :: rest => (true, rest)
            | rest => (false, rest)
          let (condition, rest) ← readCondition bound (skipGap true rest)
          match skipGap true rest with
          | '\x7d' :: rest => some (.forObject names source key result grouped condition, rest)
          | _ => none
        | _ => none
      | _ => none
    | none => (readEntries bound [] cs).map fun (entries, rest) => (.object entries, rest)

/-- The entries of an object up to the closing brace. An entry ends with a comma or its line. -/
def readEntries : Nat → List (Key × Expr) → List Char → Option (List (Key × Expr) × List Char)
  | 0, _, _ => none
  | bound + 1, entries, cs =>
    match cs with
    | '\x7d' :: rest => some (entries, rest)
    | _ => do
      let (k, rest) ← readExpr bound false cs
      let key := match k with
        | .variable name => Key.name name
        | e => .expr e
      let rest ← match skipGap false rest with
        | '=' :: rest => some rest
        | ':' :: rest => some rest
        | _ => none
      let (e, rest) ← readExpr bound false (skipGap false rest)
      let entries := putEntry sameKey entries key e
      match skipGap false rest with
      | '\x7d' :: rest => some (entries, rest)
      | ',' :: rest => readEntries bound entries (skipGap true rest)
      | rest =>
        match endOfLine? rest with
        | some after => readEntries bound entries (skipGap true after)
        | none => none

/-- A text over several lines, behind its opening. -/
def readHeredoc : Nat → List Char → Option (Expr × List Char)
  | 0, _ => none
  | bound + 1, cs => do
    let (indented, rest) := match cs with
      | '-' :: rest => (true, rest)
      | _ => (false, cs)
    let (marker, rest) ← name? rest
    let rest ← lineBreak? rest
    let (text, rest) ← heredocLines marker.toList (rest.length + 1) rest
    let (parts, left) ← readParts bound false [] text
    if left.isEmpty && isBalanced [] parts then
      let parts := if indented then
          match partsIndent false parts with
          | some n => outdentParts n false parts
          | none => parts
        else parts
      some (.heredoc indented marker parts, rest)
    else none

/-- The parts of a template up to its closing quote, or to the end of the text outside quotes.
    `kept` holds the text before the next part, last character first. -/
def readParts : Nat → Bool → List Char → List Char → Option (List Part × List Char)
  | 0, _, _, _ => none
  | bound + 1, quoted, kept, cs =>
    let before := if kept.isEmpty then [] else [Part.text (String.ofList kept.reverse)]
    if cs.isEmpty && !quoted then some (before, [])
    else
      match textStep quoted cs with
      | .char c rest => readParts bound quoted (c :: kept) rest
      | .chars s rest => readParts bound quoted (s.reverse ++ kept) rest
      | .quote _ => some (before, cs)
      | .malformed => none
      | .value rest => do
        let (trimStart, rest) := tilde rest
        let (e, rest) ← readExpr bound true (skipGap true rest)
        let (trimEnd, rest) ← closing? rest
        let (parts, rest) ← readParts bound quoted [] rest
        some (before ++ .value trimStart e trimEnd :: parts, rest)
      | .control rest => do
        let (part, rest) ← readControl bound rest
        let (parts, rest) ← readParts bound quoted [] rest
        some (before ++ part :: parts, rest)

/-- A control word of a template, behind its opening. -/
def readControl : Nat → List Char → Option (Part × List Char)
  | 0, _ => none
  | bound + 1, cs => do
    let (trimStart, rest) := tilde cs
    let (word, rest) ← name? (skipGap true rest)
    let rest := skipGap true rest
    if word == "if" then do
      let (e, rest) ← readExpr bound true rest
      let (trimEnd, rest) ← closing? rest
      some (.ifStart trimStart e trimEnd, rest)
    else if word == "for" then do
      let (names, rest) ← forNames? rest
      let (e, rest) ← readExpr bound true rest
      let (trimEnd, rest) ← closing? rest
      some (.forStart trimStart names e trimEnd, rest)
    else if word == "else" || word == "endif" || word == "endfor" then do
      let (trimEnd, rest) ← closing? rest
      some (.word trimStart word trimEnd, rest)
    else none

end

end HpcBlueprint.Hcl
