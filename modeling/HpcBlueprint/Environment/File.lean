/-
  Files of environment variables.

  A line sets a variable, `name=value` with an optional `export` in front. Values may be
  quoted, weakly or strongly, and `$name` stands for a variable outside strong quotes. A
  variable that is set already keeps its value.
-/
import HpcBlueprint.Environment.Basic
import HpcBlueprint.Environment.Lines
import HpcBlueprint.Error
import HpcBlueprint.Files.Tree
import HpcBlueprint.Text.Alphanumeric

namespace HpcBlueprint.Environment

/-! ## Values -/

/-- How the next character of a value is read. -/
inductive Mode
  | plain
  | strong
  | escape
  /-- In the name of a variable. -/
  | name
  /-- In the name of a variable in braces. -/
  | braced
  /-- Behind the value. -/
  | ended
deriving DecidableEq

/-- A value as far as it is read. -/
structure Draft where
  mode : Mode
  /-- Whether a weak quote is open. -/
  weak : Bool
  /-- The name of a variable, last character first. -/
  name : List Char
  /-- The value, last character first. -/
  value : List Char

namespace Draft

/-- The draft of a value of which nothing is read. -/
def empty : Draft := ⟨.plain, false, [], []⟩

/-- Adds a character to the value. -/
def push (d : Draft) (c : Char) : Draft := { d with mode := .plain, value := c :: d.value }

/-- Replaces the name that was read by the value of the variable. -/
def substitute (d : Draft) (lookup : String → String) : Draft :=
  let text := lookup (String.ofList d.name.reverse)
  { d with mode := .plain, name := [], value := text.toList.reverse ++ d.value }

/-- Reads a character outside names, escapes and strong quotes. -/
def plain (d : Draft) (c : Char) : Draft :=
  if c == '$' then { d with mode := .name }
  else if c == '\\' then { d with mode := .escape }
  else if d.weak then if c == '"' then { d with weak := false } else d.push c
  else if c == '\'' then { d with mode := .strong }
  else if c == '"' then { d with weak := true }
  else if c == ' ' || c == '\t' then { d with mode := .ended }
  else d.push c

/-- Reads an escaped character. -/
def escaped (d : Draft) (c : Char) : Option Draft :=
  if c == 'n' then some (d.push '\n')
  else if c == '\\' || c == '\'' || c == '"' || c == '$' || c == ' ' then some (d.push c)
  else none

/-- Reads a character behind the start of a variable. -/
def named (d : Draft) (lookup : String → String) (c : Char) : Draft :=
  if Text.isAlphanumeric c then { d with name := c :: d.name }
  else if c == '\x7b' && d.name.isEmpty then { d with mode := .braced }
  else if c == '$' then { d.substitute lookup with mode := .name }
  else (d.substitute lookup).push c

/-- Reads what is left of a value. -/
def readAll (lookup : String → String) (d : Draft) : List Char → Option Draft
  | [] => some d
  | c :: rest =>
    match d.mode with
    | .ended =>
      if c == ' ' || c == '\t' then readAll lookup d rest
      else if c == '#' then some d
      else none
    | .escape => (d.escaped c).bind fun d => readAll lookup d rest
    | .strong =>
      readAll lookup
        (if c == '\'' then { d with mode := .plain } else { d with value := c :: d.value }) rest
    | .name => readAll lookup (d.named lookup c) rest
    | .braced =>
      readAll lookup
        (if c == '\x7d' then d.substitute lookup else { d with name := c :: d.name }) rest
    | .plain => readAll lookup (d.plain c) rest

/-- The value that was read, unless a quote or brace is open. -/
def finish (d : Draft) (lookup : String → String) : Option String :=
  if d.weak || d.mode == .strong || d.mode == .braced then none
  else some (String.ofList (d.substitute lookup).value.reverse)

end Draft

/-- The value that a text writes. -/
def readVariable (lookup : String → String) (cs : List Char) : Option String :=
  (Draft.readAll lookup .empty cs).bind (·.finish lookup)

/-! ## Lines -/

/-- Whether a name may begin with a character. -/
def isNameStart (c : Char) : Bool := c.isAlpha || c == '_'

/-- Whether a name may go on with a character. -/
def isNamePart (c : Char) : Bool := c.isAlphanum || c == '_' || c == '.'

/-- A name and what follows it and white space. -/
def readName (cs : List Char) : Option (String × List Char) :=
  if cs.head?.any isNameStart then
    some (String.ofList (cs.takeWhile isNamePart), (cs.dropWhile isNamePart).dropWhile Text.isBlank)
  else none

/-- What follows an equals sign. -/
def afterEquals : List Char → Option (List Char)
  | '=' :: rest => some rest
  | _ => none

/-- The name that a line sets, and what follows the equals sign. -/
def readTarget (cs : List Char) : Option (String × List Char) := do
  let (name, rest) ← readName cs
  match afterEquals rest with
  | some rest => some (name, rest)
  | none =>
    if name == "export" then do
      let (name, rest) ← readName rest
      let rest ← afterEquals rest
      some (name, rest)
    else none

/-- Whether a line holds nothing but a comment. -/
def isVoid (cs : List Char) : Bool := cs.isEmpty || cs.head? == some '#'

/-- The variable that a line sets: nothing if the line is void. -/
def readLine (lookup : String → String) (line : List Char) : Option (Option (String × String)) :=
  let trimmed := ((line.reverse.dropWhile Text.isBlank).reverse).dropWhile Text.isBlank
  if isVoid trimmed then some none
  else do
    let (name, rest) ← readTarget trimmed
    let rest := rest.dropWhile Text.isBlank
    if isVoid rest then some (some (name, ""))
    else do
      let value ← readVariable lookup rest
      some (some (name, value))

/-- What a name stands for: a variable of the environment, or one set by an earlier line. -/
def meaning (env : Environment) (set : OrderedMap String) (name : String) : String :=
  ((env.get? name).orElse fun _ => set.get? name).getD ""

/-- Takes over lines up to the first that is malformed; says whether there was none. -/
def loadLines (env : Environment) (set : OrderedMap String) :
    List (Option (List Char)) → Bool × Environment
  | [] => (true, env)
  | none :: _ => (false, env)
  | some line :: rest =>
    match readLine (meaning env set) line with
    | none => (false, env)
    | some none => loadLines env set rest
    | some (some (name, value)) =>
      loadLines (env.provide [(name, value)]) (set.insert name value) rest

/-- The name of a file of environment variables. -/
def fileName : String := ".env"

/-- Loads the variables beside a blueprint, if there is a file of them. -/
def load (env : Environment) (fs : FileSystem) (blueprint : String) :
    Except ConfigError Unit × Environment :=
  let path := Path.join (Path.directory blueprint) fileName
  if fs.contains path then
    match fs.read path with
    | .error e => (.error (.decode (.environmentUnreadable path e)), env)
    | .ok text =>
      let (complete, env) := loadLines env [] (logicalLines (
        if text.toList.head? == some '\ufeff' then String.ofList (text.toList.drop 1) else text))
      (if complete then .ok () else .error (.decode (.environment path)), env)
  else (.ok (), env)

end HpcBlueprint.Environment
