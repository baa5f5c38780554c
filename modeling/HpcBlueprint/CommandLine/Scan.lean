/-
  Reading the words of a command line under a grammar.

  An option whose value is a word of its own, like the argument, is settled only when the
  next option or argument begins; until then it is `pending`.
-/
import HpcBlueprint.CommandLine.Basic
import HpcBlueprint.Text.Search

namespace HpcBlueprint.CommandLine

/-- A command line as far as it is read. -/
structure Scan where
  given : Given
  /-- What was met last, with its values so far. -/
  pending : Option (Slot × List String)
  /-- Whether the next word is a value unless it looks like an option. -/
  awaits : Bool
  /-- Whether all further words are arguments. -/
  trailing : Bool
  /-- Whether the argument was met. -/
  filled : Bool

namespace Scan

/-- Nothing has been read. -/
def start : Scan := ⟨[], none, false, false, false⟩

/-! ## Settling -/

/-- The values that a slot gets. -/
def valuesOf (slot : Slot) (raw : List String) : Except Stop (List String) :=
  match slot.action with
  | .value kind => if raw.isEmpty || !raw.all kind.accepts then .error .invalidValue else .ok raw
  | .values commas =>
    if raw.isEmpty then .error .invalidValue
    else .ok (if commas then raw.flatMap (Text.splitAll ',') else raw)
  | _ => .ok []

/-- Gives a slot its values. -/
def store (g : Given) (slot : Slot) (raw : List String) : Except Stop Given :=
  if slot.action.takesValue && raw.isEmpty then .error .invalidValue
  else if slot.action.isSingle && g.has slot.name then .error .conflict
  else (valuesOf slot raw).map (g.add slot.name)

/-- Settles what is pending. -/
def settle (s : Scan) : Except Stop Scan :=
  match s.pending with
  | none => .ok s
  | some (slot, raw) => (store s.given slot raw).map fun given => { s with given, pending := none }

/-- Takes an option with the values that stand at it. -/
def take (g : Grammar) (s : Scan) (slot : Slot) (raw : List String) : Except Stop Scan := do
  let s ← s.settle
  match slot.action with
  | .help => .error .help
  | .version => .error (.version g.name)
  | _ => return { s with given := ← store s.given slot raw, awaits := false }

/-- Takes an option whose value is the next word. -/
def await (s : Scan) (slot : Slot) : Except Stop Scan := do
  let s ← s.settle
  return { s with pending := some (slot, []), awaits := true }

/-! ## Words -/

/-- Takes a long option, without its hyphens. -/
def long (g : Grammar) (s : Scan) (word : String) : Except Stop Scan :=
  let (name, value) := match Text.splitOnce '=' word with
    | some (name, value) => (name, some value)
    | none => (word, none)
  match g.long? name with
  | none => .error .unknownArgument
  | some slot =>
    match value with
    | some v => if slot.action.takesValue then take g s slot [v] else .error .needlessValue
    | none => if slot.action.takesValue then s.await slot else take g s slot []

/-- Takes short options in one word; what follows one that takes a value is its value. -/
def shorts (g : Grammar) (s : Scan) : List Char → Except Stop Scan
  | [] => .ok s
  | c :: rest =>
    match g.short? c with
    | none => .error .unknownArgument
    | some slot =>
      if slot.action.takesValue then
        match rest with
        | [] => s.await slot
        | '=' :: value => take g s slot [String.ofList value]
        | value => take g s slot [String.ofList value]
      else (take g s slot []).bind fun s => shorts g s rest

/-- Takes the argument of the command. -/
def argument (g : Grammar) (s : Scan) (word : String) : Except Stop Scan :=
  match g.argument with
  | some slot =>
    if s.filled then .error .unknownArgument
    else do
      let s ← s.settle
      return { s with pending := some (slot, [word]), filled := true }
  | none =>
    if g.commands.isEmpty || (s.trailing && g.commands.contains word) then .error .unknownArgument
    else .error .unknownCommand

/-- Takes a word. -/
def word (g : Grammar) (s : Scan) (w : String) : Except Stop Scan :=
  if s.trailing then argument g s w
  else
    match w.toList with
    | ['-', '-'] => .ok { s with trailing := true }
    | '-' :: '-' :: rest => long g s (String.ofList rest)
    | '-' :: c :: rest => shorts g s (c :: rest)
    | _ =>
      if s.awaits then
        .ok { s with
          pending := s.pending.map fun (slot, raw) => (slot, raw ++ [w])
          awaits := false }
      else argument g s w

/-- Takes words up to the first that names a command, if one does. -/
def words (g : Grammar) (s : Scan) :
    List String → Except Stop (Scan × Option (String × List String))
  | [] => .ok (s, none)
  | w :: rest =>
    if !s.trailing && !s.awaits && g.commands.contains w then .ok (s, some (w, rest))
    else (word g s w).bind fun s => words g s rest

end Scan

end HpcBlueprint.CommandLine
