/-
  What a command line may say.

  A command knows options and perhaps one argument of its own. An option either stands
  alone or takes a value, and some of those that take one may be repeated.
-/

namespace HpcBlueprint.CommandLine

/-! ## Options -/

/-- What a value has to be. -/
inductive ValueKind
  | text
  /-- Not empty. -/
  | path
  /-- One of several words. -/
  | choice (words : List String)

/-- Whether a text is a value of some kind. -/
def ValueKind.accepts : ValueKind → String → Bool
  | .text, _ => true
  | .path, s => !s.isEmpty
  | .choice words, s => words.contains s

/-- What an option means. -/
inductive Action
  /-- It stands alone, at most once. -/
  | flag
  /-- It takes a value, at most once. -/
  | value (kind : ValueKind)
  /-- It takes a value and may be repeated; commas may separate further values. -/
  | values (commas : Bool)
  | help
  | version

/-- Whether an option takes a value. -/
def Action.takesValue : Action → Bool
  | .value _ | .values _ => true
  | _ => false

/-- Whether an option may occur once only. -/
def Action.isSingle : Action → Bool
  | .flag | .value _ => true
  | _ => false

/-- An option, or the argument of a command. -/
structure Slot where
  name : String
  short : Option Char
  action : Action

/-- What a command understands. -/
structure Grammar where
  /-- The name of the command in full. -/
  name : String
  options : List Slot
  /-- The argument that has to be given. -/
  argument : Option Slot
  /-- The commands that may follow. -/
  commands : List String

namespace Grammar

/-- The option with a long name. -/
def long? (g : Grammar) (name : String) : Option Slot := g.options.find? (·.name == name)

/-- The option with a short name. -/
def short? (g : Grammar) (c : Char) : Option Slot := g.options.find? (·.short == some c)

end Grammar

/-! ## Failures -/

/-- Why a command line says nothing that can be run. -/
inductive Stop
  | missingArgument
  | missingCommand
  /-- Nothing at all was said. -/
  | nothing
  | unknownArgument
  | unknownCommand
  | invalidValue
  /-- An option that may occur once occurs again. -/
  | conflict
  /-- A value stands at an option that takes none. -/
  | needlessValue
  /-- Help was asked for. -/
  | help
  /-- The version of a command was asked for. -/
  | version (command : String)
deriving DecidableEq

/-! ## Values -/

/-- The values that options and the argument have been given, in order. -/
abbrev Given := List (String × List String)

namespace Given

/-- The values of a slot. -/
def values (g : Given) (name : String) : List String := (g.lookup name).getD []

/-- The last value of a slot. -/
def last? (g : Given) (name : String) : Option String := (g.values name).getLast?

/-- Whether a slot occurs. -/
def has (g : Given) (name : String) : Bool := (g.lookup name).isSome

/-- Adds values to a slot. -/
def add (g : Given) (name : String) (values : List String) : Given :=
  (name, g.values name ++ values) :: g.filter (·.1 != name)

end Given

end HpcBlueprint.CommandLine
