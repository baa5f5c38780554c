/-
  Replacing references by what they stand for.

  `resolve` puts the values of variables into a value and checks the references to module
  outputs, which stay as they are. The references of a value are also listed on their own
  (`Value.references`), which is where the facts about usage come from.
-/
import HpcBlueprint.Error

namespace HpcBlueprint

/-! ## References of a value -/

/-- The references of a text in order; a text that is no expression has none. -/
def Expression.references (text : String) : List Reference :=
  match Expression.parse text with
  | .ok (.whole r) => [r]
  | .ok (.template segments) => segments.filterMap fun
    | .ref r => some r
    | .text _ => none
  | _ => []

namespace Value

mutual

/-- The texts nested in a value, in order. -/
def texts : Value → List String
  | .string s => [s]
  | .list items => textsOfItems items
  | .map entries => textsOfEntries entries
  | _ => []

/-- The texts nested in the items of a list. -/
def textsOfItems : List Value → List String
  | [] => []
  | v :: rest => v.texts ++ textsOfItems rest

/-- The texts nested in the values of a map. -/
def textsOfEntries : List (String × Value) → List String
  | [] => []
  | (_, v) :: rest => v.texts ++ textsOfEntries rest

end

/-- The references nested in a value, in order. -/
def references (v : Value) : List Reference := v.texts.flatMap Expression.references

end Value

/-- The references nested in the values of a map, in order. -/
def OrderedMap.references (m : OrderedMap Value) : List Reference :=
  m.flatMap fun (_, v) => v.references

/-- The name of a variable reference. -/
def Reference.var? : Reference → Option String
  | .var name => some name
  | .output .. => none

/-- The module of an output reference. -/
def Reference.module? : Reference → Option String
  | .var _ => none
  | .output module _ => some module

namespace Expand

/-! ## Where a value stands -/

/-- Where a value stands, which decides what it may refer to. -/
inductive Position
  /-- In a variable: only earlier variables. -/
  | inVariable
  /-- In a setting of a module: variables, and outputs of modules up to its own group. -/
  | inModule (id : String) (group : Nat)
  /-- Anywhere else: variables. -/
  | elsewhere
deriving DecidableEq

/-- What references are resolved against. -/
structure Scope where
  vars : OrderedMap Value
  position : Position
  /-- The blueprint whose modules may be referred to. -/
  blueprint : Blueprint

/-- The value of a variable. -/
def Scope.lookup (s : Scope) (path name : String) : Except ConfigError Value :=
  match s.vars.get? name with
  | some v => .ok v
  | none =>
    let reason := if s.position = .inVariable then Unresolved.notYetDefined else .notDefined
    .error (.unresolved (Reference.var name).text reason path)

/-- Checks a reference to an output of a module. -/
def Scope.checkOutput (s : Scope) (path module name : String) : Except ConfigError Unit :=
  let r := Reference.output module name
  match s.position with
  | .inModule own group =>
    match s.blueprint.module? module with
    | none => .error (.unresolved r.text (.noModule module) path)
    | some (targetGroup, target) =>
      if module == own then .error (.cycle [own, own])
      else if group < targetGroup then
        .error (.forwardReference own module
          ((s.blueprint.groups[targetGroup]?.map (·.name)).getD "") path)
      else if target.kind == .packer then
        .error (.invalidReference (.packerOutput module) path)
      else
        match target.schema with
        | none => .ok ()
        | some schema =>
          if schema.hasOutput name then .ok ()
          else .error (.unresolved r.text (.noOutput module name) path)
  | _ => .error (.invalidReference (.outputOutsideModule r) path)

/-! ## Resolving -/

/-- The text of the segments of a template. -/
def Scope.fill (s : Scope) (path : String) : List Segment → Except ConfigError String
  | [] => .ok ""
  | .text t :: rest => do return t ++ (← s.fill path rest)
  | .ref (.var name) :: rest => do
    let v ← s.lookup path name
    match v.scalarText with
    | some t => return t ++ (← s.fill path rest)
    | none => .error (.invalidReference (.notText name v.typeName) path)
  | .ref r :: _ => .error (.invalidReference (.outputInText r) path)

/-- The value that a text stands for. -/
def Scope.resolveText (s : Scope) (path text : String) : Except ConfigError Value :=
  match Expression.parse text with
  | .error e => .error (.invalidReference (.malformed e) path)
  | .ok .literal => .ok (.string text)
  | .ok (.whole (.var name)) => s.lookup path name
  | .ok (.whole (.output module name)) =>
    (s.checkOutput path module name).map fun _ => .string text
  | .ok (.template segments) => (s.fill path segments).map .string

mutual

/-- The value with every reference resolved; the first text that cannot be decides. -/
def Scope.resolve (s : Scope) (path : String) : Value → Except ConfigError Value
  | .string text => s.resolveText path text
  | .list items => (s.resolveItems path 0 items).map .list
  | .map entries => (s.resolveEntries path entries).map .map
  | .null => .ok .null
  | .bool b => .ok (.bool b)
  | .number n => .ok (.number n)

/-- Resolves the items of a list, in order. -/
def Scope.resolveItems (s : Scope) (path : String) :
    Nat → List Value → Except ConfigError (List Value)
  | _, [] => .ok []
  | i, v :: rest =>
    (s.resolve (path ++ "[" ++ toString i ++ "]") v).bind fun w =>
      (s.resolveItems path (i + 1) rest).map fun ws => w :: ws

/-- Resolves the values of a map, in order. -/
def Scope.resolveEntries (s : Scope) (path : String) :
    List (String × Value) → Except ConfigError (List (String × Value))
  | [] => .ok []
  | (key, v) :: rest =>
    (s.resolve (path ++ "." ++ key) v).bind fun w =>
      (s.resolveEntries path rest).map fun ws => (key, w) :: ws

end

end Expand

end HpcBlueprint
