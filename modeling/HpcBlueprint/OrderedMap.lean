/-
  Maps from names that keep the order in which the names were first set, and sorted sets
  of names.

  An `OrderedMap` is its list of entries. `insert` appends a new name and replaces the
  value of a known one in place, so a map built by `insert` holds each name once
  (`OrderedMap.Distinct`). A `NameSet` is strictly increasing by code points.
-/

namespace HpcBlueprint

/-- A map from names, in the order in which the names were first set. -/
abbrev OrderedMap (α : Type) := List (String × α)

namespace OrderedMap

variable {α β ε : Type}

/-- The names of a map in order. -/
def keys (m : OrderedMap α) : List String := m.map (·.1)

/-- Every name occurs once. -/
def Distinct (m : OrderedMap α) : Prop := m.keys.Nodup

/-- The value of a name. -/
def get? (m : OrderedMap α) (name : String) : Option α := m.lookup name

/-- Whether a name is set. -/
def contains (m : OrderedMap α) (name : String) : Bool := (m.get? name).isSome

/-- Sets a name: a new one goes to the end, a known one keeps its place. -/
def insert : OrderedMap α → String → α → OrderedMap α
  | [], name, a => [(name, a)]
  | (k, b) :: rest, name, a => if k == name then (k, a) :: rest else (k, b) :: insert rest name a

/-- Sets names one after the other. -/
def insertAll (m : OrderedMap α) (entries : List (String × α)) : OrderedMap α :=
  entries.foldl (fun m (name, a) => m.insert name a) m

/-- The map that arises by setting names one after the other. -/
def ofList (entries : List (String × α)) : OrderedMap α := insertAll [] entries

/-- Changes every value in order; the first failure decides. -/
def mapM (f : String → α → Except ε β) : OrderedMap α → Except ε (OrderedMap β)
  | [] => .ok []
  | (name, a) :: rest => do
    let b ← f name a
    return (name, b) :: (← mapM f rest)

end OrderedMap

/-! ## Sets of names -/

/-- A set of names, smallest first. -/
abbrev NameSet := List String

namespace NameSet

/-- Adds a name. -/
def insert : NameSet → String → NameSet
  | [], name => [name]
  | x :: rest, name =>
    if name < x then name :: x :: rest
    else if x == name then x :: rest
    else x :: insert rest name

/-- The set of the names in a list. -/
def ofList (names : List String) : NameSet := names.foldl insert []

/-- Adds all names of a list. -/
def union (s : NameSet) (names : List String) : NameSet := names.foldl insert s

end NameSet

end HpcBlueprint
