/-
  Object stores.

  A store keeps objects in buckets under keys. The keys with a given beginning are listed
  in order, a page at a time.
-/
import HpcBlueprint.Files.Tree

namespace HpcBlueprint

/-- Objects in buckets. -/
structure ObjectStore where
  /-- Whether the store answers at all. -/
  isReachable : Bool
  /-- The objects of every bucket by their keys, in order. -/
  buckets : List (String × List (String × Content))
  /-- How many keys a page lists at most. -/
  pageSize : Nat
  /-- Keys of objects that are listed but cannot be got. -/
  locked : List String
  pageSize_pos : 0 < pageSize

namespace ObjectStore

/-- Why a request fails. -/
inductive Failure
  | unreachable
  | refused
deriving DecidableEq

/-- The wording of a failure. -/
def Failure.message : Failure → String
  | .unreachable => "dispatch failure"
  | .refused => "service error"

/-- What a store is asked for. -/
inductive Request
  /-- The keys with a beginning, from a number on. -/
  | list (bucket start : String) (number : Nat)
  | get (bucket key : String)
deriving DecidableEq

/-- A store that does not answer. -/
def unreachable : ObjectStore := ⟨false, [], 1000, [], by decide⟩

/-- The keys in a bucket that begin in some way, in order. -/
def keys (s : ObjectStore) (bucket start : String) : Except Failure (List String) :=
  if s.isReachable then
    match s.buckets.lookup bucket with
    | some objects => .ok ((objects.map (·.1)).filter (Text.startsWith start))
    | none => .error .refused
  else .error .unreachable

/-- The content of an object. -/
def get (s : ObjectStore) (bucket key : String) : Except Failure Content :=
  if s.isReachable then
    match (s.buckets.lookup bucket).bind (·.lookup key) with
    | some content => if s.locked.contains key then .error .refused else .ok content
    | none => .error .refused
  else .error .unreachable

end ObjectStore

end HpcBlueprint
