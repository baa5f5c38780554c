/-
  The values of variables, settings and inputs.

  A `Value` is a scalar, a list or a map whose keys are texts in the order in which they
  were first written.
-/
import HpcBlueprint.Number
import HpcBlueprint.OrderedMap

namespace HpcBlueprint

/-- A value of any type. -/
inductive Value
  | null
  | bool (b : Bool)
  | number (n : Number)
  | string (s : String)
  | list (items : List Value)
  | map (entries : List (String × Value))
deriving Inhabited

namespace Value

/-! ## Equality -/

mutual

/-- Decides equality of values. -/
def decEq : (a b : Value) → Decidable (a = b)
  | .null, .null => .isTrue rfl
  | .bool a, .bool b => if h : a = b then .isTrue (h ▸ rfl) else .isFalse (by simp [h])
  | .number a, .number b => if h : a = b then .isTrue (h ▸ rfl) else .isFalse (by simp [h])
  | .string a, .string b => if h : a = b then .isTrue (h ▸ rfl) else .isFalse (by simp [h])
  | .list xs, .list ys =>
    match decEqItems xs ys with
    | .isTrue h => .isTrue (h ▸ rfl)
    | .isFalse h => .isFalse (by simp [h])
  | .map es, .map fs =>
    match decEqEntries es fs with
    | .isTrue h => .isTrue (h ▸ rfl)
    | .isFalse h => .isFalse (by simpa using h)
  | .null, .bool _ | .null, .number _ | .null, .string _ | .null, .list _ | .null, .map _
  | .bool _, .null | .bool _, .number _ | .bool _, .string _ | .bool _, .list _ | .bool _, .map _
  | .number _, .null | .number _, .bool _ | .number _, .string _ | .number _, .list _
  | .number _, .map _ | .string _, .null | .string _, .bool _ | .string _, .number _
  | .string _, .list _ | .string _, .map _ | .list _, .null | .list _, .bool _
  | .list _, .number _ | .list _, .string _ | .list _, .map _ | .map _, .null | .map _, .bool _
  | .map _, .number _ | .map _, .string _ | .map _, .list _ => .isFalse (by simp)

/-- Decides equality of the items of lists. -/
def decEqItems : (xs ys : List Value) → Decidable (xs = ys)
  | [], [] => .isTrue rfl
  | [], _ :: _ | _ :: _, [] => .isFalse (by simp)
  | x :: xs, y :: ys =>
    match decEq x y, decEqItems xs ys with
    | .isTrue h, .isTrue t => .isTrue (h ▸ t ▸ rfl)
    | .isFalse h, _ => .isFalse (by simp [h])
    | _, .isFalse t => .isFalse (by simp [t])

/-- Decides equality of the entries of maps. -/
def decEqEntries : (es fs : List (String × Value)) → Decidable (es = fs)
  | [], [] => .isTrue rfl
  | [], _ :: _ | _ :: _, [] => .isFalse (by simp)
  | (j, x) :: es, (k, y) :: fs =>
    match decEq x y, decEqEntries es fs with
    | .isTrue h, .isTrue t =>
      if k' : j = k then .isTrue (h ▸ t ▸ k' ▸ rfl) else .isFalse (by simp [k'])
    | .isFalse h, _ => .isFalse (by simp [h])
    | _, .isFalse t => .isFalse (by simp [t])

end

instance : DecidableEq Value := decEq

/-! ## Views -/

/-- The content of a text. -/
def string? : Value → Option String
  | .string s => some s
  | _ => none

/-- The content of a boolean. -/
def bool? : Value → Option Bool
  | .bool b => some b
  | _ => none

/-- An integer that fits into 64 bits with a sign. -/
def int64? : Value → Option Int
  | .number (.int n) => if -Int.pow 2 63 ≤ n && n < Int.pow 2 63 then some n else none
  | _ => none

/-- The items of a list. -/
def items? : Value → Option (List Value)
  | .list items => some items
  | _ => none

/-- The entries of a map. -/
def entries? : Value → Option (OrderedMap Value)
  | .map entries => some entries
  | _ => none

/-- Whether a value is null. -/
def isNull : Value → Bool
  | .null => true
  | _ => false

/-- A scalar as it appears inside a longer text; null leaves nothing. -/
def scalarText : Value → Option String
  | .null => some ""
  | .bool b => some (toString b)
  | .number n => some n.text
  | .string s => some s
  | .list _ | .map _ => none

/-- The name of a value's type in messages. -/
def typeName : Value → String
  | .null => "null"
  | .bool _ => "bool"
  | .number _ => "number"
  | .string _ => "string"
  | .list _ => "list"
  | .map _ => "map"

end Value

end HpcBlueprint
