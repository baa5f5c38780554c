/-
  References inside texts.

  `$(vars.name)` stands for a variable and `$(module.output)` for an output of a module;
  a backslash in front of `$(` takes its meaning away. `scan` cuts a text into segments,
  and `parse` says whether the text is a literal, one whole reference or a template.
-/

namespace HpcBlueprint

/-- What a text may refer to. -/
inductive Reference
  | var (name : String)
  | output (module name : String)
deriving DecidableEq, Inhabited

/-- The module name that stands for the variables of the blueprint. -/
def varsNamespace : String := "vars"

/-- A reference as it is written. -/
def Reference.text : Reference → String
  | .var name => "$(" ++ varsNamespace ++ "." ++ name ++ ")"
  | .output module name => "$(" ++ module ++ "." ++ name ++ ")"

/-- A piece of a text. -/
inductive Segment
  /-- Plain text; an escaped opening keeps its backslash. -/
  | text (s : String)
  | ref (r : Reference)
deriving DecidableEq, Inhabited

/-- A segment as it is written. -/
def Segment.source : Segment → String
  | .text s => s
  | .ref r => r.text

/-- What a text is. -/
inductive Expression
  | literal
  | whole (r : Reference)
  | template (segments : List Segment)
deriving DecidableEq, Inhabited

/-- Why a text is no expression. -/
inductive ReferenceError
  /-- The text ends before a reference does. -/
  | unterminated (text : String)
  /-- There is no dot in a reference. -/
  | noDot (inner : String)
  /-- One of the two names is empty or holds another character. -/
  | badName (inner : String)
deriving DecidableEq

/-- The wording of a reference error. -/
def ReferenceError.message : ReferenceError → String
  | .unterminated text => "unterminated reference in '" ++ text ++ "'"
  | .noDot inner =>
    "reference '$(" ++ inner ++ ")' must have the form $(vars.name) or $(module_id.output)"
  | .badName inner => "reference '$(" ++ inner ++ ")' contains an invalid name"

namespace Reference

/-- The characters of names: ASCII letters and digits, underscore and hyphen. -/
def isNameChar (c : Char) : Bool := c.isAlphanum || c == '_' || c == '-'

/-- A name is not empty and holds name characters only. -/
def isName (cs : List Char) : Bool := !cs.isEmpty && cs.all isNameChar

/-- The reference between the parentheses. -/
def ofInner (inner : List Char) : Except ReferenceError Reference :=
  let head := inner.takeWhile (· != '.')
  match inner.dropWhile (· != '.') with
  | [] => .error (.noDot (String.ofList inner))
  | _ :: tail =>
    if isName head && isName tail then
      if String.ofList head == varsNamespace then .ok (.var (String.ofList tail))
      else .ok (.output (String.ofList head) (String.ofList tail))
    else .error (.badName (String.ofList inner))

end Reference

namespace Expression

/-- A text segment, unless it is empty. -/
def textSegment (reversed : List Char) : List Segment :=
  if reversed.isEmpty then [] else [.text (String.ofList reversed.reverse)]

/-- The segments of what is left of a text. `escaped` says that a backslash stands right
    before it, and `pending` holds the characters of the segment begun before it, last first. -/
def scanFrom (text : String) (escaped : Bool) (pending : List Char) (rest : List Char) :
    Except ReferenceError (List Segment) :=
  match rest with
  | [] => .ok (textSegment pending)
  | '$' :: '(' :: after =>
    if escaped then scanFrom text false ('(' :: '$' :: pending) after
    else
      match _h : after.dropWhile (· != ')') with
      | [] => .error (.unterminated text)
      | _ :: later => do
        let r ← Reference.ofInner (after.takeWhile (· != ')'))
        let segments ← scanFrom text false [] later
        return textSegment pending ++ .ref r :: segments
  | c :: after => scanFrom text (c == '\\') (c :: pending) after
termination_by rest.length
decreasing_by
  · simp only [List.length_cons]; omega
  · have := List.dropWhile_sublist (· != ')') (l := after) |>.length_le
    simp only [_h, List.length_cons] at this ⊢
    omega
  · simp only [List.length_cons]; omega

/-- The segments of a text. -/
def scan (text : String) : Except ReferenceError (List Segment) :=
  scanFrom text false [] text.toList

/-- Whether a segment is a reference. -/
def isRef : Segment → Bool
  | .ref _ => true
  | .text _ => false

/-- What a text is. -/
def parse (text : String) : Except ReferenceError Expression := do
  let segments ← scan text
  if segments.any isRef then
    match segments with
    | [.ref r] => return .whole r
    | _ => return .template segments
  else return .literal

end Expression

end HpcBlueprint
