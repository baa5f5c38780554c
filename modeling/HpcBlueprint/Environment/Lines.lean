/-
  The lines of a file of environment variables.

  A line goes on over a line break inside quotes. A comment begins with `#`, at the start of
  a line or behind white space, and is dropped.
-/
import HpcBlueprint.Text.Blank

namespace HpcBlueprint.Environment

/-- What the next character of a line stands behind. -/
inductive LineState
  | plain
  | blank
  | escape
  | strong
  | strongEscape
  | weak
  | weakEscape
deriving DecidableEq

namespace LineState

/-- The state behind a character that is neither quoted nor escaped. -/
def opened : Char → LineState
  | '\\' => .escape
  | '"' => .weak
  | '\'' => .strong
  | _ => .plain

/-- The state behind a character. -/
def next (s : LineState) (c : Char) : LineState :=
  match s with
  | .blank => opened c
  | .escape => .plain
  | .plain => if Text.isBlank c && c != '\n' && c != '\r' then .blank else opened c
  | .weak => if c == '\\' then .weakEscape else if c == '"' then .plain else .weak
  | .weakEscape => .weak
  | .strong => if c == '\\' then .strongEscape else if c == '\'' then .plain else .strong
  | .strongEscape => .strong

/-- Follows a line: the state behind it, or what stands before its comment. -/
def follow (s : LineState) : List Char → List Char ⊕ LineState
  | [] => .inr s
  | c :: rest =>
    if s = .blank ∧ c = '#' then .inl []
    else
      match follow (s.next c) rest with
      | .inl kept => .inl (c :: kept)
      | .inr state => .inr state

end LineState

/-- The lines of a text, each with its line break. -/
def physicalLines : List Char → List (List Char)
  | [] => []
  | c :: rest =>
    if c == '\n' then [c] :: physicalLines rest
    else
      match physicalLines rest with
      | [] => [[c]]
      | line :: more => (c :: line) :: more

/-- A line without its line break. -/
def withoutBreak (line : List Char) : List Char :=
  match line.reverse with
  | '\n' :: '\r' :: rest => rest.reverse
  | '\n' :: rest => rest.reverse
  | _ => line

/-- Joins lines as far as quotes go on; a line that does not end is `none`. -/
def joinLines (begun : List Char) (s : LineState) : List (List Char) → List (Option (List Char))
  | [] => if s = .plain then [] else [none]
  | line :: rest =>
    let all := begun ++ line
    if (all.dropWhile Text.isBlank).head? == some '#' then some [] :: joinLines [] .plain rest
    else
      match s.follow line with
      | .inl kept => some (begun ++ kept) :: joinLines [] .plain rest
      | .inr .plain => some (withoutBreak all) :: joinLines [] .plain rest
      | .inr state => joinLines all state rest

/-- The lines of a file of environment variables. -/
def logicalLines (text : String) : List (Option (List Char)) :=
  joinLines [] .plain (physicalLines text.toList)

end HpcBlueprint.Environment
