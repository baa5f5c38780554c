/-
  Expressions and bodies of the configuration language HCL.

  Nothing is evaluated: an expression is kept as it is written, up to white space, comments
  and the spelling of texts and numbers. A body is a list of attributes and a list of
  blocks, each in order.
-/
import HpcBlueprint.Number

namespace HpcBlueprint.Hcl

/-! ## Expressions -/

mutual

/-- An expression. -/
inductive Expr
  | null
  | bool (b : Bool)
  | number (n : Number)
  /-- A text without interpolation. -/
  | string (s : String)
  | array (items : List Expr)
  | object (entries : List (Key × Expr))
  /-- A text in quotes with interpolation. -/
  | template (parts : List Part)
  /-- A text over several lines; the marker ends it. -/
  | heredoc (indented : Bool) (marker : String) (parts : List Part)
  | variable (name : String)
  | parens (inner : Expr)
  /-- Steps into a value. -/
  | access (base : Expr) (steps : List Access)
  /-- A call; `expanded` says that the last argument stands for several. -/
  | call (function : List String) (args : List Expr) (expanded : Bool)
  | forList (names : List String) (source result : Expr) (condition : Option Expr)
  | forObject (names : List String) (source key result : Expr) (grouped : Bool)
      (condition : Option Expr)
  | conditional (condition yes no : Expr)
  | unary (operator : String) (operand : Expr)
  /-- Operands with operators between them, as written; nothing depends on precedence. -/
  | chain (first : Expr) (rest : List (String × Expr))

/-- The key of an object entry. -/
inductive Key
  | name (s : String)
  | expr (e : Expr)

/-- A step into a value. -/
inductive Access
  | attribute (name : String)
  | index (e : Expr)
  | position (n : Nat)
  /-- All elements, written `.*`. -/
  | each
  /-- All elements, written `[*]`. -/
  | all

/-- A part of a template. -/
inductive Part
  | text (s : String)
  /-- An expression; the flags say that blanks before and after it are dropped. -/
  | value (trimStart : Bool) (e : Expr) (trimEnd : Bool)
  /-- A control word with what belongs to it. -/
  | ifStart (trimStart : Bool) (condition : Expr) (trimEnd : Bool)
  | forStart (trimStart : Bool) (names : List String) (source : Expr) (trimEnd : Bool)
  | word (trimStart : Bool) (word : String) (trimEnd : Bool)

end

instance : Inhabited Expr := ⟨.null⟩

/-! ## Bodies -/

/-- A block: its type, its labels and what is in it. -/
inductive Block
  | mk (type : String) (labels : List String) (attributes : List (String × Expr))
      (blocks : List Block)

instance : Inhabited Block := ⟨.mk "" [] [] []⟩

namespace Block

/-- What kind of thing a block declares. -/
def type : Block → String
  | .mk type _ _ _ => type

/-- The labels of a block. -/
def labels : Block → List String
  | .mk _ labels _ _ => labels

/-- The attributes directly in a block. -/
def attributes : Block → List (String × Expr)
  | .mk _ _ attributes _ => attributes

end Block

/-- The content of a file or block. -/
structure Body where
  attributes : List (String × Expr)
  blocks : List Block
deriving Inhabited

end HpcBlueprint.Hcl
