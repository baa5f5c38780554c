/-
  Texts in double quotes, as they appear in messages about data.

  A backslash stands before a quote and before itself; tab, carriage return, line feed
  and NUL have short escapes, and every other character that would not be visible is
  written by its code point, `\u{..}` in hexadecimal.
-/
import HpcBlueprint.Text.Printable

namespace HpcBlueprint.Text

/-- The lower-case hexadecimal digits of a number. -/
def hex (n : Nat) : String := String.ofList (Nat.toDigits 16 n)

/-- One character inside double quotes. -/
def quotedChar (c : Char) : String :=
  match c with
  | '\x00' => "\\0"
  | '\t' => "\\t"
  | '\r' => "\\r"
  | '\n' => "\\n"
  | '"' => "\\\""
  | '\\' => "\\\\"
  | c => if isPrintable c then String.ofList [c] else "\\u\x7b" ++ hex c.toNat ++ "\x7d"

/-- A text in double quotes. -/
def quoted (text : String) : String := "\"" ++ String.join (text.toList.map quotedChar) ++ "\""

end HpcBlueprint.Text
