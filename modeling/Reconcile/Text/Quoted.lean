import Reconcile.Text.Hidden

/-!
# Quoted text

A quoted text stands between double quotes. Quotes and backslashes are escaped, the usual
control characters have short escapes, and every other hidden character is written by its
code point.
-/

namespace Reconcile.Text

/-- The digits of a number in lower-case hexadecimal. -/
def hex (n : Nat) : List Char := Nat.toDigits 16 n

/-- One character as it stands inside a quoted text. -/
def quotedChar (c : Char) : List Char :=
  match c with
  | '"' => ['\\', '"']
  | '\\' => ['\\', '\\']
  | '\n' => ['\\', 'n']
  | '\r' => ['\\', 'r']
  | '\t' => ['\\', 't']
  | '\x00' => ['\\', '0']
  | c => if isHidden c then '\\' :: 'u' :: '{' :: hex c.toNat ++ ['}'] else [c]

/-- The text between double quotes, with its special characters escaped. -/
def quoted (s : String) : String :=
  String.ofList ('"' :: s.toList.flatMap quotedChar ++ ['"'])

/-- Quoted texts between brackets. -/
def quotedList (ss : List String) : String :=
  "[" ++ String.intercalate ", " (ss.map quoted) ++ "]"

end Reconcile.Text
