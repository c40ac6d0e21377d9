import Reconciliation.Text.Graphic

/-!
Texts in quotes. Between the quotes a graphic character stands for itself, except that the quote and
the backslash follow a backslash; the usual controls have a letter after a backslash, and any other
character is written as its code point in hexadecimal digits.
-/
namespace Reconciliation.Text

/-- The hexadecimal digits of a number, with no leading zero. -/
def hex (n : Nat) : List Char :=
  Nat.toDigits 16 n

/-- How one character is written inside quotes. -/
def quotedChar (c : Char) : List Char :=
  match c with
  | '\x00' => ['\\', '0']
  | '\t' => ['\\', 't']
  | '\r' => ['\\', 'r']
  | '\n' => ['\\', 'n']
  | '\x22' => ['\\', '\x22']
  | '\\' => ['\\', '\\']
  | c => if isGraphic c then [c] else ['\\', 'u', '\x7b'] ++ hex c.toNat ++ ['\x7d']

def quoted (text : String) : String :=
  String.ofList ('\x22' :: text.toList.flatMap quotedChar ++ ['\x22'])

end Reconciliation.Text
