import Intake.Text.CharTable

/-!
# Strings in messages

A message shows a string between quotes, with an escape for each character that would not be seen
as itself: the quote and the backslash, the common control characters by a letter, and every other
character that is not printable by its code point in hexadecimal.
-/

namespace Intake.Text

/-- A digit of a hexadecimal number, in lower case. -/
def hexDigit (d : Nat) : Char :=
  if d < 10 then Char.ofNat (48 + d) else Char.ofNat (87 + d)

/-- The hexadecimal digits of a number below a power of sixteen, without leading zeros. -/
def hexText : Nat → Nat → List Char
  | 0, n => [hexDigit n]
  | count + 1, n => if n < 16 then [hexDigit n] else hexText count (n / 16) ++ [hexDigit (n % 16)]

/-- One character of a string in a message. -/
def escapedChar (c : Char) : List Char :=
  if c = '"' ∨ c = '\\' then ['\\', c]
  else if c = '\n' then ['\\', 'n']
  else if c = '\r' then ['\\', 'r']
  else if c = '\t' then ['\\', 't']
  else if c.toNat = 0 then ['\\', '0']
  else if isPrintable c then [c]
  else '\\' :: 'u' :: '{' :: hexText 5 c.toNat ++ ['}']

/-- A string in a message. -/
def escaped (s : String) : String :=
  String.ofList ('"' :: s.toList.flatMap escapedChar ++ ['"'])

end Intake.Text
