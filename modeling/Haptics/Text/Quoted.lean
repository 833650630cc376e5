import Haptics.Text.Printable

/-!
# Quoted text

A text shown inside a message stands between double quotes. The quote, the backslash and the
common controls have escapes of two characters; any other character that does not print by itself
is shown as its code point, `\u{7f}`; all else stands for itself.
-/

namespace Haptics.Text

/-- How one character is shown inside double quotes. -/
def quoteChar (c : Char) : List Char :=
  if c = '\x00' then ['\\', '0']
  else if c = '\t' then ['\\', 't']
  else if c = '\r' then ['\\', 'r']
  else if c = '\n' then ['\\', 'n']
  else if c = '"' then ['\\', '"']
  else if c = '\\' then ['\\', '\\']
  else if isPrintable c then [c]
  else ['\\', 'u', '\x7b'] ++ Nat.toDigits 16 c.toNat ++ ['\x7d']

/-- A text between double quotes, with escapes for what cannot be shown as it is. -/
def quoted (s : String) : String :=
  "\"" ++ String.ofList (s.toList.flatMap quoteChar) ++ "\""

end Haptics.Text
