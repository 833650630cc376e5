import Haptics.Toml.Scalar

/-!
# Printing TOML

An entry is printed as a line of its own, `key = value`. A string is printed in the first of these
forms that suits its text:

* between double quotes, if it is one line without double quotes, backslashes and controls;
* between single quotes, where nothing is escaped, if it is one line without single quotes and
  controls;
* between three double quotes, if it has neither backslashes nor controls, nor three double quotes
  in a row;
* between three single quotes, where nothing is escaped either, if it has no controls and no three
  single quotes in a row;
* with escapes: between double quotes if it is one line, and between three of them if not.

Between three quotes a text of several lines starts on a new line.
-/

namespace Haptics.Toml

/-! ## Strings -/

/-- Whether a character can only be written as an escape: tabs and line ends apart, the characters
without a shape. -/
def isControl (c : Char) : Bool := (c < ' ' && c ≠ '\t' && c ≠ '\n') || c = '\x7f'

/-- Whether a character stands three times in a row. -/
def hasTriple (quote : Char) : List Char → Bool
  | a :: b :: c :: rest =>
    (a = quote && b = quote && c = quote) || hasTriple quote (b :: c :: rest)
  | _ => false

/-- The quotes around a string. -/
inductive Quotes where
  /-- One double quote on each side. -/
  | double
  /-- One single quote on each side. -/
  | single
  /-- Three double quotes on each side. -/
  | tripleDouble
  /-- Three single quotes on each side. -/
  | tripleSingle
  deriving DecidableEq

/-- The quotes that suit a text. -/
def Quotes.suiting (text : List Char) : Quotes :=
  let plain := !text.any isControl
  let oneLine := !text.contains '\n'
  if plain ∧ oneLine ∧ !text.contains '"' ∧ !text.contains '\\' then .double
  else if plain ∧ oneLine ∧ !text.contains '\'' then .single
  else if plain ∧ !text.contains '\\' ∧ !hasTriple '"' text then .tripleDouble
  else if plain ∧ !hasTriple '\'' text then .tripleSingle
  else if oneLine then .double
  else .tripleDouble

/-- A hexadecimal digit, in upper case. -/
def upperDigit (n : Nat) : Char :=
  Char.ofNat (if n < 10 then '0'.toNat + n else 'A'.toNat + (n - 10))

/-- A character between double quotes, with an escape if it needs one. -/
def escaped (c : Char) : List Char :=
  if c = '\x08' then ['\\', 'b']
  else if c = '\t' then ['\\', 't']
  else if c = '\n' then ['\\', 'n']
  else if c = '\x0c' then ['\\', 'f']
  else if c = '\r' then ['\\', 'r']
  else if c = '"' ∨ c = '\\' then ['\\', c]
  else if isControl c then
    ['\\', 'u', '0', '0', upperDigit (c.toNat / 16), upperDigit (c.toNat % 16)]
  else [c]

/-- A text between three double quotes: line ends stand for themselves, and of the quotes in a row
every third is escaped. `quotes` counts those just before the text. -/
def escapedLines : (quotes : Nat) → List Char → List Char
  | _, [] => []
  | quotes, c :: rest =>
    if c = '"' ∧ quotes < 2 then c :: escapedLines (quotes + 1) rest
    else if c = '\n' then c :: escapedLines 0 rest
    else escaped c ++ escapedLines 0 rest

/-- A text between quotes. -/
def printString (s : String) : String :=
  let text := s.toList
  let start := if text.contains '\n' then "\n" else ""
  match Quotes.suiting text with
  | .double => "\"" ++ String.ofList (text.flatMap escaped) ++ "\""
  | .single => "'" ++ s ++ "'"
  | .tripleDouble => "\"\"\"" ++ start ++ String.ofList (escapedLines 0 text) ++ "\"\"\""
  | .tripleSingle => "'''" ++ start ++ s ++ "'''"

/-! ## Lines -/

/-- A scalar with its value. Numbers beyond 64 signed bits have no form, and of the other items the
value is not known. -/
def printScalar? : Item → Option String
  | .string s => some (printString s)
  | .integer n => (int64? n).map toString
  | .boolean b => some (toString b)
  | _ => none

/-- An entry on a line. The key is one that needs no quotes. -/
def printLine? (key : String) (item : Item) : Option String :=
  (printScalar? item).map fun value => key ++ " = " ++ value ++ "\n"

/-- Entries, a line each. -/
def print? (entries : Entries) : Option String :=
  (entries.mapM fun entry => printLine? entry.1 entry.2).map String.join

end Haptics.Toml
