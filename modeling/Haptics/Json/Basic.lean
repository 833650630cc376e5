import Haptics.Json.Numeral

/-!
# JSON values

A value as it is written: numbers keep their digits, objects keep their members in order and with
doubled names, and a string that is not text, because it names half of a surrogate pair, is kept as
such. What a reader then makes of these is up to it: a value that nobody looks at may hold numbers
beyond all doubles and strings that are no text.
-/

namespace Haptics

/-- A JSON value as it is written. -/
inductive Json where
  | null
  | bool (value : Bool)
  | number (numeral : Json.Numeral)
  /-- A string, or nothing if its escapes name no text. -/
  | string (text : Option String)
  | array (items : List Json)
  /-- The members in order, each under a name that may be no text either. -/
  | object (members : List (Option String × Json))

namespace Json

/-- The string of a value that is one. -/
def text? : Json → Option String
  | string text => text
  | _ => none

/-- The items of a value that is an array. -/
def items? : Json → Option (List Json)
  | array items => some items
  | _ => none

/-- The value of a whole number. -/
def int? : Json → Option Int
  | number n => n.toInt?
  | _ => none

/-- A hundred times the value of a number, as a whole number. -/
def hundredths? : Json → Option Int
  | number n => n.hundredths?
  | _ => none

end Json

end Haptics
