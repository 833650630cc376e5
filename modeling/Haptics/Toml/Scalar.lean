import Haptics.Toml.Basic

/-!
# TOML scalars

Booleans, integers, floats, dates and times are single words. An integer has 64 signed bits and may
be written in base 2, 8, 10 or 16; a single underscore may stand between two digits. Of a float, a
date or a time only the form is checked, that a positive float is not too large for a double, and
that the parts of a date or time exist.
-/

namespace Haptics.Toml

/-- Whether a character can be part of a scalar. -/
def isScalarChar (c : Char) : Bool :=
  c.isAlphanum || c = '+' || c = '-' || c = '_' || c = '.' || c = ':'

/-- The value of a digit, in bases up to 16. -/
def digitValue? (c : Char) : Option Nat :=
  if '0' ≤ c ∧ c ≤ '9' then some (c.toNat - '0'.toNat)
  else if 'a' ≤ c ∧ c ≤ 'f' then some (c.toNat - 'a'.toNat + 10)
  else if 'A' ≤ c ∧ c ≤ 'F' then some (c.toNat - 'A'.toNat + 10)
  else none

/-- The value of digits in a base, with single underscores between them. `ready` says whether an
underscore or the end may come. -/
def digits? (base : Nat) (ready : Bool) (value : Nat) : List Char → Option Nat
  | [] => if ready then some value else none
  | c :: rest =>
    if c = '_' then if ready then digits? base false value rest else none
    else
      match digitValue? c with
      | some d => if d < base then digits? base true (base * value + d) rest else none
      | none => none

/-- A decimal number that has no needless leading zero. -/
def decimal? (text : List Char) : Option Nat :=
  match text with
  | '0' :: _ :: _ => none
  | _ => digits? 10 false 0 text

/-- The sign of a number and what is behind it. -/
def signed : List Char → Bool × List Char
  | '-' :: rest => (true, rest)
  | '+' :: rest => (false, rest)
  | text => (false, text)

/-- A number if it has 64 signed bits. -/
def int64? (value : Int) : Option Int :=
  if -9223372036854775808 ≤ value ∧ value ≤ 9223372036854775807 then some value else none

/-- An integer. -/
def integer? (text : List Char) : Option Int :=
  match text with
  | '0' :: 'x' :: rest => (digits? 16 false 0 rest).bind fun n => int64? n
  | '0' :: 'o' :: rest => (digits? 8 false 0 rest).bind fun n => int64? n
  | '0' :: 'b' :: rest => (digits? 2 false 0 rest).bind fun n => int64? n
  | _ =>
    let (negative, magnitude) := signed text
    (decimal? magnitude).bind fun n => int64? (if negative then -(n : Int) else n)

/-- The power of ten of a float, which is all that may stand behind its digits. -/
def power? : List Char → Option Int
  | [] => some 0
  | e :: text =>
    if e = 'e' ∨ e = 'E' then
      let (negative, digits) := signed text
      (digits? 10 false 0 digits).map fun n => if negative then -(n : Int) else n
    else none

/-- The digits and underscores in front of a text, and what is behind them. -/
def spanDigits (text : List Char) : List Char × List Char :=
  text.span fun c => c.isDigit || c = '_'

/-- The number of a float without its sign: a whole number, and the power of ten to take it times.
-/
def scientific? (text : List Char) : Option (Nat × Int) := do
  let (whole, rest) := spanDigits text
  let n ← decimal? whole
  match rest with
  | [] => none
  | '.' :: rest =>
    let (fraction, rest) := spanDigits rest
    let m ← digits? 10 false 0 fraction
    let power ← power? rest
    let places := fraction.countP Char.isDigit
    some (n * Nat.pow 10 places + m, power - places)
  | rest => (power? rest).map (n, ·)

/-- The least number that is too large for a double: from here on, 2 ^ 1024 is as near as the
largest double. -/
def doubleLimit : Nat := Nat.pow 2 1024 - Nat.pow 2 970

/-- Whether a number times a power of ten is too large for a double. The limit has 309 digits, so
only numbers of that many are compared with it. -/
def isBeyondDoubles (n : Nat) (power : Int) : Bool :=
  let size := (Nat.toDigits 10 n).length + power
  n ≠ 0 && (309 < size ||
    (size = 309 && doubleLimit * Nat.pow 10 (-power).toNat ≤ n * Nat.pow 10 power.toNat))

/-- Whether a text is a float. One that is positive must not be too large. -/
def isFloat (text : List Char) : Bool :=
  let (negative, magnitude) := signed text
  magnitude = ['i', 'n', 'f'] || magnitude = ['n', 'a', 'n'] ||
    (scientific? magnitude).any fun (n, power) => negative || !isBeyondDoubles n power

/-- A number of exactly so many digits within limits, and what is behind it. -/
def field? (length lowest highest : Nat) (text : List Char) : Option (Nat × List Char) :=
  let digits := text.take length
  if digits.length = length ∧ digits.all Char.isDigit then
    (digits? 10 false 0 digits).bind fun n =>
      if lowest ≤ n ∧ n ≤ highest then some (n, text.drop length) else none
  else none

/-- How many days a month has. -/
def daysIn (year month : Nat) : Nat :=
  if month = 2 then
    if year % 4 = 0 ∧ (year % 100 ≠ 0 ∨ year % 400 = 0) then 29 else 28
  else if month = 4 ∨ month = 6 ∨ month = 9 ∨ month = 11 then 30
  else 31

/-- What is behind a date. -/
def afterDate? (text : List Char) : Option (List Char) := do
  let (year, text) ← field? 4 0 9999 text
  let '-' :: text := text | none
  let (month, text) ← field? 2 1 12 text
  let '-' :: text := text | none
  let (_, text) ← field? 2 1 (daysIn year month) text
  some text

/-- What is behind a time of day. -/
def afterTime? (text : List Char) : Option (List Char) := do
  let (_, text) ← field? 2 0 23 text
  let ':' :: text := text | none
  let (_, text) ← field? 2 0 59 text
  let ':' :: text := text | none
  let (_, text) ← field? 2 0 60 text
  match text with
  | '.' :: fraction =>
    let rest := fraction.dropWhile Char.isDigit
    if rest.length < fraction.length then some rest else none
  | _ => some text

/-- Whether a text is an offset from universal time, or nothing. -/
def isOffset (text : List Char) : Bool :=
  match text with
  | [] | ['Z'] | ['z'] => true
  | sign :: rest =>
    (sign = '+' || sign = '-') &&
      match field? 2 0 23 rest with
      | some (_, ':' :: rest) => (field? 2 0 59 rest).any (·.2.isEmpty)
      | _ => false

/-- Whether a text is a date, a time of day, or both with perhaps an offset. -/
def isTime (text : List Char) : Bool :=
  match afterDate? text with
  | some [] => true
  | some (separator :: rest) =>
    (separator = 'T' || separator = 't' || separator = ' ') && (afterTime? rest).any isOffset
  | none => (afterTime? text).any List.isEmpty

/-- The item of a single word. -/
def scalar? (text : List Char) : Option Item :=
  if text = ['t', 'r', 'u', 'e'] then some (.boolean true)
  else if text = ['f', 'a', 'l', 's', 'e'] then some (.boolean false)
  else
    match integer? text with
    | some n => some (.integer n)
    | none => if isFloat text then some .float else if isTime text then some .time else none

end Haptics.Toml
