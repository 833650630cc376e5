import Haptics.Json.Basic

/-!
# Reading JSON

The reader takes a text one character at a time and never looks back. Its state is the stack of
arrays and objects that are still open, and what it is in the middle of; `Reader.step` says what a
character does to the state, or that the text is no JSON. A number has no end of its own, so a
character that cannot go on with a number first closes it and is then taken as what follows a
value.

`Json.read?` folds the steps over a text and gives the value if the text is one value with nothing
but blanks around it.
-/

namespace Haptics.Json

/-- An array or object that is still open, with what it holds so far in reverse. -/
inductive Frame where
  | array (items : List Json)
  /-- An object waiting for the value of a member of the given name. -/
  | object (members : List (Option String × Json)) (name : Option String)

/-- The part of a number that is being read. -/
inductive NumberPart where
  /-- Behind the minus sign. -/
  | sign
  /-- Behind a leading zero. -/
  | zero
  /-- In the whole part. -/
  | whole
  /-- Behind the point, before a digit. -/
  | point
  /-- In the fraction. -/
  | fraction
  /-- Behind the `e`. -/
  | mark
  /-- Behind the sign of the exponent. -/
  | exponentSign
  /-- In the exponent. -/
  | exponent

/-- A number that is being read; its digits are in reverse. -/
structure Digits where
  /-- Whether it starts with a minus sign. -/
  negative : Bool := false
  /-- The digits of the whole part. -/
  whole : List Nat := []
  /-- The digits behind the point. -/
  fraction : List Nat := []
  /-- Whether the exponent is negative. -/
  exponentNegative : Bool := false
  /-- The digits of the exponent. -/
  exponent : Nat := 0

/-- The part of a string that is being read. -/
inductive StringPart where
  /-- Between characters. -/
  | plain
  /-- Behind a backslash. -/
  | escape
  /-- In the digits of a code unit: how many are left, and the value so far. -/
  | unit (left value : Nat)

/-- What the reader is in the middle of. -/
inductive Mode where
  /-- A value has to come. -/
  | value
  /-- A value has to come, or the end of an empty array. -/
  | valueOrEnd
  /-- The name of a member has to come. -/
  | name (members : List (Option String × Json))
  /-- The first name of an object has to come, or its end. -/
  | nameOrEnd
  /-- A colon has to come. -/
  | colon (members : List (Option String × Json)) (name : Option String)
  /-- A value is complete. -/
  | after (value : Json)
  /-- The rest of `null`, `true` or `false` has to come. -/
  | word (rest : List Char) (value : Json)
  /-- In a number. -/
  | number (part : NumberPart) (digits : Digits)
  /-- In a string; `members` is there if the string is the name of the next member. -/
  | string (members : Option (List (Option String × Json))) (part : StringPart)
    (points : List Nat)

/-- The state of the reader. -/
structure Reader where
  /-- What is open, innermost first. -/
  frames : List Frame := []
  /-- What is being read. -/
  mode : Mode := .value

/-- The blanks of JSON. -/
def isBlank (c : Char) : Bool :=
  c = ' ' || c = '\n' || c = '\t' || c = '\r'

/-- The value of a decimal digit. -/
def digit? (c : Char) : Option Nat :=
  if '0' ≤ c ∧ c ≤ '9' then some (c.toNat - '0'.toNat) else none

/-- The value of a hexadecimal digit. -/
def hexDigit? (c : Char) : Option Nat :=
  if '0' ≤ c ∧ c ≤ '9' then some (c.toNat - '0'.toNat)
  else if 'a' ≤ c ∧ c ≤ 'f' then some (c.toNat - 'a'.toNat + 10)
  else if 'A' ≤ c ∧ c ≤ 'F' then some (c.toNat - 'A'.toNat + 10)
  else none

/-- Joins the code units of a string into characters: a high surrogate needs its low one right
behind it, and none may stand alone. -/
def joinUnits : List Nat → Option (List Char)
  | [] => some []
  | [point] => if 0xD800 ≤ point ∧ point ≤ 0xDFFF then none else some [Char.ofNat point]
  | point :: next :: rest =>
    if 0xD800 ≤ point ∧ point ≤ 0xDBFF then
      if 0xDC00 ≤ next ∧ next ≤ 0xDFFF then
        (joinUnits rest).map (Char.ofNat ((point - 0xD800) * 1024 + (next - 0xDC00) + 0x10000) :: ·)
      else none
    else if 0xDC00 ≤ point ∧ point ≤ 0xDFFF then none
    else (joinUnits (next :: rest)).map (Char.ofNat point :: ·)

/-- The text of a string whose code units are given in reverse. -/
def stringOf (points : List Nat) : Option String :=
  (joinUnits points.reverse).map String.ofList

/-- The numeral whose digits have been read. -/
def Digits.numeral (d : Digits) (part : NumberPart) : Numeral :=
  { negative := d.negative
    whole := d.whole.reverse
    fraction := d.fraction.reverse
    exponent := match part with
      | .exponent => some (if d.exponentNegative then -(d.exponent : Int) else d.exponent)
      | _ => none }

/-- The number read so far, if it may end here. -/
def Digits.done? (d : Digits) : NumberPart → Option Json
  | .sign | .point | .mark | .exponentSign => none
  | part => some (.number (d.numeral part))

/-- What a character does to a number; none if the number ends before it. -/
def Digits.step (d : Digits) (c : Char) : NumberPart → Option (NumberPart × Digits)
  | .sign =>
    match digit? c with
    | some 0 => some (.zero, { d with whole := [0] })
    | some n => some (.whole, { d with whole := [n] })
    | none => none
  | .zero =>
    if c = '.' then some (.point, d) else if c = 'e' ∨ c = 'E' then some (.mark, d) else none
  | .whole =>
    match digit? c with
    | some n => some (.whole, { d with whole := n :: d.whole })
    | none =>
      if c = '.' then some (.point, d) else if c = 'e' ∨ c = 'E' then some (.mark, d) else none
  | .point =>
    match digit? c with
    | some n => some (.fraction, { d with fraction := [n] })
    | none => none
  | .fraction =>
    match digit? c with
    | some n => some (.fraction, { d with fraction := n :: d.fraction })
    | none => if c = 'e' ∨ c = 'E' then some (.mark, d) else none
  | .mark =>
    match digit? c with
    | some n => some (.exponent, { d with exponent := n })
    | none =>
      if c = '+' then some (.exponentSign, d)
      else if c = '-' then some (.exponentSign, { d with exponentNegative := true })
      else none
  | .exponentSign =>
    match digit? c with
    | some n => some (.exponent, { d with exponent := n })
    | none => none
  | .exponent =>
    match digit? c with
    | some n => some (.exponent, { d with exponent := 10 * d.exponent + n })
    | none => none

namespace Reader

/-- Starts a value with the character `c`. -/
def open? (frames : List Frame) (c : Char) : Option Reader :=
  if c = '[' then some ⟨.array [] :: frames, .valueOrEnd⟩
  else if c = '\x7b' then some ⟨frames, .nameOrEnd⟩
  else if c = '"' then some ⟨frames, .string none .plain []⟩
  else if c = 'n' then some ⟨frames, .word ['u', 'l', 'l'] .null⟩
  else if c = 't' then some ⟨frames, .word ['r', 'u', 'e'] (.bool true)⟩
  else if c = 'f' then some ⟨frames, .word ['a', 'l', 's', 'e'] (.bool false)⟩
  else if c = '-' then some ⟨frames, .number .sign { negative := true }⟩
  else
    match digit? c with
    | some 0 => some ⟨frames, .number .zero { whole := [0] }⟩
    | some n => some ⟨frames, .number .whole { whole := [n] }⟩
    | none => none

/-- What may follow a complete value: a blank, the next item or member, or the end of what it
stands in. -/
def follow? (frames : List Frame) (value : Json) (c : Char) : Option Reader :=
  if isBlank c then some ⟨frames, .after value⟩
  else
    match frames with
    | [] => none
    | .array items :: outer =>
      if c = ',' then some ⟨.array (value :: items) :: outer, .value⟩
      else if c = ']' then some ⟨outer, .after (.array (value :: items).reverse)⟩
      else none
    | .object members name :: outer =>
      if c = ',' then some ⟨outer, .name ((name, value) :: members)⟩
      else if c = '\x7d' then some ⟨outer, .after (.object ((name, value) :: members).reverse)⟩
      else none

/-- The reader after a string: a name waits for its colon, any other string is a value. -/
def closeString (frames : List Frame) (members : Option (List (Option String × Json)))
    (points : List Nat) : Reader :=
  match members with
  | some members => ⟨frames, .colon members (stringOf points)⟩
  | none => ⟨frames, .after (.string (stringOf points))⟩

/-- The code point of the character that an escape of two characters stands for. -/
def escape? (c : Char) : Option Nat :=
  if c = '"' ∨ c = '\\' ∨ c = '/' then some c.toNat
  else if c = 'b' then some 8
  else if c = 'f' then some 12
  else if c = 'n' then some 10
  else if c = 'r' then some 13
  else if c = 't' then some 9
  else none

/-- What a character does to the reader; none if the text is no JSON. -/
def step (r : Reader) (c : Char) : Option Reader :=
  match r.mode with
  | .value => if isBlank c then some r else open? r.frames c
  | .valueOrEnd =>
    if isBlank c then some r
    else if c = ']' then some ⟨r.frames.tail, .after (.array [])⟩
    else open? r.frames c
  | .name members =>
    if isBlank c then some r
    else if c = '"' then some ⟨r.frames, .string (some members) .plain []⟩
    else none
  | .nameOrEnd =>
    if isBlank c then some r
    else if c = '\x7d' then some ⟨r.frames, .after (.object [])⟩
    else if c = '"' then some ⟨r.frames, .string (some []) .plain []⟩
    else none
  | .colon members name =>
    if isBlank c then some r
    else if c = ':' then some ⟨.object members name :: r.frames, .value⟩
    else none
  | .after value => follow? r.frames value c
  | .word [] value => follow? r.frames value c
  | .word (d :: rest) value =>
    if c = d then
      some ⟨r.frames, if rest.isEmpty then .after value else .word rest value⟩
    else none
  | .number part digits =>
    match digits.step c part with
    | some (part, digits) => some ⟨r.frames, .number part digits⟩
    | none => (digits.done? part).bind fun value => follow? r.frames value c
  | .string members .plain points =>
    if c = '"' then some (closeString r.frames members points)
    else if c = '\\' then some ⟨r.frames, .string members .escape points⟩
    else if c.toNat < 32 then none
    else some ⟨r.frames, .string members .plain (c.toNat :: points)⟩
  | .string members .escape points =>
    if c = 'u' then some ⟨r.frames, .string members (.unit 4 0) points⟩
    else (escape? c).map fun point => ⟨r.frames, .string members .plain (point :: points)⟩
  | .string members (.unit left value) points =>
    (hexDigit? c).map fun n =>
      if left ≤ 1 then ⟨r.frames, .string members .plain ((16 * value + n) :: points)⟩
      else ⟨r.frames, .string members (.unit (left - 1) (16 * value + n)) points⟩

/-- The value that has been read when the text ends here. -/
def done? (r : Reader) : Option Json :=
  match r.frames, r.mode with
  | [], .after value => some value
  | [], .number part digits => digits.done? part
  | _, _ => none

end Reader

/-- The value that a text stands for, if it is one JSON value with only blanks around it. -/
def read? (text : List Char) : Option Json :=
  (text.foldlM Reader.step {}).bind Reader.done?

end Haptics.Json
