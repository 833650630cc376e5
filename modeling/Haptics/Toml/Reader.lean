import Haptics.Toml.Scalar

/-!
# Reading TOML

A document is a list of lines: a blank or a comment, a header that opens a table, or a key with a
value. Each reader below takes a text and gives what it has read with the text that is left, or
nothing if the text does not fit. Values may be nested eighty deep at most.

`Toml.read?` gives the table that a whole document stands for.
-/

namespace Haptics.Toml

/-- The deepest nesting of values. -/
def maxDepth : Nat := 79

/-- Whether a character separates words on a line. -/
def isSpace (c : Char) : Bool := c = ' ' || c = '\t'

/-- Whether a character may stand in a comment or, apart from the quotes, in a string. -/
def isPlain (c : Char) : Bool := c = '\t' || (' ' ≤ c && c ≠ '\x7f')

/-- A text without the spaces in front. -/
def skipSpaces (text : List Char) : List Char := text.dropWhile isSpace

/-- A text without the comment in front, if there is one. -/
def skipComment : List Char → List Char
  | '#' :: rest => rest.dropWhile isPlain
  | text => text

/-- What is behind the end of a line. -/
def lineEnd? : List Char → Option (List Char)
  | '\n' :: rest | '\r' :: '\n' :: rest => some rest
  | _ => none

/-- A text without the spaces, comments and line ends in front. `fuel` bounds their number. -/
def skipBlanks : (fuel : Nat) → List Char → List Char
  | 0, text => text
  | fuel + 1, text =>
    match lineEnd? (skipComment (skipSpaces text)) with
    | some rest => skipBlanks fuel rest
    | none => skipComment (skipSpaces text)

/-- A text without all spaces, comments and line ends in front. -/
def skipAll (text : List Char) : List Char := skipBlanks text.length text

/-! ## Strings -/

/-- The number of some hexadecimal digits. -/
def hex? (digits : List Char) : Option Nat :=
  digits.foldlM (fun n c => (digitValue? c).map (16 * n + ·)) 0

/-- The character of a code point, if there is one. -/
def char? (point : Nat) : Option Char :=
  if h : point.isValidChar then some (Char.ofNatAux point h) else none

/-- The character that a short escape stands for. -/
def shortEscape? (c : Char) : Option Char :=
  if c = 'b' then some '\x08'
  else if c = 't' then some '\t'
  else if c = 'n' then some '\n'
  else if c = 'f' then some '\x0c'
  else if c = 'r' then some '\r'
  else if c = '"' ∨ c = '\\' then some c
  else none

/-- The character of an escape behind its backslash, and what is left. -/
def escape? : List Char → Option (Char × List Char)
  | 'u' :: rest => (hex? (rest.take 4)).bind fun n =>
    if rest.length < 4 then none else (char? n).map (·, rest.drop 4)
  | 'U' :: rest => (hex? (rest.take 8)).bind fun n =>
    if rest.length < 8 then none else (char? n).map (·, rest.drop 8)
  | c :: rest => (shortEscape? c).map (·, rest)
  | [] => none

/-- A string on one line between quotes `quote`; `escapes` says whether a backslash opens an escape.
`fuel` bounds its length. -/
def line? (quote : Char) (escapes : Bool) :
    (fuel : Nat) → (read : List Char) → List Char → Option (String × List Char)
  | 0, _, _ => none
  | _ + 1, _, [] => none
  | fuel + 1, read, c :: rest =>
    if c = quote then some (String.ofList read.reverse, rest)
    else if escapes ∧ c = '\\' then
      (escape? rest).bind fun (d, rest) => line? quote escapes fuel (d :: read) rest
    else if isPlain c then line? quote escapes fuel (c :: read) rest
    else none

/-- Whether only spaces stand before the end of the line. -/
def endsLine (text : List Char) : Bool := (lineEnd? (skipSpaces text)).isSome

/-- A text without spaces and line ends in front. -/
def skipFold : List Char → List Char
  | ' ' :: rest | '\t' :: rest | '\n' :: rest | '\r' :: '\n' :: rest => skipFold rest
  | text => text

/-- A string over several lines between triple quotes `quote`. Two quotes may stand inside, and up
to two more before the closing ones. A backslash at the end of a line takes away the end and all
blanks that follow. `fuel` bounds its length. -/
def lines? (quote : Char) (escapes : Bool) :
    (fuel : Nat) → (read : List Char) → List Char → Option (String × List Char)
  | 0, _, _ => none
  | _ + 1, _, [] => none
  | fuel + 1, read, c :: rest =>
    if c = quote then
      let run := 1 + (rest.takeWhile (· = quote)).length
      if run < 3 then lines? quote escapes fuel (c :: read) rest
      else
        let inside := min run 5 - 3
        some (String.ofList (read.reverse ++ List.replicate inside quote), rest.drop (inside + 2))
    else if escapes ∧ c = '\\' then
      if endsLine rest then lines? quote escapes fuel read (skipFold rest)
      else (escape? rest).bind fun (d, rest) => lines? quote escapes fuel (d :: read) rest
    else
      match lineEnd? (c :: rest) with
      | some rest => lines? quote escapes fuel ('\n' :: read) rest
      | none => if isPlain c then lines? quote escapes fuel (c :: read) rest else none

/-- A text without the line end in front, if there is one. -/
def skipLineEnd (text : List Char) : List Char := (lineEnd? text).getD text

/-- A string of any kind. -/
def string? : List Char → Option (String × List Char)
  | '"' :: '"' :: '"' :: rest => lines? '"' true (rest.length + 1) [] (skipLineEnd rest)
  | '\'' :: '\'' :: '\'' :: rest => lines? '\'' false (rest.length + 1) [] (skipLineEnd rest)
  | '"' :: rest => line? '"' true (rest.length + 1) [] rest
  | '\'' :: rest => line? '\'' false (rest.length + 1) [] rest
  | _ => none

/-! ## Keys -/

/-- Whether a character may stand in a key without quotes. -/
def isKeyChar (c : Char) : Bool := c.isAlphanum || c = '_' || c = '-'

/-- One part of a key. -/
def keyPart? (text : List Char) : Option (String × List Char) :=
  match text with
  | '"' :: rest => line? '"' true (rest.length + 1) [] rest
  | '\'' :: rest => line? '\'' false (rest.length + 1) [] rest
  | _ =>
    let bare := text.takeWhile isKeyChar
    if bare.isEmpty then none else some (String.ofList bare, text.drop bare.length)

/-- A key: its parts, with dots between them. `fuel` bounds their number. -/
def keyParts? : (fuel : Nat) → List Char → Option (List String × List Char)
  | 0, _ => none
  | fuel + 1, text => do
    let (part, rest) ← keyPart? (skipSpaces text)
    match skipSpaces rest with
    | '.' :: rest =>
      let (parts, rest) ← keyParts? fuel rest
      some (part :: parts, rest)
    | rest => some ([part], rest)

/-- A key: the parts before its last and the last. -/
def key? (text : List Char) : Option (List String × String × List Char) := do
  let (parts, rest) ← keyParts? maxDepth text
  let last ← parts.getLast?
  some (parts.dropLast, last, rest)

/-! ## Values -/

/-- A scalar: the longest word, where a date and a time may have a space between them. -/
def word? (text : List Char) : Option (Item × List Char) :=
  let first := text.takeWhile isScalarChar
  let rest := text.drop first.length
  match afterDate? first, rest with
  | some [], ' ' :: more =>
    let second := more.takeWhile isScalarChar
    if (afterTime? second).isSome then
      (scalar? (first ++ ' ' :: second)).map (·, more.drop second.length)
    else (scalar? first).map (·, rest)
  | _, _ => (scalar? first).map (·, rest)

/-- The items of an array behind its bracket. `fuel` bounds their number. -/
def items? (value : List Char → Option (Item × List Char)) :
    (fuel : Nat) → List Char → Option (List Item × List Char)
  | 0, _ => none
  | fuel + 1, text =>
    match skipAll text with
    | ']' :: rest => some ([], rest)
    | text =>
      (value text).bind fun (item, rest) =>
        match skipAll rest with
        | ']' :: rest => some ([item], rest)
        | ',' :: rest => (items? value fuel rest).map fun (others, rest) => (item :: others, rest)
        | _ => none

/-- A key and its value, defined in a table. -/
def pair? (value : List Char → Option (Item × List Char)) (define : List String → String → Item →
    Option Entries) (text : List Char) : Option (Entries × List Char) := do
  let (path, key, rest) ← key? text
  let '=' :: rest := skipSpaces rest | none
  let (item, rest) ← value (skipSpaces rest)
  let entries ← define path key item
  some (entries, rest)

/-- The entries of a table written as a value, behind those already read. `fuel` bounds their
number. -/
def inlineEntries? (value : List Char → Option (Item × List Char)) :
    (fuel : Nat) → Entries → List Char → Option (Entries × List Char)
  | 0, _, _ => none
  | fuel + 1, entries, text => do
    let (entries, rest) ← pair? value entries.defineDotted? (skipSpaces text)
    match skipSpaces rest with
    | '\x7d' :: rest => some (entries, rest)
    | ',' :: rest => inlineEntries? value fuel entries rest
    | _ => none

/-- A value, nested so deep at most. -/
def value? : (depth : Nat) → List Char → Option (Item × List Char)
  | depth, text =>
    match text with
    | '[' :: rest =>
      match depth with
      | 0 => none
      | depth + 1 =>
        (items? (value? depth) (rest.length + 1) rest).map fun (items, rest) => (.array items, rest)
    | '\x7b' :: rest =>
      match depth with
      | 0 => none
      | depth + 1 =>
        match skipSpaces rest with
        | '\x7d' :: rest => some (.inline [], rest)
        | rest =>
          (inlineEntries? (value? depth) (rest.length + 1) [] rest).map fun (entries, rest) =>
            (.inline entries, rest)
    | c :: _ =>
      if c = '"' ∨ c = '\'' then (string? text).map fun (s, rest) => (.string s, rest)
      else word? text
    | [] => none

/-! ## Documents -/

/-- A document that is being read: its table, and where the last header has led. -/
structure Draft where
  /-- The table of the document. -/
  root : Entries := []
  /-- The table that keys go to. -/
  place : List String := []

/-- What is behind the end of a line with perhaps a comment. At the end of the text nothing is. -/
def finishLine? (text : List Char) : Option (List Char) :=
  match skipComment (skipSpaces text) with
  | [] => some []
  | rest => lineEnd? rest

/-- A header behind its first bracket. -/
def header? (d : Draft) : List Char → Option (Draft × List Char)
  | '[' :: text => do
    let (path, key, rest) ← key? text
    let ']' :: ']' :: rest := rest | none
    let root ← d.root.openElement? path key
    some ({ root, place := path ++ [key] }, rest)
  | text => do
    let (path, key, rest) ← key? text
    let ']' :: rest := rest | none
    let root ← d.root.openTable? path key
    some ({ root, place := path ++ [key] }, rest)

/-- The document with one more key at the place of the last header. -/
def Draft.define? (d : Draft) (path : List String) (key : String) (item : Item) : Option Entries :=
  Entries.update? .implied (fun _ inner => inner.defineDotted? path key item) d.place .header d.root

/-- A line. -/
def documentLine? (d : Draft) (text : List Char) : Option (Draft × List Char) :=
  match skipSpaces text with
  | '[' :: rest => header? d rest
  | text =>
    if text.isEmpty ∨ text.head? = some '#' ∨ (lineEnd? text).isSome then some (d, text)
    else (pair? (value? maxDepth) d.define? text).map fun (root, rest) => ({ d with root }, rest)

/-- The lines of a document. `fuel` bounds their number. -/
def document? : (fuel : Nat) → Draft → List Char → Option Draft
  | 0, _, _ => none
  | _ + 1, d, [] => some d
  | fuel + 1, d, text =>
    (documentLine? d text).bind fun (d, rest) => (finishLine? rest).bind (document? fuel d)

/-- The table that a document stands for. A byte order mark in front of it is no part of it. -/
def read? (text : String) : Option Entries :=
  let chars := match text.toList with
    | '\ufeff' :: rest => rest
    | chars => chars
  (document? (chars.length + 1) {} chars).map Draft.root

end Haptics.Toml
