/-!
# TOML documents

A TOML document is a table of items under keys. Of floats and of dates and times only that they are
such is kept, since nobody reads their values here.

A table knows how it came to be: by a header or key of its own, only on the way to another table
(*implied*), or by a dotted key (*dotted*). Which of these it is decides whether the document may go
on to add to it.
-/

namespace Haptics.Toml

/-- How a table came to be. -/
inductive Origin where
  /-- By a header of its own, or as the document itself. -/
  | header
  /-- On the way to another table in a header. -/
  | implied
  /-- By a dotted key. -/
  | dotted
  deriving DecidableEq

/-- What stands under a key. -/
inductive Item where
  | string (text : String)
  | integer (value : Int)
  | boolean (value : Bool)
  | float
  | time
  | array (items : List Item)
  /-- A table written as a value, to which nothing can be added. -/
  | inline (entries : List (String × Item))
  | table (origin : Origin) (entries : List (String × Item))
  /-- An array of tables; the last table is the first of the list. -/
  | tables (elements : List (List (String × Item)))

/-- The items of a table, in the order in which they are written. -/
abbrev Entries := List (String × Item)

namespace Entries

/-- The item under a key. -/
def get? (e : Entries) (key : String) : Option Item :=
  (e.find? (·.1 = key)).map (·.2)

/-- Puts an item under a key: in place of the one that is there, or behind all others. -/
def put : Entries → String → Item → Entries
  | [], key, item => [(key, item)]
  | (k, v) :: rest, key, item => if k = key then (k, item) :: rest else (k, v) :: put rest key item

/-- Puts an item under a key that is free. -/
def define? (e : Entries) (key : String) (item : Item) : Option Entries :=
  match e.get? key with
  | none => some (e ++ [(key, item)])
  | some _ => none

/-- Changes the table at the end of a path, making tables of the given origin on the way. A dotted
key does not reach into a table with a header; no path leads through a value; an array of tables is
entered at its last. -/
def update? (made : Origin) (change : Origin → Entries → Option Entries) :
    List String → Origin → Entries → Option Entries
  | [], origin, e => change origin e
  | key :: path, _, e =>
    match e.get? key with
    | none => (update? made change path made []).map fun inner => e.put key (.table made inner)
    | some (.table origin inner) =>
      if made = .dotted ∧ origin = .header then none
      else (update? made change path origin inner).map fun inner => e.put key (.table origin inner)
    | some (.tables (last :: others)) =>
      (update? made change path .header last).map fun last => e.put key (.tables (last :: others))
    | some _ => none

/-- Defines a key, behind dots if there are any. The table it goes into must have come from dotted
keys exactly if there are dots. -/
def defineDotted? (e : Entries) (path : List String) (key : String) (item : Item) :
    Option Entries :=
  update? .dotted
    (fun origin inner => if path ≠ [] ∧ origin ≠ .dotted then none else inner.define? key item)
    path .header e

/-- Opens a table by its header. -/
def openTable? (e : Entries) (path : List String) (key : String) : Option Entries :=
  update? .implied
    (fun _ inner =>
      match inner.get? key with
      | none => some (inner.put key (.table .header []))
      | some (.table .implied entries) => some (inner.put key (.table .header entries))
      | some _ => none)
    path .header e

/-- Opens the next table of an array of tables by its header. -/
def openElement? (e : Entries) (path : List String) (key : String) : Option Entries :=
  update? .implied
    (fun _ inner =>
      match inner.get? key with
      | none => some (inner.put key (.tables [[]]))
      | some (.tables elements) => some (inner.put key (.tables ([] :: elements)))
      | some _ => none)
    path .header e

end Entries

end Haptics.Toml
