import Haptics.Json.Basic

/-!
# Records

A record is a value with named fields. It may be written as an object, in any order and with members
that nobody asked for, or as an array of its fields in their order, where fields at the end may be
missing. An object must not name a field twice, all its names must be text, and an array must not
have more items than there are fields.

`record?` gives what is written for each field, and the lemmas below say what that is.
-/

namespace Haptics.Json

/-- The values of all members of the given name, in order. -/
def membersNamed (name : String) (members : List (Option String × Json)) : List Json :=
  members.filterMap fun m => if m.1 = some name then some m.2 else none

/-- What is written for one field of an object; fails if the field is named twice. -/
def field? (members : List (Option String × Json)) (name : String) : Option (Option Json) :=
  match membersNamed name members with
  | [] => some none
  | [value] => some (some value)
  | _ :: _ :: _ => none

/-- The fields of a record in order, `none` where a field is not written. -/
def record? (fields : List String) : Json → Option (List (Option Json))
  | .object members =>
    if members.all (·.1.isSome) then fields.mapM (field? members) else none
  | .array items =>
    if items.length ≤ fields.length then
      some (items.map some ++ List.replicate (fields.length - items.length) none)
    else none
  | _ => none

/-- A field that has to be there, read by `read`. -/
def required? (read : Json → Option α) : Option Json → Option α
  | some value => read value
  | none => none

/-- A field that may be missing, or `null`, which is the same. -/
def optional? (read : Json → Option α) : Option Json → Option (Option α)
  | none | some .null => some none
  | some value => (read value).map some

/-- A list of values, each read by `read`. -/
def list? (read : Json → Option α) : Json → Option (List α)
  | .array items => items.mapM read
  | _ => none

mutual

/-- A value whose objects have distinct names: of several members with one name the last counts. -/
def distinct : Json → Json
  | .array items => .array (distinctItems items)
  | .object members => .object (distinctMembers members)
  | value => value

/-- `distinct` on every item of an array. -/
def distinctItems : List Json → List Json
  | [] => []
  | item :: rest => distinct item :: distinctItems rest

/-- `distinct` on every member of an object that is the last of its name. -/
def distinctMembers : List (Option String × Json) → List (Option String × Json)
  | [] => []
  | (name, value) :: rest =>
    if rest.any (·.1 == name) then distinctMembers rest
    else (name, distinct value) :: distinctMembers rest

end

end Haptics.Json
