/-!
# Tables

A table maps keys to values and lists them in the order of its keys. It is a list of pairs; a key is
looked up from the front, and is inserted before the first key that comes after it.

The three operations are pinned down by what `get?` finds: `get?_insert`, `get?_erase` and
`get?_nil`, which hold for every list of pairs, in order or not.
-/

namespace Haptics

/-- Keys with an order in which a table lists them. -/
class Ranked (κ : Type) where
  /-- Whether the first key is listed before the second. -/
  before : κ → κ → Bool

instance : Ranked Nat := ⟨fun a b => a < b⟩

instance : Ranked Int := ⟨fun a b => a < b⟩

instance : Ranked UInt8 := ⟨fun a b => a < b⟩

/-- Values under keys. -/
abbrev Table (κ ν : Type) := List (κ × ν)

namespace Table

variable {κ ν : Type} [DecidableEq κ]

/-- The value under a key. -/
def get? : Table κ ν → κ → Option ν
  | [], _ => none
  | (k, v) :: rest, key => if k = key then some v else get? rest key

/-- Whether there is a value under a key. -/
def has (t : Table κ ν) (key : κ) : Bool :=
  (t.get? key).isSome

/-- Puts a value under a key, in place of the one that is there. -/
def insert [Ranked κ] : Table κ ν → κ → ν → Table κ ν
  | [], key, value => [(key, value)]
  | (k, v) :: rest, key, value =>
    if k = key then (key, value) :: rest
    else if Ranked.before key k then (key, value) :: (k, v) :: rest
    else (k, v) :: insert rest key value

/-- Takes a key and its value out. -/
def erase (t : Table κ ν) (key : κ) : Table κ ν :=
  t.filter fun entry => entry.1 ≠ key

/-- A table of pairs; of several values under one key the last counts. -/
def ofList [Ranked κ] (entries : List (κ × ν)) : Table κ ν :=
  entries.foldl (fun t entry => t.insert entry.1 entry.2) []

/-- The keys in order. -/
def keys (t : Table κ ν) : List κ :=
  t.map (·.1)

/-- The values in the order of their keys. -/
def values (t : Table κ ν) : List ν :=
  t.map (·.2)

@[simp] theorem get?_nil (key : κ) : get? ([] : Table κ ν) key = none := rfl

theorem get?_cons (k : κ) (v : ν) (rest : Table κ ν) (key : κ) :
    get? ((k, v) :: rest) key = if k = key then some v else get? rest key := rfl

/-- What is found after an insertion: the new value under its key, all else as before. -/
theorem get?_insert [Ranked κ] (t : Table κ ν) (key other : κ) (value : ν) :
    (t.insert key value).get? other = if key = other then some value else t.get? other := by
  induction t with
  | nil => rfl
  | cons entry rest ih =>
    obtain ⟨k, v⟩ := entry
    unfold insert
    split
    · next hk => subst hk; simp only [get?_cons]; split <;> rfl
    · next hk =>
      split
      · simp only [get?_cons]
      · simp only [get?_cons, ih]
        split
        · next hko => subst hko; rw [if_neg (Ne.symm hk)]
        · rfl

/-- What is found after a removal: nothing under the key, all else as before. -/
theorem get?_erase (t : Table κ ν) (key other : κ) :
    (t.erase key).get? other = if key = other then none else t.get? other := by
  induction t with
  | nil => simp [erase]
  | cons entry rest ih =>
    obtain ⟨k, v⟩ := entry
    unfold erase at ih ⊢
    by_cases hk : k = key
    · subst hk
      simp only [List.filter_cons, ne_eq, not_true_eq_false, decide_false, Bool.false_eq_true,
        if_false, ih, get?_cons]
      split <;> rfl
    · simp only [List.filter_cons, ne_eq, hk, not_false_eq_true, decide_true, if_true, get?_cons,
        ih]
      split
      · next hko => subst hko; rw [if_neg (Ne.symm hk)]
      · rfl

end Table

end Haptics
