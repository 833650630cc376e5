import Haptics.External
import Haptics.Table
import Haptics.Vibration

/-!
# The history of vibrations

Vibrations that have ended are kept for a while: up to a limit for every usage, and sessions of
external sources up to a limit of their own. Where the limit is reached the oldest goes.

`History.recent_record` says what a usage shows after a vibration has been recorded.
-/

namespace Haptics

instance : Ranked Usage := ⟨fun a b => a.rank < b.rank⟩

/-- What is kept of the vibrations and sessions that have ended. -/
structure History where
  /-- How many vibrations are kept for each usage. -/
  limit : Nat
  /-- How many sessions are kept. -/
  externalLimit : Nat
  /-- The vibrations of each usage, oldest first. -/
  byUsage : Table Usage (List VibrationInfo) := []
  /-- The sessions, oldest first. -/
  externals : List ExternalInfo := []
  deriving DecidableEq

namespace History

/-- Adds an item behind a list and drops items in front until the list keeps the limit. -/
def push {α : Type} (limit : Nat) (items : List α) (item : α) : List α :=
  (items ++ [item]).drop (items.length + 1 - limit)

/-- The vibrations kept for a usage, oldest first. -/
def recent (h : History) (usage : Usage) : List VibrationInfo :=
  (h.byUsage.get? usage).getD []

/-- Keeps a vibration that has ended. -/
def record (h : History) (info : VibrationInfo) : History :=
  { h with byUsage := h.byUsage.insert info.usage (push h.limit (h.recent info.usage) info) }

/-- Keeps a session that has ended. -/
def recordExternal (h : History) (info : ExternalInfo) : History :=
  { h with externals := push h.externalLimit h.externals info }

/-- All vibrations kept, usage by usage. -/
def kept (h : History) : List VibrationInfo :=
  h.byUsage.values.flatten

/-- The vibration of a number, if it is kept. -/
def find? (h : History) (id : Nat) : Option VibrationInfo :=
  h.kept.find? (·.id = id)

/-- All vibrations kept, in the order of their numbers. -/
def all (h : History) : List VibrationInfo :=
  h.kept.mergeSort fun a b => a.id ≤ b.id

/-- How many vibrations are kept. -/
def size (h : History) : Nat := h.kept.length

/-- A list under its limit only grows by the item. -/
theorem push_of_lt {α : Type} {limit : Nat} {items : List α} (h : items.length < limit) (item : α) :
    push limit items item = items ++ [item] := by
  have : items.length + 1 - limit = 0 := by omega
  simp [push, this]

/-- A list keeps its limit. -/
theorem length_push_le {α : Type} (limit : Nat) (items : List α) (item : α) :
    (push limit items item).length ≤ limit := by
  simp only [push, List.length_drop, List.length_append, List.length_singleton]
  omega

/-- With a positive limit the item itself is kept. -/
theorem mem_push {α : Type} {limit : Nat} (h : 0 < limit) (items : List α) (item : α) :
    item ∈ push limit items item := by
  unfold push
  rw [List.drop_append_of_le_length (by omega)]
  exact List.mem_append_right _ (List.mem_singleton.2 rfl)

/-- A recorded vibration joins those of its usage; the others stay. -/
theorem recent_record (h : History) (info : VibrationInfo) (usage : Usage) :
    (h.record info).recent usage =
      if info.usage = usage then push h.limit (h.recent info.usage) info else h.recent usage := by
  simp only [recent, record, Table.get?_insert]
  split <;> rfl

end History

end Haptics
