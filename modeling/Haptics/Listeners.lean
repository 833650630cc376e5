/-!
# Listeners

Listeners hear whether something vibrates. One hears the state at once when it registers, and from
then on every change, in order, until it is taken off the list. Hearing is modelled by *deliveries*:
each operation gives the deliveries it makes, a listener's label and the state it hears.
-/

namespace Haptics

/-- The listeners of type `α`, and the state that they know. -/
structure Listeners (α : Type) where
  /-- The number of the next listener. -/
  nextId : Nat := 1
  /-- The listeners under their numbers, in the order of their registration. -/
  entries : List (Nat × α) := []
  /-- The state that the listeners know. -/
  vibrating : Bool := false
  deriving DecidableEq

namespace Listeners

variable {α : Type}

/-- Registers a listener: its number, and what it hears at once. -/
def register (l : Listeners α) (listener : α) : Nat × List (α × Bool) × Listeners α :=
  (l.nextId, [(listener, l.vibrating)],
    { l with nextId := l.nextId + 1, entries := l.entries ++ [(l.nextId, listener)] })

/-- Takes a listener off the list; whether it was on it. -/
def unregister (l : Listeners α) (id : Nat) : Bool × Listeners α :=
  (l.entries.any (·.1 = id), { l with entries := l.entries.filter (·.1 ≠ id) })

/-- Tells everyone the state, if it is a new one. -/
def notify (l : Listeners α) (vibrating : Bool) : List (α × Bool) × Listeners α :=
  if l.vibrating = vibrating then ([], l)
  else (l.entries.map fun entry => (entry.2, vibrating), { l with vibrating })

/-- How many listeners there are. -/
def size (l : Listeners α) : Nat := l.entries.length

/-- The list shown to a reader. -/
def describe (l : Listeners α) : String :=
  "ListenerRegistry \x7b listeners: " ++ toString l.size ++ " \x7d"

/-- After `notify` everyone knows the state. -/
@[simp] theorem vibrating_notify (l : Listeners α) (vibrating : Bool) :
    (l.notify vibrating).2.vibrating = vibrating := by
  unfold notify
  split
  · assumption
  · rfl

/-- A state that everyone knows is not told again. -/
theorem notify_of_known {l : Listeners α} {vibrating : Bool} (h : l.vibrating = vibrating) :
    l.notify vibrating = ([], l) :=
  if_pos h

end Listeners

end Haptics
