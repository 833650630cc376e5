import Haptics.Failure

/-!
# Patterns

A document describes what is to be felt as *patterns* of *events*. A transient event is a tap; a
continuous event lasts for a while and follows a curve. A document of the first version is one
pattern; a document of the second version is a set of patterns, each with the time at which it
starts.

All times are milliseconds. `Pattern.endTime` is the end of the last event to end, and
`Pattern.playbackMs` estimates how long the pattern takes to play: it looks at the last event alone,
and adds a tail when that event is a tap.
-/

namespace Haptics

/-- The version of a document. -/
inductive Version where
  | one
  | two
  deriving DecidableEq

namespace Version

/-- Reads the number of a version. -/
def ofInt (number : Int) : Except Failure Version :=
  if number = 1 then .ok one
  else if number = 2 then .ok two
  else .error (.unsupportedVersion number)

/-- The number of a version. -/
def number : Version → Nat
  | one => 1
  | two => 2

/-- The number of a version as a word. -/
def word (v : Version) : Word := Word.ofNat v.number

/-- A version comes back from its number. -/
@[simp] theorem ofInt_number (v : Version) : ofInt v.number = .ok v := by
  cases v <;> rfl

/-- Only the number of a version is read as that version. -/
theorem eq_number_of_ofInt {n : Int} {v : Version} (h : ofInt n = .ok v) : n = v.number := by
  unfold ofInt at h
  split at h
  · cases h; simpa [number]
  · split at h
    · cases h; simpa [number]
    · cases h

end Version

/-- A point on the curve of a continuous event. -/
structure CurvePoint where
  /-- When the point is reached, counted from the start of the event. -/
  timeMs : Word
  /-- The intensity there, times 100. -/
  intensity : Word
  /-- The frequency there, from -100 to 100. -/
  frequency : Word
  deriving DecidableEq

/-- What every event has. -/
structure EventHeader where
  /-- The channel of the actuator. -/
  channel : UInt8
  /-- When the event starts, counted from the start of its pattern. -/
  relativeTimeMs : Word
  /-- The intensity, from 0 to 100. -/
  intensity : Word
  /-- The frequency, from 0 to 100. -/
  frequency : Word
  deriving DecidableEq

/-- Something to be felt. -/
inductive Event where
  /-- A tap. -/
  | transient (header : EventHeader)
  /-- A vibration that lasts and follows a curve. -/
  | continuous (header : EventHeader) (durationMs : Word) (curve : List CurvePoint)
  deriving DecidableEq

namespace Event

/-- The word that marks a continuous event. -/
def continuousCode : Word := 0x1000

/-- The word that marks a transient event. -/
def transientCode : Word := 0x1001

/-- What the event has in common with all others. -/
def header : Event → EventHeader
  | transient h => h
  | continuous h _ _ => h

/-- The word that marks an event of this kind. -/
def code : Event → Word
  | transient _ => transientCode
  | continuous _ _ _ => continuousCode

/-- How long the event lasts; a tap takes no time. -/
def durationMs : Event → Word
  | transient _ => 0
  | continuous _ durationMs _ => durationMs

/-- When the event ends, counted from the start of its pattern. -/
def endTime (e : Event) : Int :=
  e.header.relativeTimeMs.toInt + e.durationMs.toInt

/-- Whether the event lasts. -/
def isContinuous : Event → Bool
  | transient _ => false
  | continuous _ _ _ => true

end Event

/-- Events in the order in which they are listed. -/
structure Pattern where
  /-- When the pattern starts, counted from the start of its set. -/
  relativeTimeMs : Word := 0
  /-- The events. -/
  events : List Event := []
  deriving DecidableEq

namespace Pattern

/-- The latest of some times; zero if there is none. -/
def latest : List Int → Int
  | [] => 0
  | t :: rest => rest.foldl max t

/-- The end of the last event to end, counted from the start of the pattern. -/
def endTime (p : Pattern) : Int :=
  latest (p.events.map Event.endTime)

/-- How long the pattern takes to play, judged by its last event: to the end of an event that
lasts, and `tailMs` beyond a tap. -/
def playbackMs (tailMs : Nat) (p : Pattern) : Nat :=
  match p.events.getLast? with
  | some (.continuous h durationMs curve) => (Event.continuous h durationMs curve).endTime.toNat
  | some (.transient h) => h.relativeTimeMs.toInt.toNat + tailMs
  | none => 0

@[simp] theorem latest_nil : latest [] = 0 := rfl

theorem latest_cons (t : Int) (rest : List Int) : latest (t :: rest) = rest.foldl max t := rfl

theorem foldl_max_le_iff {t x : Int} {rest : List Int} :
    rest.foldl max t ≤ x ↔ t ≤ x ∧ ∀ s ∈ rest, s ≤ x := by
  induction rest generalizing t with
  | nil => simp
  | cons s rest ih =>
    rw [List.foldl_cons, ih, Int.max_le, List.forall_mem_cons, and_assoc]

/-- Times that are not negative are over by `x` when each of them is. -/
theorem latest_le_iff {ts : List Int} {x : Int} (h : ∀ t ∈ ts, 0 ≤ t) :
    latest ts ≤ x ↔ 0 ≤ x ∧ ∀ t ∈ ts, t ≤ x := by
  cases ts with
  | nil => simp
  | cons t rest =>
    have ht : 0 ≤ t := h t List.mem_cons_self
    rw [latest_cons, foldl_max_le_iff, List.forall_mem_cons]
    constructor
    · rintro ⟨htx, hrest⟩
      exact ⟨Int.le_trans ht htx, htx, hrest⟩
    · rintro ⟨-, htx, hrest⟩
      exact ⟨htx, hrest⟩

end Pattern

/-- The patterns of one request. -/
structure PatternSet where
  /-- The patterns, in order. -/
  patterns : List Pattern := []
  deriving DecidableEq

/-- How long the set takes to play: the start of its last pattern and the time that one takes. -/
def PatternSet.playbackMs (tailMs : Nat) (s : PatternSet) : Nat :=
  match s.patterns.getLast? with
  | some last => last.relativeTimeMs.toInt.toNat + last.playbackMs tailMs
  | none => 0

/-- A document that has passed all rules of its version. -/
inductive HapticDocument where
  /-- A document of the first version. -/
  | v1 (pattern : Pattern)
  /-- A document of the second version. -/
  | v2 (set : PatternSet)
  deriving DecidableEq

namespace HapticDocument

/-- The version of the document. -/
def version : HapticDocument → Version
  | v1 _ => .one
  | v2 _ => .two

/-- How long the document takes to play. -/
def playbackMs (tailMs : Nat) : HapticDocument → Nat
  | v1 pattern => pattern.playbackMs tailMs
  | v2 set => set.playbackMs tailMs

end HapticDocument

end Haptics
