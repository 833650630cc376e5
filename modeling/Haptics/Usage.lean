/-!
# Who asks for a vibration, and what for

A request carries a *usage* (alarm, touch, media …) and flags. Usages are ordered as listed; the
history of vibrations is kept usage by usage in that order (`Usage.rank`).

* `Attributes.has` says whether all bits of a flag are set;
* `UsageFilter.accepts` says which usages a cancel request reaches;
* `CallState.isCalling` says whether a phone call is under way.
-/

namespace Haptics

/-- What a vibration is for. -/
inductive Usage where
  | unknown
  | alarm
  | ringtone
  | notification
  | communication
  | touch
  | physicalEmulation
  | hardwareFeedback
  | accessibility
  | media
  deriving DecidableEq

namespace Usage

/-- Every usage, in order. -/
def all : List Usage :=
  [unknown, alarm, ringtone, notification, communication, touch, physicalEmulation,
    hardwareFeedback, accessibility, media]

/-- The place of a usage in the order of `Usage.all`. -/
def rank : Usage → Nat
  | unknown => 0
  | alarm => 1
  | ringtone => 2
  | notification => 3
  | communication => 4
  | touch => 5
  | physicalEmulation => 6
  | hardwareFeedback => 7
  | accessibility => 8
  | media => 9

/-- The name of a usage. -/
def name : Usage → String
  | unknown => "Unknown"
  | alarm => "Alarm"
  | ringtone => "Ringtone"
  | notification => "Notification"
  | communication => "Communication"
  | touch => "Touch"
  | physicalEmulation => "PhysicalEmulation"
  | hardwareFeedback => "HardwareFeedback"
  | accessibility => "Accessibility"
  | media => "Media"

/-- The list of usages misses none. -/
theorem mem_all (u : Usage) : u ∈ all := by
  cases u <;> decide

/-- Usages of one rank are the same usage. -/
theorem rank_injective {u v : Usage} (h : u.rank = v.rank) : u = v := by
  cases u <;> cases v <;> simp_all [rank]

end Usage

/-- What a request says about itself: its usage and its flags. -/
structure Attributes where
  /-- What the vibration is for. -/
  usage : Usage := .unknown
  /-- Bits that ask for special treatment. -/
  flags : UInt32 := 0
  deriving DecidableEq

namespace Attributes

/-- The flag that lifts a request above the user's do-not-disturb settings. -/
def bypassInterruptions : UInt32 := 1

/-- Adds flags to those already set. -/
def withFlags (a : Attributes) (flags : UInt32) : Attributes :=
  { a with flags := a.flags ||| flags }

/-- Whether every bit of `flag` is set. -/
def has (a : Attributes) (flag : UInt32) : Bool :=
  a.flags &&& flag == flag

end Attributes

/-- The usages that a cancel request reaches. -/
inductive UsageFilter where
  | all
  | only (usages : List Usage)
  deriving DecidableEq

/-- Whether the filter reaches a usage. -/
def UsageFilter.accepts : UsageFilter → Usage → Bool
  | .all, _ => true
  | .only usages, usage => usages.contains usage

/-- What the telephone is doing. -/
inductive CallState where
  | idle
  | ringing
  | offHook
  deriving DecidableEq

/-- Whether a call is coming in or under way. -/
def CallState.isCalling : CallState → Bool
  | .idle => false
  | .ringing | .offHook => true

/-- The name of a call state. -/
def CallState.name : CallState → String
  | .idle => "Idle"
  | .ringing => "Ringing"
  | .offHook => "OffHook"

end Haptics
