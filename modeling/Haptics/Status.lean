/-!
# The life of a vibration

A vibration is `pending` until its first step is dispatched, then `running`, and ends in one of
the other statuses, which are final. Final statuses fall into three groups: `finished`, the
*cancelled* ones (it was stopped) and the *ignored* ones (it was never let in, or failed).

`Status.isTerminal_iff` says that the three groups exhaust the final statuses.
-/

namespace Haptics

/-- Where a vibration stands, or how it ended. -/
inductive Status where
  | pending
  | running
  | finished
  | cancelledByUser
  | cancelledSuperseded
  | cancelledByScreenOff
  | cancelledBySettingsUpdate
  | ignoredForAlarm
  | ignoredForRingtone
  | ignoredForOngoing
  | ignoredForExternal
  | ignoredSuperseded
  | ignoredAppOps
  | ignoredErrorScheduling
  deriving DecidableEq

namespace Status

/-- Every status, in order. -/
def all : List Status :=
  [pending, running, finished, cancelledByUser, cancelledSuperseded, cancelledByScreenOff,
    cancelledBySettingsUpdate, ignoredForAlarm, ignoredForRingtone, ignoredForOngoing,
    ignoredForExternal, ignoredSuperseded, ignoredAppOps, ignoredErrorScheduling]

/-- The name of a status. -/
def name : Status → String
  | pending => "Pending"
  | running => "Running"
  | finished => "Finished"
  | cancelledByUser => "CancelledByUser"
  | cancelledSuperseded => "CancelledSuperseded"
  | cancelledByScreenOff => "CancelledByScreenOff"
  | cancelledBySettingsUpdate => "CancelledBySettingsUpdate"
  | ignoredForAlarm => "IgnoredForAlarm"
  | ignoredForRingtone => "IgnoredForRingtone"
  | ignoredForOngoing => "IgnoredForOngoing"
  | ignoredForExternal => "IgnoredForExternal"
  | ignoredSuperseded => "IgnoredSuperseded"
  | ignoredAppOps => "IgnoredAppOps"
  | ignoredErrorScheduling => "IgnoredErrorScheduling"

/-- Whether the status is final. -/
def isTerminal : Status → Bool
  | pending | running => false
  | _ => true

/-- Whether the vibration was stopped before its end. -/
def isCancelled : Status → Bool
  | cancelledByUser | cancelledSuperseded | cancelledByScreenOff | cancelledBySettingsUpdate => true
  | _ => false

/-- Whether the vibration was refused or could not be carried out. -/
def isIgnored (s : Status) : Bool :=
  s.isTerminal && !s.isCancelled && s != finished

/-- The list of statuses misses none. -/
theorem mem_all (s : Status) : s ∈ all := by
  cases s <;> decide

/-- A final status is `finished`, a cancellation or a refusal, and nothing else is. -/
theorem isTerminal_iff (s : Status) :
    s.isTerminal = true ↔ s = finished ∨ s.isCancelled = true ∨ s.isIgnored = true := by
  cases s <;> decide

end Status

end Haptics
