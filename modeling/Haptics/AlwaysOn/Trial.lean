import Haptics.Actuator.Clock
import Haptics.AlwaysOn

/-!
# A registry on trial

A registry of always-on effects that gives its orders straight to a motor on the bench, under a
user's settings.
-/

namespace Haptics

/-- A registry, a user's settings, and a trial with a motor. -/
structure AlwaysOnTrial where
  /-- The registry. -/
  registry : AlwaysOn := []
  /-- The user's settings. -/
  settings : Settings := {}
  /-- The trial. -/
  trial : Trial

namespace AlwaysOnTrial

/-- Gives an order to the bench. -/
def issue (o : Order) (t : Trial) : Except Failure Nat × Trial :=
  match t.line.withBench (Bench.perform t.now o) with
  | (answer, line) => (answer, { t with line })

/-- Carries out a request. -/
def apply (r : AlwaysOnRequest) (t : AlwaysOnTrial) : Except Failure Unit × AlwaysOnTrial :=
  match AlwaysOn.apply issue t.settings.policy t.registry r t.trial with
  | (answer, registry, trial) => (answer, { t with registry, trial })

/-- Brings the motor in line with the registry and the settings. -/
def refresh (t : AlwaysOnTrial) : Except Failure Unit × AlwaysOnTrial :=
  match AlwaysOn.refresh issue t.settings.policy t.registry t.trial with
  | (answer, registry, trial) => (answer, { t with registry, trial })

/-- Changes the settings. -/
def change (f : Settings → Settings) (t : AlwaysOnTrial) : AlwaysOnTrial :=
  { t with settings := f t.settings }

/-- Changes the bench. -/
def onBench (f : Bench → Bench) (t : AlwaysOnTrial) : AlwaysOnTrial :=
  { t with trial := { t.trial with line := (t.trial.line.withBench fun b => ((), f b)).2 } }

/-- The commands that the motor has obeyed since they were last asked for. -/
def news (t : AlwaysOnTrial) : List Command × AlwaysOnTrial :=
  match t.trial.news with
  | ((commands, _), trial) => (commands, { t with trial })

end AlwaysOnTrial

end Haptics
