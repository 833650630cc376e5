import Haptics.Compile
import Haptics.Toml.Printer
import Haptics.Toml.Reader

/-!
# Configuration

How long the scheduler waits, how much it remembers and what it is called. A configuration is
written and read as a TOML document; what a document leaves out has its default, and what it says
beyond that is not looked at.

The waits and limits must be positive and the name must not be empty (`Config.check`); of several
faults the first in the order of the fields is reported.
-/

namespace Haptics

/-- How a scheduler is set up. -/
structure Config where
  /-- How long an external source waits for the motor, in milliseconds. -/
  cancelWaitMs : Nat := 5000
  /-- How long a stopped stream may take to come to its end, in milliseconds. -/
  cancelGraceMs : Nat := 1000
  /-- How many vibrations are kept for each usage. -/
  historyLimit : Nat := 50
  /-- How many external sessions are kept. -/
  externalHistoryLimit : Nat := 50
  /-- How long an effect from the hardware takes if the hardware does not say, in milliseconds. -/
  prebakedFallbackMs : Nat := 30
  /-- What a tap at the end adds to the length of a document, in milliseconds. -/
  transientTailMs : Nat := defaultTailMs
  /-- The name of the scheduler's worker. -/
  workerName : String := "vibration-worker"
  deriving DecidableEq

/-- What is wrong with a configuration. -/
inductive ConfigError where
  /-- The document cannot be read, or a value in it has the wrong type. -/
  | unreadable
  /-- A value has no written form. -/
  | unprintable
  /-- A wait or a limit is zero. -/
  | notPositive (name : String)
  /-- The worker has no name. -/
  | nameEmpty
  /-- Anything else, in words. -/
  | other (text : String)
  deriving DecidableEq

/-- The wording of a configuration error. -/
def ConfigError.text : ConfigError → String
  | .unreadable => "unreadable configuration"
  | .unprintable => "value out of range"
  | .notPositive name => name ++ " must be positive"
  | .nameEmpty => "worker_name must not be empty"
  | .other text => text

namespace Config

/-- The numbers that must be positive, with their names, in the order of the fields. -/
def positives (c : Config) : List (String × Nat) :=
  [("cancel_wait_ms", c.cancelWaitMs), ("cancel_grace_ms", c.cancelGraceMs),
    ("history_limit", c.historyLimit), ("external_history_limit", c.externalHistoryLimit),
    ("prebaked_fallback_ms", c.prebakedFallbackMs)]

/-- Checks the numbers and the name. -/
def check (c : Config) : Except ConfigError Unit :=
  match c.positives.find? (·.2 = 0) with
  | some (name, _) => .error (.notPositive name)
  | none => if c.workerName.isEmpty then .error .nameEmpty else .ok ()

/-- A configuration passes if its waits and limits are positive and its worker has a name. -/
theorem check_eq_ok_iff (c : Config) :
    c.check = .ok () ↔ (∀ p ∈ c.positives, 0 < p.2) ∧ c.workerName.isEmpty = false := by
  unfold check
  cases h : c.positives.find? (·.2 = 0) with
  | some p =>
    have hz : p.2 = 0 := by simpa using List.find?_some h
    have hm := List.mem_of_find?_eq_some h
    simp only [reduceCtorEq, false_iff, not_and]
    intro hp
    have := hp p hm
    omega
  | none =>
    have hp : ∀ p ∈ c.positives, 0 < p.2 := by
      intro p hm
      have := List.find?_eq_none.1 h p hm
      simp only [decide_eq_true_eq] at this
      omega
    cases c.workerName.isEmpty with
    | true => simp
    | false => simpa using fun name value hm => hp (name, value) hm

/-- The configuration with other waits. -/
def withWaits (c : Config) (cancelWaitMs cancelGraceMs : Nat) : Config :=
  { c with cancelWaitMs, cancelGraceMs }

/-- The number under a key, or its default. -/
def number? (entries : Toml.Entries) (key : String) (default : Nat) : Option Nat :=
  match entries.get? key with
  | none => some default
  | some (.integer n) => if 0 ≤ n then some n.toNat else none
  | some _ => none

/-- The text under a key, or its default. -/
def text? (entries : Toml.Entries) (key : String) (default : String) : Option String :=
  match entries.get? key with
  | none => some default
  | some (.string s) => some s
  | some _ => none

/-- The configuration that the entries of a document give. -/
def ofEntries? (entries : Toml.Entries) : Option Config := do
  let standard : Config := {}
  let cancelWaitMs ← number? entries "cancel_wait_ms" standard.cancelWaitMs
  let cancelGraceMs ← number? entries "cancel_grace_ms" standard.cancelGraceMs
  let historyLimit ← number? entries "history_limit" standard.historyLimit
  let externalHistoryLimit ←
    number? entries "external_history_limit" standard.externalHistoryLimit
  let prebakedFallbackMs ← number? entries "prebaked_fallback_ms" standard.prebakedFallbackMs
  let transientTailMs ← number? entries "transient_tail_ms" standard.transientTailMs
  let workerName ← text? entries "worker_name" standard.workerName
  return { cancelWaitMs, cancelGraceMs, historyLimit, externalHistoryLimit, prebakedFallbackMs,
           transientTailMs, workerName }

/-- The entries that stand for a configuration. -/
def entries (c : Config) : Toml.Entries :=
  [("cancel_wait_ms", .integer c.cancelWaitMs), ("cancel_grace_ms", .integer c.cancelGraceMs),
    ("history_limit", .integer c.historyLimit),
    ("external_history_limit", .integer c.externalHistoryLimit),
    ("prebaked_fallback_ms", .integer c.prebakedFallbackMs),
    ("transient_tail_ms", .integer c.transientTailMs), ("worker_name", .string c.workerName)]

/-- Reads and checks a configuration. -/
def ofToml (text : String) : Except ConfigError Config :=
  match (Toml.read? text).bind ofEntries? with
  | none => .error .unreadable
  | some c => c.check.map fun _ => c

/-- Reads a configuration from a file with the given content, which may not exist. -/
def ofFile : (content : Option String) → Except ConfigError Config
  | none => .error .unreadable
  | some text => ofToml text

/-- Writes a configuration, checked or not. -/
def toToml (c : Config) : Except ConfigError String :=
  match Toml.print? c.entries with
  | some text => .ok text
  | none => .error .unprintable

end Config

end Haptics
