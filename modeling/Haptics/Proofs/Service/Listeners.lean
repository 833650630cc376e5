import Haptics.Proofs.Listeners
import Haptics.Proofs.Service.Affairs

/-!
# The listeners of a service

A service tells its listeners whether something vibrates each time its scheduler has a new state.
What it does with them is a sequence of operations as any other (`Service.Listens`), so that each
of them hears what every listener hears.

* `listens_undergoAll`: the listeners of a service, in every course of affairs.
-/

namespace Haptics

namespace Service

open Listeners

variable {σ α : Type} {c : Context σ} {s t : Service σ α}

/-- What has been done with the listeners of a service is a sequence of operations, what they have
been told is what these deliver, and they know whether something vibrates. -/
structure Listens (s : Service σ α) : Prop where
  performed : ∃ ops, s.listeners = ({} : Listeners α).performAll ops ∧
    s.told = ({} : Listeners α).deliveries ops
  known : s.listeners.vibrating = s.scheduler.isVibrating

/-- One more operation is one more of the sequence. -/
theorem Listens.of_perform (h : s.Listens) (o : Operation α)
    (hl : t.listeners = (s.listeners.perform o).2)
    (ht : t.told = s.told ++ (s.listeners.perform o).1)
    (hk : t.listeners.vibrating = t.scheduler.isVibrating) : t.Listens := by
  obtain ⟨ops, hlisteners, htold⟩ := h.performed
  refine ⟨⟨ops ++ [o], ?_, ?_⟩, hk⟩
  · rw [performAll_append, hl, hlisteners]
    rfl
  · rw [deliveries_append, ht, htold, hlisteners]
    exact congrArg _ (List.append_nil _).symm

/-- What does not concern the listeners leaves them as they are. -/
theorem Listens.of_eq (h : s.Listens) (hl : t.listeners = s.listeners) (ht : t.told = s.told)
    (hv : t.scheduler.isVibrating = s.scheduler.isVibrating) : t.Listens :=
  ⟨by rw [hl, ht]; exact h.performed, by rw [hl, hv]; exact h.known⟩

/-- Everyone is told whether something vibrates when the scheduler has a new state. -/
theorem Listens.update (h : s.Listens) (scheduler : Scheduler σ) : (s.update scheduler).Listens :=
  h.of_perform (.notify scheduler.isVibrating) rfl rfl (vibrating_notify ..)

/-- A call tells everyone, or the service has stopped. -/
theorem Listens.call {β : Type} (h : s.Listens) (f : Scheduler σ → β × Scheduler σ) :
    (s.call f).2.Listens := by
  unfold Service.call
  split
  · exact h.update _
  · exact h

/-- So does a request for a vibration. -/
theorem Listens.vibrate (h : s.Listens) (c : Context σ) (r : VibrationRequest) :
    (s.vibrate c r).2.Listens := by
  have hnext : ({ s with nextVibration := s.nextVibration + 1 } : Service σ α).Listens :=
    h.of_eq rfl rfl rfl
  have hcall := hnext.call fun t => t.vibrate c (.ofRequest s.nextVibration r)
  unfold Service.vibrate
  split
  · exact h
  · simp only
    split <;> next hs => rwa [hs] at hcall

/-- So does an event. -/
theorem Listens.handleEvent? (h : s.Listens) (ht : s.handleEvent? c = some t) : t.Listens := by
  unfold Service.handleEvent? at ht
  split at ht
  · obtain ⟨⟨event, scheduler⟩, -, rfl⟩ := Option.map_eq_some_iff.1 ht
    exact h.update _
  · cases ht

/-- So does a deadline. -/
theorem Listens.handleDeadline (h : s.Listens) (c : Context σ) : (s.handleDeadline c).Listens := by
  unfold Service.handleDeadline
  split
  · exact h.update _
  · exact h

/-- So does the end. -/
theorem Listens.shutdown (h : s.Listens) (c : Context σ) : (s.shutdown c).Listens := by
  obtain ⟨-, hcurrent, -, hexternal⟩ := Scheduler.stopAll_spec c s.scheduler
  have hsilent : (s.scheduler.stopAll c).isVibrating = false := by
    rw [Scheduler.isVibrating, hcurrent, hexternal]
    rfl
  unfold Service.shutdown
  split
  · exact h.of_perform (.notify false) rfl rfl ((vibrating_notify ..).trans hsilent.symm)
  · exact h

/-- **An affair of a service is for its listeners an operation**, or nothing. -/
theorem Listens.undergo (h : s.Listens) (c : Context σ) (a : Affair σ α) :
    (s.undergo c a).Listens := by
  cases hi : a.input? with
  | some input =>
    obtain ⟨β, f, hf, -⟩ := exists_call_of_input? hi c s
    rw [hf]
    exact h.call f
  | none =>
    cases a with
    | moved actuator => exact h.of_eq rfl rfl rfl
    | heard =>
      change ((s.handleEvent? c).getD s).Listens
      cases he : s.handleEvent? c with
      | none => exact h
      | some t => exact h.handleEvent? he
    | deadline => exact h.handleDeadline c
    | vibrate r => exact h.vibrate c r
    | dump => exact h.call _
    | takeSequence => exact h.of_eq rfl rfl rfl
    | takeToken => exact h.of_eq rfl rfl rfl
    | register listener => exact h.of_perform (.register listener) rfl rfl h.known
    | unregister id =>
      exact h.of_perform (.unregister id) rfl (List.append_nil _).symm h.known
    | shutdown => exact h.shutdown c
    | _ => cases hi

/-- **What listeners are told by a service**, in every course of affairs: its listeners are what
operations have made of them, and have been told what these deliver; and the state that everyone
knows is whether a vibration holds the motor or a session has it. -/
theorem listens_undergoAll {config : Config} {actuator : σ}
    (hs : create config actuator = .ok s) (c : Context σ) (occasions : List (Occasion σ α)) :
    (s.undergoAll c occasions).Listens := by
  have hstart : s.Listens := by
    unfold create at hs
    cases hcheck : config.check with
    | error e => rw [hcheck] at hs; cases hs
    | ok u =>
      rw [hcheck] at hs
      cases hs
      exact ⟨⟨[], rfl, rfl⟩, rfl⟩
  clear hs
  induction occasions generalizing s with
  | nil => exact hstart
  | cons o rest ih => exact ih (hstart.undergo _ o.affair)

end Service

end Haptics
