import Haptics.Proofs.Scheduler.Starts

/-!
# Which streams the actuator has been given

A stream is given to the actuator in one step, with all packets that have been kept for it, and each
later packet by an order of its own. Everything else that a scheduler does is *calm*: it gives no
stream, lets nobody wait who did not wait before, and takes nobody on to another step (`Calm`).

* `streamed`: the streams that the actuator has taken for a vibration, in order.
* `streamsFor_orders`: what the orders of a step give.
* `Playback.launched_launch`: the stream of a vibration is given once.
* `StartsNothing.calm`: where nothing is started it is calm.
-/

namespace Haptics

/-! ## Streams among orders -/

/-- The stream that an order gives for a vibration. -/
def Order.streamFor? (n : Nat) : Order → Option Stream
  | stream s id => if id = n then some s else none
  | _ => none

/-- The streams that orders give for a vibration, the earliest first. The orders come with the
latest first. -/
def streamsFor (n : Nat) (orders : List Order) : List Stream :=
  (orders.filterMap (Order.streamFor? n)).reverse

section orders

variable {n : Nat}

/-- An order that starts nothing gives no stream. -/
theorem Order.streamFor?_of_owner? {o : Order} (h : o.owner? = none) : o.streamFor? n = none := by
  cases o <;> first | rfl | cases h

/-- What earlier orders give is given first. -/
theorem streamsFor_append (late early : List Order) :
    streamsFor n (late ++ early) = streamsFor n early ++ streamsFor n late := by
  simp only [streamsFor, List.filterMap_append, List.reverse_append]

/-- Streams are given by start orders only. -/
theorem streamsFor_filter (orders : List Order) :
    streamsFor n (orders.filter Order.isStart) = streamsFor n orders := by
  unfold streamsFor
  rw [List.filterMap_filter]
  congr 2
  funext o
  split
  · rfl
  · next hs =>
    rw [Order.streamFor?_of_owner?]
    simpa [Order.isStart] using hs

/-- What has been given before is given first. -/
theorem streamsFor_of_suffix {past orders : List Order} (h : past <:+ orders) :
    streamsFor n past <+: streamsFor n orders := by
  obtain ⟨late, rfl⟩ := h
  rw [streamsFor_append]
  exact List.prefix_append _ _

/-- The streams of a step, with the packets that have been kept. -/
def Step.streams (packets : List Stream) : Step → List Stream
  | stream s => s :: packets
  | _ => []

/-- The packets that have been kept are given for their own vibration only. -/
theorem filterMap_packets (id : Nat) (packets : List Stream) :
    (packets.map fun packet => Order.stream packet id).filterMap (Order.streamFor? n) =
      if n = id then packets else [] := by
  by_cases h : n = id
  · rw [if_pos h, h]
    induction packets with
    | nil => rfl
    | cons packet rest ih => simp [Order.streamFor?, ih]
  · rw [if_neg h, List.filterMap_eq_nil_iff]
    intro o ho
    obtain ⟨packet, -, rfl⟩ := List.mem_map.1 ho
    exact if_neg fun hid => h hid.symm

/-- **A step gives its streams**, and for its own vibration only. -/
theorem filterMap_orders (step : Step) (info : ActuatorInfo) (id : Nat) (packets : List Stream) :
    (step.orders info id packets).filterMap (Order.streamFor? n) =
      if n = id then step.streams packets else [] := by
  cases step with
  | stream s =>
    have hs := filterMap_packets (n := n) id (s :: packets)
    exact hs
  | on durationMs amplitude =>
    simp only [Step.orders, Step.streams, ite_self]
    split <;> rfl
  | off durationMs => simp [Step.orders, Step.streams, Order.streamFor?]
  | prebaked effect => simp [Step.orders, Step.streams, Order.streamFor?]
  | envelope e =>
    simp only [Step.orders, Step.streams, ite_self]
    split <;> rfl

/-- So do its orders, when they are all taken. -/
theorem streamsFor_orders (step : Step) (info : ActuatorInfo) (id : Nat) (packets : List Stream) :
    streamsFor n (step.orders info id packets).reverse =
      if n = id then step.streams packets else [] := by
  rw [streamsFor, List.filterMap_reverse, List.reverse_reverse, filterMap_orders]

/-- Where the orders of a step are not all taken, its streams are given as far as they are. -/
theorem streamsFor_given {step : Step} {info : ActuatorInfo} {id : Nat} {packets : List Stream}
    {given : List Order} (h : given <+: step.orders info id packets) :
    streamsFor n given.reverse <+: if n = id then step.streams packets else [] := by
  rw [streamsFor, List.filterMap_reverse, List.reverse_reverse, ← filterMap_orders step info]
  exact h.filterMap _

end orders

/-! ## A stream is given once -/

/-- The stream that an effect consists of. -/
def Effect.stream? : Effect → Option Stream
  | stream s => some s
  | _ => none

namespace Playback

/-- The streams that are to be given for a vibration that waits. -/
def streams (p : Playback) : List Stream := p.vibration.effect.stream?.toList ++ p.packets

/-- The stream of the vibration, if it has one, is not still to come. -/
def Launched (p : Playback) : Prop :=
  ∀ step cursor, p.nextStep = some (step, cursor) → step.stage ≠ .stream

/-- **A stream is not given again**: behind the step of a stream no other one comes. -/
theorem launched_launch {p : Playback} {step : Step} {cursor : Nat}
    (hn : p.nextStep = some (step, cursor)) (now : Nat) (span : Option Nat) :
    (p.launch step cursor now span).Launched := by
  intro step' cursor' hn' hs
  obtain ⟨s, -, heffect, hcursor, -⟩ := effect_of_nextStep hn' hs
  have hzero : cursor = 0 := hcursor
  have hp : p.vibration.effect = .stream s := heffect
  unfold nextStep at hn
  rw [hp] at hn
  simp only [hzero] at hn
  split at hn
  · cases hn
  · cases hn

end Playback

namespace Scheduler

variable {σ : Type}

/-- The streams that the actuator has taken for a vibration, the earliest first. -/
def streamed (n : Nat) (s : Scheduler σ) : List Stream := streamsFor n s.issued

/-- The streams of a talk come behind those given before. -/
theorem streamed_told (n : Nat) (line : Line σ) (orders : List Order) (s : Scheduler σ) :
    (s.told line orders).streamed n = s.streamed n ++ streamsFor n orders := by
  rw [streamed, issued_told, streamsFor_append, streamed]

/-! ## What is calm -/

/-- A step from one state to another gives no stream, lets nobody wait who did not wait before, and
leaves the motor, if to anybody that has not been told to stop, to whom it belonged, with the same
step in flight and the same step to come. -/
structure Calm (s t : Scheduler σ) : Prop where
  streamed : ∀ n, t.streamed n = s.streamed n
  waiting : ∀ q ∈ t.next, q ∈ s.next
  holding : ∀ p ∈ t.current, p.stopping = false → ∃ p₀ ∈ s.current, p₀.stopping = false ∧
    p.id = p₀.id ∧ p.stage = p₀.stage ∧ p.nextStep = p₀.nextStep

section Calm

variable {c : Context σ} {s t u : Scheduler σ}

/-- What leaves the places alone, or empties them, is calm if it gives no stream. -/
theorem Calm.of_places (hn : ∀ n, t.streamed n = s.streamed n)
    (hw : t.next = s.next ∨ t.next = none) (hh : t.current = s.current ∨ t.current = none) :
    Calm s t where
  streamed := hn
  waiting := by
    intro q hq
    rcases hw with hw | hw
    · rwa [← hw]
    · rw [hw] at hq
      cases hq
  holding := by
    intro p hp hs
    rcases hh with hh | hh
    · rw [hh] at hp
      exact ⟨p, hp, hs, rfl, rfl, rfl⟩
    · rw [hh] at hp
      cases hp

/-- So is what leaves places and orders alone. -/
theorem Calm.of_eq (hi : t.issued = s.issued) (hw : t.next = s.next) (hh : t.current = s.current) :
    Calm s t :=
  .of_places (fun n => congrArg (streamsFor n) hi) (.inl hw) (.inl hh)

/-- To do nothing is calm. -/
theorem Calm.refl (s : Scheduler σ) : Calm s s := .of_eq rfl rfl rfl

/-- Two calm steps are calm together. -/
theorem Calm.trans (h : Calm s t) (h' : Calm t u) : Calm s u where
  streamed n := (h'.streamed n).trans (h.streamed n)
  waiting q hq := h.waiting q (h'.waiting q hq)
  holding := by
    intro p hp hs
    obtain ⟨p₁, hp₁, hs₁, hid₁, hstage₁, hnext₁⟩ := h'.holding p hp hs
    obtain ⟨p₀, hp₀, hs₀, hid₀, hstage₀, hnext₀⟩ := h.holding p₁ hp₁ hs₁
    exact ⟨p₀, hp₀, hs₀, hid₁.trans hid₀, hstage₁.trans hstage₀, hnext₁.trans hnext₀⟩

/-- **Where nothing is started it is calm**: a stream is given by start orders only. -/
theorem StartsNothing.calm (h : StartsNothing s t) : Calm s t where
  streamed n := calc
    t.streamed n = streamsFor n t.startOrders := (streamsFor_filter t.issued).symm
    _ = streamsFor n s.startOrders := by rw [h.startOrders]
    _ = s.streamed n := streamsFor_filter s.issued
  waiting := h.next
  holding p hp hs := ⟨p, h.current ▸ hp, hs, rfl, rfl, rfl⟩

/-- The end of whoever holds the motor leaves the step as it is that is to come. -/
theorem calm_finishCurrent (c : Context σ) (status : Status) (s : Scheduler σ) :
    Calm s (s.finishCurrent c status) where
  streamed n := rfl
  waiting q hq := hq
  holding := by
    intro p hp hs
    obtain ⟨p₀, hp₀, rfl⟩ := Option.map_eq_some_iff.1 hp
    have heffect : (p₀.finish status c.now).vibration.effect = p₀.vibration.effect := by
      unfold Playback.finish Vibration.finish
      split <;> rfl
    refine ⟨p₀, hp₀, hs, p₀.id_finish status c.now, rfl, ?_⟩
    unfold Playback.nextStep
    rw [heffect]
    rfl

/-- So does its failure. -/
theorem calm_failCurrent (c : Context σ) (s : Scheduler σ) : Calm s (s.failCurrent c) :=
  (startsNothing_disconnect s).calm.trans (calm_finishCurrent c .ignoredErrorScheduling _)

/-- The holder of the motor gives it up. -/
theorem calm_dropCurrent (c : Context σ) (s : Scheduler σ) : Calm s (s.dropCurrent c) := by
  unfold dropCurrent
  split
  · exact .refl s
  · exact .of_places (fun _ => rfl) (.inl rfl) (.inr rfl)

end Calm

end Scheduler

end Haptics
