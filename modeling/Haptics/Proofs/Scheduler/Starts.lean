import Haptics.Proofs.Scheduler.Conduct
import Haptics.Proofs.Scheduler.Drive

/-!
# Where nothing is started

The start orders among all orders that an actuator has taken tell what it has been made to do
(`startOrders`). Most of what a scheduler does gives none, leaves whoever holds the motor as he is,
and lets nobody wait who did not wait before (`StartsNothing`).

It is said of the pieces first, and then of whatever leaves the holder alone: so it holds of every
errand and of every aside that an input comes down to.

* `startsNothing_activateExternal` and the like: the pieces of work.
* `Errand.startsNothing`, `Asides.startsNothing`: what leaves the holder of the motor alone.
-/

namespace Haptics.Scheduler

variable {σ : Type} {c : Context σ} {b : Bool} {s t u : Scheduler σ}

/-! ## Start orders -/

/-- The start orders that the actuator has taken, the latest first. -/
def startOrders (s : Scheduler σ) : List Order := s.issued.filter Order.isStart

/-- Where nothing is done no start order is given. -/
theorem startOrders_of_journal (h : t.journal = s.journal) : t.startOrders = s.startOrders := by
  unfold startOrders issued
  rw [h]

/-- Whoever a start order was for has been started. -/
theorem mem_starts_of_mem_startOrders {o : Order} (ho : o ∈ s.startOrders) {id : Nat}
    (hid : o.owner? = some id) : id ∈ s.starts :=
  List.mem_filterMap.2 ⟨o, List.mem_of_mem_filter ho, hid⟩

/-- The start orders of a talk are behind the earlier ones. -/
theorem startOrders_told (line : Line σ) (orders : List Order) (s : Scheduler σ) :
    (s.told line orders).startOrders = orders.filter Order.isStart ++ s.startOrders := by
  unfold startOrders
  rw [issued_told, List.filter_append]

/-- A deed that is no order is no start order. -/
theorem startOrders_of_deed {d : Deed} (hd : d.issued? = none) (h : t.journal = d :: s.journal) :
    t.startOrders = s.startOrders := by
  unfold startOrders issued
  rw [h, List.filterMap_cons_none hd]

/-! ## Where nothing is started -/

/-- No start order is given, whoever holds the motor stays as he is, and nobody new waits. -/
structure StartsNothing (s t : Scheduler σ) : Prop where
  current : t.current = s.current
  next : ∀ q ∈ t.next, q ∈ s.next
  startOrders : t.startOrders = s.startOrders

/-- What leaves the places and the journal alone starts nothing. -/
theorem StartsNothing.of_journal (hc : t.current = s.current) (hn : t.next = s.next)
    (hj : t.journal = s.journal) : StartsNothing s t :=
  ⟨hc, fun _ hq => hn ▸ hq, startOrders_of_journal hj⟩

/-- To do nothing starts nothing. -/
theorem StartsNothing.refl (s : Scheduler σ) : StartsNothing s s := .of_journal rfl rfl rfl

/-- Two pieces of work that start nothing start nothing together. -/
theorem StartsNothing.trans (h : StartsNothing s t) (h' : StartsNothing t u) : StartsNothing s u :=
  ⟨h'.current.trans h.current, fun q hq => h.next q (h'.next q hq),
    h'.startOrders.trans h.startOrders⟩

/-- A vibration that is gone is in the journal, which is no order. -/
theorem startsNothing_retire (v : Vibration) (s : Scheduler σ) : StartsNothing s (s.retire v) :=
  ⟨rfl, fun _ hq => hq, startOrders_of_deed rfl rfl⟩

/-- A talk starts nothing if none of its orders does. -/
theorem startsNothing_told (line : Line σ) {orders : List Order}
    (ho : ∀ o ∈ orders, o.isStart = false) (s : Scheduler σ) :
    StartsNothing s (s.told line orders) := by
  refine ⟨rfl, fun _ hq => hq, ?_⟩
  rw [startOrders_told, List.filter_eq_nil_iff.2 fun o hm => by simp [ho o hm]]
  rfl

/-- To hang up starts nothing. -/
theorem startsNothing_disconnect (s : Scheduler σ) : StartsNothing s s.disconnect :=
  startsNothing_told s.line.reset (List.forall_mem_nil _) s

/-- An order that is no start order starts nothing, taken or refused. -/
theorem Dispatch.startsNothing {o : Order} {answer : Except Failure Nat × Scheduler σ}
    (h : Dispatch c o s answer) (ho : o.isStart = false) : StartsNothing s answer.2 := by
  cases h with
  | taken ht reported => exact startsNothing_told _ (by simpa using ho) s
  | refused ht e => exact startsNothing_told _ (List.forall_mem_nil _) s

/-- The vibration that waits goes without having been started. -/
theorem startsNothing_dropNext (c : Context σ) (status : Status) (s : Scheduler σ) :
    StartsNothing s (s.dropNext c status) := by
  unfold dropNext
  split
  · exact .refl s
  · have hn : StartsNothing s { s with next := none } :=
      ⟨rfl, fun _ hq => (by cases hq), startOrders_of_journal rfl⟩
    exact hn.trans (startsNothing_retire ..)

/-! ## Sessions -/

/-- The end of a session starts nothing. -/
theorem startsNothing_dismiss (c : Context σ) (status : Status) (e : ExternalSession)
    (s : Scheduler σ) : StartsNothing s (s.dismiss c status e) :=
  ⟨rfl, fun _ hq => hq, startOrders_of_deed rfl rfl⟩

/-- A session that takes the motor starts nothing by itself. -/
theorem startsNothing_seize (e : ExternalSession) (s : Scheduler σ) :
    StartsNothing s (s.seize e) :=
  ⟨rfl, fun _ hq => hq, startOrders_of_deed rfl rfl⟩

/-- The motor that a session gives back is not started. -/
theorem startsNothing_endExternal (c : Context σ) (status : Status) (s : Scheduler σ) :
    StartsNothing s (s.endExternal c status) := by
  have hi := (dispatch_issueIfConnected c (.externalControl false) s).startsNothing rfl
  unfold endExternal
  split
  · exact .refl s
  · split
    · exact hi.trans (startsNothing_dismiss ..)
    · exact startsNothing_dismiss ..

/-- The session that waits may take the motor, and nothing is started. -/
theorem startsNothing_activateExternal (c : Context σ) (s : Scheduler σ) :
    StartsNothing s (s.activateExternal c) := by
  have h := activated_activateExternal c s
  generalize s.activateExternal c = t at h
  cases h with
  | idle h => exact .refl s
  | seized hc he ha ht =>
    exact (startsNothing_told _ (by simp [Order.isStart, Order.owner?]) s).trans
      (startsNothing_seize ..)
  | failed hc he ha ht =>
    exact (startsNothing_told _ (List.forall_mem_nil _) s).trans (startsNothing_dismiss ..)

/-- A session that is put in place waits, or takes over from another one. -/
theorem startsNothing_install (c : Context σ) (e : ExternalSession) (s : Scheduler σ) :
    StartsNothing s (s.install c e) := by
  unfold install
  split
  · exact .of_journal rfl rfl rfl
  · exact (startsNothing_dismiss ..).trans (.of_journal rfl rfl rfl)

/-! ## Errands and asides -/

/-- **An errand starts nothing.** -/
theorem Errand.startsNothing (h : Errand c b s t) : StartsNothing s t := by
  cases h with
  | talked ht ho hs =>
    refine startsNothing_told _ (fun o hm => ?_) s
    rw [Order.isStart, (ho o hm).1]
    rfl
  | noted callState alwaysOn => exact .of_journal rfl rfl rfl
  | ended hb hs => exact startsNothing_endExternal ..

/-- **Whatever leaves the holder of the motor alone starts nothing.** -/
theorem Asides.startsNothing (h : Asides c b s t) : StartsNothing s t := by
  induction h with
  | refl => exact .refl s
  | tail _ ha ih =>
    refine ih.trans ?_
    cases ha with
    | errand he => exact he.startsNothing
    | dropped hs => exact startsNothing_dropNext ..

end Haptics.Scheduler
