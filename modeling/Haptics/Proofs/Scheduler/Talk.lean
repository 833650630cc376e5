import Haptics.Scheduler.Run

/-!
# What is said over the line

Whatever a scheduler does with its actuator is a *talk*: it connects, hangs up and gives orders, of
which the actuator takes some (`Talk`). A talk changes nothing of the scheduler but its line, and
adds the orders taken to the journal (`Scheduler.told`).

* `dispatch_issue`, `dispatch_issueIfConnected`, `dispatch_reachAndIssue`: a single order is taken
  and is in the journal, or it is refused and is not (`Dispatch`).
* `dispatchAll_issueAll`: orders in turn are all taken, or those up to the one refused are
  (`DispatchAll`).
* `chat_apply`, `chat_refresh`: the always-on registry gives orders about always-on effects only
  (`Chat`).
-/

namespace Haptics

/-- Whether an order is about always-on effects. -/
def Order.isAlwaysOn : Order → Bool
  | alwaysOnEnable _ _ _ | alwaysOnDisable _ _ => true
  | _ => false

namespace Scheduler

variable {σ : Type}

/-! ## Talks -/

/-- A line, the orders that the actuator has then taken over it, the latest first, and the line
afterwards. -/
inductive Talk (c : Context σ) : Line σ → List Order → Line σ → Prop where
  | silence (l : Line σ) : Talk c l [] l
  | reach {l m : Line σ} {orders : List Order} :
      Talk c l orders m → Talk c l orders (m.reach c.device).2
  | reset {l m : Line σ} {orders : List Order} :
      Talk c l orders m → Talk c l orders m.reset
  | taken {l m : Line σ} {orders : List Order} {o : Order} {reported : Nat} {a : σ} :
      Talk c l orders m → c.device.perform c.now o m.actuator = (.ok reported, a) →
      Talk c l (o :: orders) { m with actuator := a }
  | refused {l m : Line σ} {orders : List Order} {o : Order} {e : Failure} {a : σ} :
      Talk c l orders m → c.device.perform c.now o m.actuator = (.error e, a) →
      Talk c l orders { m with actuator := a }

/-- A talk goes on where another has ended. -/
theorem Talk.trans {c : Context σ} {l m n : Line σ} {first second : List Order}
    (h : Talk c l first m) (h' : Talk c m second n) : Talk c l (second ++ first) n := by
  induction h' with
  | silence => exact h
  | reach _ ih => exact .reach ih
  | reset _ ih => exact .reset ih
  | taken _ hp ih => exact .taken ih hp
  | refused _ hp ih => exact .refused ih hp

/-- The scheduler after a talk. -/
def told (line : Line σ) (orders : List Order) (s : Scheduler σ) : Scheduler σ :=
  { s with line, journal := orders.map .issued ++ s.journal }

section told

variable (line : Line σ) (orders : List Order) (s : Scheduler σ)

/-- The line is the one after the talk. -/
@[simp] theorem line_told : (s.told line orders).line = line := rfl

/-- A talk leaves the holder of the motor alone. -/
@[simp] theorem current_told : (s.told line orders).current = s.current := rfl

/-- A talk leaves whoever waits alone. -/
@[simp] theorem next_told : (s.told line orders).next = s.next := rfl

/-- A talk leaves the session alone. -/
@[simp] theorem external_told : (s.told line orders).external = s.external := rfl

/-- The orders taken are in the journal. -/
@[simp] theorem journal_told :
    (s.told line orders).journal = orders.map .issued ++ s.journal := rfl

/-- Two talks in turn are one. -/
@[simp] theorem told_told (line' : Line σ) (orders' : List Order) :
    (s.told line orders).told line' orders' = s.told line' (orders' ++ orders) := by
  simp [told]

end told

/-- To connect is a talk without orders. -/
theorem reach_eq (c : Context σ) (s : Scheduler σ) :
    s.reach c = ((s.line.reach c.device).1, s.told (s.line.reach c.device).2 []) := rfl

/-- To hang up is a talk without orders. -/
theorem disconnect_eq (s : Scheduler σ) : s.disconnect = s.told s.line.reset [] := rfl

/-! ## Single orders -/

/-- What becomes of an order: it is taken, or it is refused. -/
inductive Dispatch (c : Context σ) (o : Order) (s : Scheduler σ) :
    Except Failure Nat × Scheduler σ → Prop where
  | taken {line : Line σ} (h : Talk c s.line [o] line) (reported : Nat) :
      Dispatch c o s (.ok reported, s.told line [o])
  | refused {line : Line σ} (h : Talk c s.line [] line) (e : Failure) :
      Dispatch c o s (.error e, s.told line [])

/-- An order that is given is dispatched. -/
theorem dispatch_issue (c : Context σ) (o : Order) (s : Scheduler σ) :
    Dispatch c o s (s.issue c o) := by
  rcases h : c.device.perform c.now o s.line.actuator with ⟨e | reported, a⟩
  · rw [issue_of_error h]
    exact .refused (.refused (.silence _) h) e
  · rw [issue_of_ok h]
    exact .taken (.taken (.silence _) h) reported

/-- An order after a talk without orders is dispatched as if it were the first word. -/
theorem Dispatch.after {c : Context σ} {o : Order} {s : Scheduler σ} {line : Line σ}
    {answer : Except Failure Nat × Scheduler σ} (ht : Talk c s.line [] line)
    (h : Dispatch c o (s.told line []) answer) : Dispatch c o s answer := by
  cases h with
  | taken h reported => rw [told_told]; exact .taken (ht.trans h) reported
  | refused h e => rw [told_told]; exact .refused (ht.trans h) e

/-- So is one that is given only over a connection. -/
theorem dispatch_issueIfConnected (c : Context σ) (o : Order) (s : Scheduler σ) :
    Dispatch c o s (s.issueIfConnected c o) := by
  unfold issueIfConnected
  split
  · exact dispatch_issue c o s
  · exact .refused (.silence _) _

/-- So is one for which a connection is made first. -/
theorem dispatch_reachAndIssue (c : Context σ) (o : Order) (s : Scheduler σ) :
    Dispatch c o s (s.reachAndIssue c o) := by
  have ht : Talk c s.line [] (s.line.reach c.device).2 := .reach (.silence _)
  unfold reachAndIssue
  rw [reach_eq]
  cases (s.line.reach c.device).1 with
  | ok u => exact (dispatch_issue c o _).after ht
  | error e => exact .refused ht e

/-! ## Orders in turn -/

/-- What becomes of orders that are given in turn: all are taken, or some are and the next one is
refused. -/
inductive DispatchAll (c : Context σ) (orders : List Order) (s : Scheduler σ) :
    Except Failure Nat × Scheduler σ → Prop where
  | taken {line : Line σ} (h : Talk c s.line orders.reverse line) (reported : Nat) :
      DispatchAll c orders s (.ok reported, s.told line orders.reverse)
  | refused {line : Line σ} (given : List Order) (h : Talk c s.line given.reverse line)
      (hg : given <+: orders) (e : Failure) :
      DispatchAll c orders s (.error e, s.told line given.reverse)

/-- Orders after a talk without orders are dispatched as if they were the first words. -/
theorem DispatchAll.after {c : Context σ} {orders : List Order} {s : Scheduler σ} {line : Line σ}
    {answer : Except Failure Nat × Scheduler σ} (ht : Talk c s.line [] line)
    (h : DispatchAll c orders (s.told line []) answer) : DispatchAll c orders s answer := by
  cases h with
  | taken h reported =>
    rw [told_told, List.append_nil]
    exact .taken (by simpa using ht.trans h) reported
  | refused given h hg e =>
    rw [told_told, List.append_nil]
    exact .refused given (by simpa using ht.trans h) hg e

/-- Orders that are given in turn are dispatched. -/
theorem dispatchAll_issueAll (c : Context σ) (orders : List Order) (s : Scheduler σ) :
    DispatchAll c orders s (s.issueAll c orders) := by
  induction orders generalizing s with
  | nil => exact .taken (.silence _) 0
  | cons o rest ih =>
    have h := dispatch_issue c o s
    cases rest with
    | nil =>
      rw [issueAll]
      generalize s.issue c o = answer at h
      cases h with
      | taken h reported => exact .taken h reported
      | refused h e => exact .refused [] h List.nil_prefix e
    | cons o' rest =>
      rw [issueAll]
      · generalize s.issue c o = answer at h
        cases h with
        | refused h e => exact .refused [] h List.nil_prefix e
        | taken h reported =>
          rename_i line
          have h' := ih (s.told line [o])
          simp only
          generalize issueAll c (o' :: rest) (s.told line [o]) = answer at h'
          -- the talk about the first order goes on with the talk about the others
          cases h' with
          | taken h' reported =>
            have htalk := h.trans h'
            rw [← List.reverse_cons] at htalk
            rw [told_told, ← List.reverse_cons]
            exact .taken htalk reported
          | refused given h' hg e =>
            have htalk := h.trans h'
            rw [← List.reverse_cons] at htalk
            rw [told_told, ← List.reverse_cons]
            exact .refused _ htalk (List.cons_prefix_cons.2 ⟨rfl, hg⟩) e
      · simp

/-! ## Always-on effects -/

/-- A talk about always-on effects only. -/
def Chat (c : Context σ) (s t : Scheduler σ) : Prop :=
  ∃ line orders, Talk c s.line orders line ∧ (∀ o ∈ orders, o.isAlwaysOn = true) ∧
    t = s.told line orders

/-- Where nothing is said there is a chat about nothing. -/
theorem Chat.refl (c : Context σ) (s : Scheduler σ) : Chat c s s :=
  ⟨s.line, [], .silence _, by simp, rfl⟩

/-- Chats after chats. -/
theorem Chat.trans {c : Context σ} {s t u : Scheduler σ} (h : Chat c s t) (h' : Chat c t u) :
    Chat c s u := by
  obtain ⟨line, orders, ht, ho, rfl⟩ := h
  obtain ⟨line', orders', ht', ho', rfl⟩ := h'
  refine ⟨line', orders' ++ orders, ht.trans ht', fun o hm => ?_, told_told ..⟩
  rcases List.mem_append.1 hm with hm | hm
  · exact ho' o hm
  · exact ho o hm

/-- An order about always-on effects is a chat. -/
theorem chat_issue (c : Context σ) {o : Order} (ho : o.isAlwaysOn = true) (s : Scheduler σ) :
    Chat c s (s.issue c o).2 := by
  have h := dispatch_issue c o s
  generalize s.issue c o = answer at h
  cases h with
  | taken h reported => exact ⟨_, [o], h, by simpa using ho, rfl⟩
  | refused h e => exact ⟨_, [], h, by simp, rfl⟩

/-- So are such orders in turn. -/
theorem chat_issueAll (c : Context σ) (orders : List Order)
    (ho : ∀ o ∈ orders, o.isAlwaysOn = true) (s : Scheduler σ) :
    Chat c s (AlwaysOn.issueAll (issue c) orders s).2 := by
  induction orders generalizing s with
  | nil => exact .refl c s
  | cons o rest ih =>
    have h := chat_issue c (ho o (by simp)) s
    rcases hr : s.issue c o with ⟨e | reported, t⟩
    · rw [AlwaysOn.issueAll_cons_of_error (issue c) hr]
      rwa [hr] at h
    · rw [AlwaysOn.issueAll_cons_of_ok (issue c) hr]
      rw [hr] at h
      exact h.trans (ih (fun o hm => ho o (by simp [hm])) t)

/-- Orders to disable are about always-on effects. -/
theorem isAlwaysOn_of_mem_disableOrders (id : Int) (channels : List UInt8) :
    ∀ o ∈ AlwaysOn.disableOrders id channels, o.isAlwaysOn = true := by
  intro o h
  obtain ⟨channel, -, rfl⟩ := List.mem_map.1 h
  rfl

/-- So are the orders that put an entry in place. -/
theorem isAlwaysOn_of_mem_syncOrders (id : Int) (effects : Table UInt8 Prebaked)
    (allowed : Bool) : ∀ o ∈ AlwaysOn.syncOrders id effects allowed, o.isAlwaysOn = true := by
  intro o h
  unfold AlwaysOn.syncOrders at h
  split at h
  · obtain ⟨entry, -, rfl⟩ := List.mem_map.1 h
    rfl
  · exact isAlwaysOn_of_mem_disableOrders _ _ o h

/-- To put an entry in place is a chat. -/
theorem chat_sync (c : Context σ) (policy : Policy) (id : Int) (e : AlwaysOnEntry)
    (s : Scheduler σ) : Chat c s (AlwaysOn.sync (issue c) policy id e s).2 := by
  have h := chat_issueAll c _
    (isAlwaysOn_of_mem_syncOrders id e.effects (AlwaysOn.isAllowed policy e)) s
  unfold AlwaysOn.sync
  split <;> next hr => rwa [hr] at h

/-- So is it to take one back. -/
theorem chat_rollback (c : Context σ) (id : Int) (failed : AlwaysOnEntry)
    (effects : Table UInt8 Prebaked) (registry : AlwaysOn) (s : Scheduler σ) :
    Chat c s (AlwaysOn.rollback (issue c) id failed effects registry s).2 := by
  induction effects generalizing registry s with
  | nil => exact .refl c s
  | cons entry rest ih =>
    obtain ⟨channel, effect⟩ := entry
    unfold AlwaysOn.rollback
    split
    · exact ih registry s
    · have h := chat_issue (c := c) (o := .alwaysOnDisable channel id) rfl s
      split <;> next hr => rw [hr] at h; exact h.trans (ih _ _)

/-- So is it to clear one. -/
theorem chat_clear (c : Context σ) (registry : AlwaysOn) (id : Int) (s : Scheduler σ) :
    Chat c s (AlwaysOn.clear (issue c) registry id s).2.2 := by
  unfold AlwaysOn.clear
  split
  · exact .refl c s
  · next previous _ =>
    have h := chat_issueAll c _ (isAlwaysOn_of_mem_disableOrders id previous.effects.keys) s
    split <;> next hr => rwa [hr] at h

/-- So is it to set one. -/
theorem chat_set (c : Context σ) (policy : Policy) (registry : AlwaysOn) (id : Int)
    (entry : AlwaysOnEntry) (s : Scheduler σ) :
    Chat c s (AlwaysOn.set (issue c) policy registry id entry s).2.2 := by
  have h := chat_issueAll c _
    (isAlwaysOn_of_mem_disableOrders id (AlwaysOn.dropped registry id entry.effects)) s
  unfold AlwaysOn.set
  split
  · next hr => rwa [hr] at h
  · next t hr =>
    rw [hr] at h
    have h' := chat_sync c policy id entry t
    split
    · next hs => rw [hs] at h'; exact h.trans h'
    · next hs => rw [hs] at h'; exact (h.trans h').trans (chat_rollback ..)

/-- A request about always-on effects is a talk about them only. -/
theorem chat_apply (c : Context σ) (policy : Policy) (registry : AlwaysOn) (r : AlwaysOnRequest)
    (s : Scheduler σ) : Chat c s (AlwaysOn.apply (issue c) policy registry r s).2.2 := by
  unfold AlwaysOn.apply
  split
  · exact chat_clear c registry r.id s
  · exact chat_set c policy registry r.id _ s

/-- So is a look at all of them. -/
theorem chat_refresh (c : Context σ) (policy : Policy) (registry : AlwaysOn) (s : Scheduler σ) :
    Chat c s (AlwaysOn.refresh (issue c) policy registry s).2.2 := by
  induction registry generalizing s with
  | nil => exact .refl c s
  | cons entry rest ih =>
    obtain ⟨id, entry⟩ := entry
    have h := chat_sync c policy id entry s
    unfold AlwaysOn.refresh
    split <;> next hr => rw [hr] at h; exact h.trans (ih _)

end Scheduler

end Haptics
