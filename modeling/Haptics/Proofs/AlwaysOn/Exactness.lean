import Haptics.Proofs.AlwaysOn.Convergence

/-!
# A request that succeeds leaves nothing of what was there

Earlier requests may have failed half way, and the entry of a number may list channels that were
never enabled, channels that were disabled again, or effects that the actuator does not hold. A
request that succeeds has disabled all channels that it does not ask for and has written all that it
asks for, so under its number nothing of this is left. What it has written is also what it would
write again.

* `apply_eq_ok_iff`: a request succeeds exactly when all of its orders are taken.
* `tableAfter_requestOrders`: what these orders make of the actuator.
* `apply_of_settled`: a request that is already in place changes nothing, whichever of its calls
  fail.
* `exactness`: the main result.
-/

namespace Haptics

/-- **The entry that a request asks for**: all that the request says, and what the policy says to
it. A request without effects asks for no entry. -/
def AlwaysOnRequest.entry? (request : AlwaysOnRequest) (policy : Policy) : Option AlwaysOnEntry :=
  request.effects.map fun effects =>
    { uid := request.uid
      package := request.package
      attributes := request.attributes
      effects
      enabled := policy.allowsAlwaysOn request.uid request.package request.attributes }

/-- The effects that an actuator is to hold under the number of an entry. -/
def AlwaysOnEntry.row (e : AlwaysOnEntry) (channel : UInt8) : Option Prebaked :=
  if e.enabled then e.effects.get? channel else none

namespace AlwaysOn

/-- The orders of a request, when all of them are taken. -/
def requestOrders (policy : Policy) (r : AlwaysOn) (request : AlwaysOnRequest) : List Order :=
  match request.entry? policy with
  | none => disableOrders request.id (r.channels request.id)
  | some e =>
    disableOrders request.id (dropped r request.id e.effects) ++
      syncOrders request.id e.effects e.enabled

/-- The registry with the entry of a request in its place. -/
def settle (policy : Policy) (r : AlwaysOn) (request : AlwaysOnRequest) : AlwaysOn :=
  match request.entry? policy with
  | none => Table.erase r request.id
  | some e => Table.insert r request.id e

variable {policy : Policy} {r : AlwaysOn} {request : AlwaysOnRequest}

/-- Under the number of the request there is its entry; the others stay. -/
theorem get?_settle (id : Int) :
    (settle policy r request).get? id =
      if request.id = id then request.entry? policy else r.get? id := by
  unfold settle
  split
  · next he => rw [he]; exact Table.get?_erase r request.id id
  · next e he => rw [he]; exact Table.get?_insert r request.id id e

/-- A request gives orders about always-on effects only. -/
theorem isAlwaysOn_of_mem_requestOrders :
    ∀ o ∈ requestOrders policy r request, o.isAlwaysOn = true := by
  intro o hm
  unfold requestOrders at hm
  split at hm
  · exact Scheduler.isAlwaysOn_of_mem_disableOrders _ _ o hm
  · rcases List.mem_append.1 hm with hm | hm
    · exact Scheduler.isAlwaysOn_of_mem_disableOrders _ _ o hm
    · exact Scheduler.isAlwaysOn_of_mem_syncOrders _ _ _ o hm

/-- **The orders of a request write all that is under its number**, because what the actuator holds
there is at the channels of the entry that is replaced. Nothing else is written. -/
theorem tableAfter_requestOrders {table : AlwaysOnTable} (hc : r.Covers table)
    (he : ∀ effects ∈ request.effects, effects.Ordered) (k : AlwaysOnKey) :
    tableAfter (requestOrders policy r request) table k =
      if k.id = request.id then (request.entry? policy).bind (·.row k.channel) else table k := by
  have hempty : ¬ r.Tracks k → table k = none := fun hno => by_contra fun hk => hno (hc k hk)
  unfold requestOrders
  split
  · next hentry =>
    rw [tableAfter_disableOrders, hentry]
    by_cases hid : k.id = request.id
    · rw [if_pos hid, ← hid, Option.bind_none]
      by_cases ht : k.channel ∈ r.channels k.id
      · exact if_pos ⟨rfl, ht⟩
      · rw [if_neg fun h => ht h.2, hempty fun hk => ht (mem_channels.2 hk)]
    · rw [if_neg hid, if_neg fun h => hid h.1]
  · next e hentry =>
    have hordered : e.effects.Ordered := by
      obtain ⟨effects, heffects, rfl⟩ := Option.map_eq_some_iff.1 hentry
      exact he effects heffects
    rw [tableAfter_append, tableAfter_syncOrders _ _ _ hordered, tableAfter_disableOrders, hentry]
    by_cases hid : k.id = request.id
    · rw [if_pos hid, Option.bind_some, AlwaysOnEntry.row]
      by_cases hhas : e.effects.has k.channel = true
      · rw [if_pos ⟨hid, hhas⟩]
      · -- a channel that is not asked for is dropped, if the actuator holds anything there
        have hget : e.effects.get? k.channel = none := by
          simpa [Table.has] using hhas
        rw [if_neg fun h => hhas h.2, hget, ite_self, ← hid]
        by_cases ht : r.Tracks k
        · exact if_pos ⟨rfl, mem_dropped.2 ⟨ht, hhas⟩⟩
        · rw [if_neg fun h => ht (mem_dropped.1 h.2).1, hempty ht]
    · rw [if_neg hid, if_neg fun h => hid h.1, if_neg fun h => hid h.1]

/-! ## Requests in which no call fails -/

variable {τ : Type} {issue : Order → τ → Except Failure Nat × τ} {view : τ → AlwaysOnTable}

/-- A request to set succeeds if all its orders are taken, and the entry is in the registry then. -/
theorem set_eq_ok_iff {id : Int} {e : AlwaysOnEntry} {r' : AlwaysOn} {t t' : τ} :
    set issue policy r id e t = (.ok (), r', t') ↔
      issueAll issue (disableOrders id (dropped r id e.effects) ++
          syncOrders id e.effects (isAllowed policy e)) t = (.ok (), t') ∧
        r' = Table.insert r id (judge policy e) := by
  rw [issueAll_append_eq_ok_iff]
  unfold set
  split
  · next failure u hd =>
    simp [hd]
  · next u hd =>
    split
    · next e' v hs =>
      obtain ⟨hsync, rfl⟩ := sync_eq_ok_iff.1 hs
      simp [hd, hsync, eq_comm, and_comm]
    · next failure v hs =>
      have hno (w : τ) :
          issueAll issue (syncOrders id e.effects (isAllowed policy e)) u ≠ (.ok (), w) := by
        intro hsync
        rw [sync_eq_ok_iff.2 ⟨hsync, rfl⟩] at hs
        cases hs
      simp [hd, hno]

/-- **A request succeeds exactly when all of its orders have been taken**, and then its entry is in
its place. -/
theorem apply_eq_ok_iff {r' : AlwaysOn} {t t' : τ} :
    apply issue policy r request t = (.ok (), r', t') ↔
      issueAll issue (requestOrders policy r request) t = (.ok (), t') ∧
        r' = settle policy r request := by
  unfold apply requestOrders settle AlwaysOnRequest.entry?
  cases request.effects with
  | none =>
    simp only [Option.map_none, clear_eq]
    split
    · next u hd => simp [hd, eq_comm, and_comm]
    · next failure u hd => simp [hd]
  | some effects => exact set_eq_ok_iff

/-! ## Requests that are already in place -/

/-- The orders that bring a number in line change nothing where it is in line. -/
theorem onTable_of_mem_syncOrders {id : Int} {e : AlwaysOnEntry} (hordered : e.effects.Ordered)
    {table : AlwaysOnTable} (htable : ∀ channel, table ⟨channel, id⟩ = e.row channel) :
    ∀ o ∈ syncOrders id e.effects e.enabled, o.onTable table = table := by
  intro o hm
  unfold syncOrders at hm
  split at hm
  · next hallowed =>
    obtain ⟨⟨channel, effect⟩, hentry, rfl⟩ := List.mem_map.1 hm
    apply Function.update_eq_self_iff.2
    rw [htable, AlwaysOnEntry.row, if_pos hallowed, hordered.get?_of_mem hentry]
  · next hvetoed =>
    obtain ⟨channel, -, rfl⟩ := List.mem_map.1 hm
    apply Function.update_eq_self_iff.2
    rw [htable, AlwaysOnEntry.row, if_neg hvetoed]

/-- Channels that the entry had before are not taken back. -/
theorem rollback_of_tracked {id : Int} {failed : AlwaysOnEntry} {effects : Table UInt8 Prebaked}
    (h : ∀ entry ∈ effects, r.Tracks ⟨entry.1, id⟩) (t : τ) :
    rollback issue id failed effects r t = (r, t) := by
  induction effects with
  | nil => rfl
  | cons entry rest ih =>
    obtain ⟨hfirst, hrest⟩ := List.forall_mem_cons.1 h
    unfold rollback
    rw [if_pos, ih hrest]
    rw [Option.any_eq_true]
    exact hfirst

section calls

variable (ho : Obeys issue view)

include ho

/-- **A request that is already in place changes nothing**, whichever of its calls fail: there is
no channel to drop, what it writes is there already, and no channel of it is taken back. -/
theorem apply_of_settled (hr : r.Ordered) (he : ∀ effects ∈ request.effects, effects.Ordered)
    (hentry : r.get? request.id = request.entry? policy) {t : τ}
    (hrow : ∀ channel,
      view t ⟨channel, request.id⟩ = (request.entry? policy).bind (·.row channel)) :
    (apply issue policy r request t).2.1 = r ∧
      view (apply issue policy r request t).2.2 = view t := by
  unfold AlwaysOnRequest.entry? at hentry hrow
  unfold apply
  cases heffects : request.effects with
  | none =>
    rw [heffects, Option.map_none] at hentry
    simp only [clear, hentry, and_self]
  | some effects =>
    simp only [heffects, Option.map_some, Option.bind_some] at hentry hrow
    have hdropped : dropped r request.id effects = [] := by
      refine List.eq_nil_iff_forall_not_mem.2 fun channel hm => ?_
      obtain ⟨htracks, hno⟩ := mem_dropped.1 hm
      exact hno ((tracks_of_get? hentry).1 htracks)
    -- all that the entry would write is there already, so the calls may stop anywhere
    have hstill {answer : Except Failure Unit} {t' : τ}
        (hcalls : issueAll issue (syncOrders request.id effects
          (policy.allowsAlwaysOn request.uid request.package request.attributes)) t =
            (answer, t')) : view t' = view t := by
      have hwrites := onTable_of_mem_syncOrders (he effects heffects) hrow
      have hon := Scheduler.isAlwaysOn_of_mem_syncOrders request.id effects
        (policy.allowsAlwaysOn request.uid request.package request.attributes)
      refine holds_issueAll ho (P := fun table => table = view t) hon ?_ hcalls rfl
      rintro o hm _ rfl
      exact hwrites o hm
    unfold set
    simp only [hdropped, disableOrders, List.map_nil, issueAll_nil]
    split
    · next e' t' hs =>
      obtain ⟨hcalls, rfl⟩ := sync_eq_ok_iff.1 hs
      exact ⟨hr.entries.insert_of_get? hentry, hstill hcalls⟩
    · next failure t' hs =>
      obtain ⟨answer, hcalls⟩ := issueAll_of_sync hs
      have htracked : ∀ entry ∈ effects, r.Tracks ⟨entry.1, request.id⟩ := fun entry hm =>
        (tracks_of_get? hentry).2 (Table.has_of_mem hm)
      rw [rollback_of_tracked htracked]
      exact ⟨rfl, hstill hcalls⟩

end calls

/-- **A request that succeeds is exactly in place.** Whatever has been asked for before and
whichever calls have failed, a request that reports success leaves

* under its number the entry that it asks for, with what the policy says, and none if it takes the
  effects away;
* under its number in the actuator the effect of each of its channels and no other, if the policy
  allows the entry, and nothing otherwise;
* under every other number the entry and the effects that were there.

To make the same request again, as long as the policy answers the same, changes neither the registry
nor the actuator, even if some of the calls then fail. -/
theorem exactness (ho : Obeys issue view) {t : τ} (h : Reached issue view r t) (policy : Policy)
    (request : AlwaysOnRequest) (he : ∀ effects ∈ request.effects, effects.Ordered)
    {r' : AlwaysOn} {t' : τ} (hok : apply issue policy r request t = (.ok (), r', t')) :
    r'.get? request.id = request.entry? policy ∧
    (∀ channel,
      view t' ⟨channel, request.id⟩ = (request.entry? policy).bind (·.row channel)) ∧
    (∀ id, id ≠ request.id →
      r'.get? id = r.get? id ∧ ∀ channel, view t' ⟨channel, id⟩ = view t ⟨channel, id⟩) ∧
    ∀ policy' : Policy,
      policy'.allowsAlwaysOn request.uid request.package request.attributes =
        policy.allowsAlwaysOn request.uid request.package request.attributes →
      (apply issue policy' r' request t').2.1 = r' ∧
        view (apply issue policy' r' request t').2.2 = view t' := by
  obtain ⟨htaken, hsettled⟩ := apply_eq_ok_iff.1 hok
  have hordered : r'.Ordered := by
    have hr' : Ordered (apply issue policy r request t).2.1 := ordered_apply h.ordered he
    rwa [hok] at hr'
  have htable (k : AlwaysOnKey) : view t' k =
      if k.id = request.id then (request.entry? policy).bind (·.row k.channel) else view t k := by
    rw [view_issueAll ho isAlwaysOn_of_mem_requestOrders htaken]
    exact tableAfter_requestOrders (h.covers ho) he k
  have hentry : r'.get? request.id = request.entry? policy := by
    rw [hsettled, get?_settle, if_pos rfl]
  have hrow (channel : UInt8) :
      view t' ⟨channel, request.id⟩ = (request.entry? policy).bind (·.row channel) :=
    (htable ⟨channel, request.id⟩).trans (if_pos rfl)
  refine ⟨hentry, hrow, fun id hid => ⟨?_, fun channel => ?_⟩, fun policy' hsame => ?_⟩
  · rw [hsettled, get?_settle, if_neg (Ne.symm hid)]
  · exact (htable ⟨channel, id⟩).trans (if_neg hid)
  · have hsame' : request.entry? policy' = request.entry? policy := by
      unfold AlwaysOnRequest.entry?
      rw [hsame]
    rw [← hsame'] at hentry
    simp only [← hsame'] at hrow
    exact apply_of_settled ho hordered he hentry hrow

/-- Another effect in place of `pairOfTaps`, on one of its channels. -/
def loneTap : AlwaysOnRequest :=
  { pairOfTaps with effects := some [(1, .ofStrength 3 .strong)] }

/-- The request finds the half of `pairOfTaps` that could not be taken back, and nothing of that is
left; `buzz` stays. -/
theorem exactness_mixed :
    mixed.2.motor.alwaysOn.get? ⟨0, 7⟩ = some (.ofStrength 1 .medium) ∧
      ∃ r' t', apply AlwaysOnTrial.issue .permissive mixed.1 loneTap mixed.2 = (.ok (), r', t') ∧
        (∀ channel, t'.motor.alwaysOn.get? ⟨channel, 7⟩ =
          Table.get? [(1, .ofStrength 3 .strong)] channel) ∧
        t'.motor.alwaysOn.get? ⟨2, 3⟩ = some (.ofStrength 5 .strong) ∧
        (apply AlwaysOnTrial.issue .permissive r' loneTap t').2.1 = r' := by
  have he : ∀ effects ∈ loneTap.effects, effects.Ordered := by
    rintro effects ⟨⟩
    decide
  have hok : apply AlwaysOnTrial.issue .permissive mixed.1 loneTap mixed.2 =
      (.ok (), (apply AlwaysOnTrial.issue .permissive mixed.1 loneTap mixed.2).2) := rfl
  obtain ⟨-, hrow, hothers, hagain⟩ :=
    exactness AlwaysOnTrial.obeys_trial reached_mixed .permissive loneTap he hok
  refine ⟨by decide, _, _, hok, hrow, ?_, (hagain .permissive rfl).1⟩
  exact ((hothers 3 (by decide)).2 2).trans (by decide)

end AlwaysOn

end Haptics
