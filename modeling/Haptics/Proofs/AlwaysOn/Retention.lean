import Haptics.Proofs.AlwaysOn.Convergence
import Haptics.Proofs.Scheduler.Through

/-!
# A request that fails loses nothing

A request may fail while it clears an entry, while it drops channels, or while it enables or vetoes
what it asks for. Only the last leads to channels being taken back, and each of these may stay where
it is because its call is refused in turn. To say which, the calls of a request are noted with their
answers (`callsOf`). Up to the failure all of them are taken, so what is behind the first refusal is
the taking back (`afterRefusal`, `callsOf_of_error`).

* `failing_of_apply`: the places where a request can fail.
* `rollback_noting`: what taking back leaves in the registry. The induction is over the channels;
  since no channel comes twice, what has been kept does not hide a channel from its turn.
* `retention`: the main result.
-/

namespace Haptics

/-- The entry of a request before the policy has been asked. -/
def AlwaysOnRequest.draft (request : AlwaysOnRequest) (effects : Table UInt8 Prebaked) :
    AlwaysOnEntry where
  uid := request.uid
  package := request.package
  attributes := request.attributes
  effects := effects
  enabled := false

/-- The effect that a request asks for on a channel. -/
def AlwaysOnRequest.effect? (request : AlwaysOnRequest) (channel : UInt8) : Option Prebaked :=
  request.effects.bind (·.get? channel)

namespace AlwaysOn

variable {τ : Type}

/-! ## Calls with their answers -/

/-- A call and its answer. -/
structure Call where
  /-- The order that is given. -/
  order : Order
  /-- What the actuator answers. -/
  answer : Except Failure Nat

/-- Whether the actuator has taken the order. -/
def Call.isTaken (c : Call) : Bool := c.answer.isOk

/-- A call that reports a time has been taken. -/
@[simp] theorem Call.isTaken_ok (o : Order) (reported : Nat) :
    Call.isTaken ⟨o, .ok reported⟩ = true := rfl

/-- A call that fails has not. -/
@[simp] theorem Call.isTaken_error (o : Order) (e : Failure) :
    Call.isTaken ⟨o, .error e⟩ = false := rfl

/-- Gives an order and notes the call behind the earlier ones. -/
def noting (issue : Order → τ → Except Failure Nat × τ) (o : Order) (s : τ × List Call) :
    Except Failure Nat × (τ × List Call) :=
  match issue o s.1 with
  | (answer, t) => (answer, (t, s.2 ++ [⟨o, answer⟩]))

/-- The calls that a request makes, in their order. -/
def callsOf (issue : Order → τ → Except Failure Nat × τ) (policy : Policy) (r : AlwaysOn)
    (request : AlwaysOnRequest) (t : τ) : List Call :=
  (apply (noting issue) policy r request (t, [])).2.2.2

/-- The calls behind the first one that is refused. -/
def afterRefusal (calls : List Call) : List Call :=
  (calls.dropWhile Call.isTaken).tail

/-- Whether one of the calls to disable a channel under a number is refused. -/
def isRefused (calls : List Call) (id : Int) (channel : UInt8) : Bool :=
  calls.any fun c => decide (c.order = .alwaysOnDisable channel id) && !c.isTaken

variable {issue : Order → τ → Except Failure Nat × τ} {view : τ → AlwaysOnTable}

/-- To note the calls changes nothing about them. -/
theorem noting_fst (issue : Order → τ → Except Failure Nat × τ) (o : Order)
    (s : τ × List Call) :
    issue o s.1 = (noting issue o s).map id Prod.fst := rfl

/-- A call that is noted goes as it would without the notes. -/
theorem noting_eq {o : Order} {t t' : τ} {answer : Except Failure Nat}
    (h : issue o t = (answer, t')) (log : List Call) :
    noting issue o (t, log) = (answer, (t', log ++ [⟨o, answer⟩])) := by
  unfold noting
  rw [h]

/-- A request is carried out in the same way when its calls are noted. -/
theorem apply_noting {policy : Policy} {r r' : AlwaysOn} {request : AlwaysOnRequest} {t t' : τ}
    {answer : Except Failure Unit} (h : apply issue policy r request t = (answer, r', t')) :
    apply (noting issue) policy r request (t, []) =
      (answer, r', (t', callsOf issue policy r request t)) := by
  have hthrough := through_apply (noting_fst issue) policy r request (t, [])
  rw [h] at hthrough
  unfold callsOf
  rcases hnoted : apply (noting issue) policy r request (t, []) with ⟨answer', r'', t'', calls⟩
  rw [hnoted] at hthrough
  cases hthrough
  rfl

/-- Orders that are all taken leave only taken calls behind. -/
theorem noted_of_taken {orders : List Order} {t t' : τ} {log log' : List Call}
    (h : issueAll (noting issue) orders (t, log) = (.ok (), (t', log')))
    (hlog : ∀ c ∈ log, c.isTaken = true) : ∀ c ∈ log', c.isTaken = true := by
  induction orders generalizing t log with
  | nil =>
    cases h
    exact hlog
  | cons o rest ih =>
    rcases hr : issue o t with ⟨e | reported, u⟩
    · rw [issueAll_cons_of_error _ (noting_eq hr log)] at h
      cases h
    · rw [issueAll_cons_of_ok _ (noting_eq hr log)] at h
      refine ih h fun c hm => ?_
      rcases List.mem_append.1 hm with hm | hm
      · exact hlog c hm
      · rw [List.mem_singleton.1 hm, Call.isTaken_ok]

/-- Orders one of which fails leave the refused call behind the taken ones. -/
theorem noted_of_refused {orders : List Order} {t t' : τ} {log log' : List Call} {e : Failure}
    (h : issueAll (noting issue) orders (t, log) = (.error e, (t', log')))
    (hlog : ∀ c ∈ log, c.isTaken = true) :
    ∃ taken o, log' = taken ++ [⟨o, .error e⟩] ∧ ∀ c ∈ taken, c.isTaken = true := by
  induction orders generalizing t log with
  | nil => cases h
  | cons o rest ih =>
    rcases hr : issue o t with ⟨e' | reported, u⟩
    · rw [issueAll_cons_of_error _ (noting_eq hr log)] at h
      cases h
      exact ⟨log, o, rfl, hlog⟩
    · rw [issueAll_cons_of_ok _ (noting_eq hr log)] at h
      refine ih h fun c hm => ?_
      rcases List.mem_append.1 hm with hm | hm
      · exact hlog c hm
      · rw [List.mem_singleton.1 hm, Call.isTaken_ok]

/-- What comes after a refusal is behind all that was taken and what was refused. -/
theorem afterRefusal_of_refused {taken undone : List Call} (h : ∀ c ∈ taken, c.isTaken = true)
    (o : Order) (e : Failure) : afterRefusal (taken ++ [⟨o, .error e⟩] ++ undone) = undone := by
  unfold afterRefusal
  rw [List.append_assoc, List.dropWhile_append_of_pos h]
  rfl

/-! ## Taking back -/

/-- Whether the registry has a channel under a number, as it is looked up. -/
theorem any_has_iff {r : AlwaysOn} {id : Int} {channel : UInt8} :
    ((r.get? id).any fun e => e.effects.has channel) = true ↔ r.Tracks ⟨channel, id⟩ :=
  Option.any_eq_true ..

/-- The registry after several channels of a failed request have been kept track of. -/
def keep (r : AlwaysOn) (id : Int) (failed : AlwaysOnEntry) (kept : Table UInt8 Prebaked) :
    AlwaysOn :=
  kept.foldl (fun r entry => track r id failed entry.1 entry.2) r

/-- A call about something else does not tell whether a channel was refused. -/
theorem isRefused_cons_of_ne {c : Call} {id : Int} {channel : UInt8}
    (h : c.order ≠ .alwaysOnDisable channel id) (calls : List Call) :
    isRefused (c :: calls) id channel = isRefused calls id channel := by
  simp [isRefused, h]

/-- A channel to which no call is made is not refused. -/
theorem not_isRefused_of_not_mem {calls : List Call} {id : Int} {channels : List UInt8}
    (h : calls.map Call.order = disableOrders id channels) {channel : UInt8}
    (hno : channel ∉ channels) : isRefused calls id channel = false := by
  refine List.any_eq_false.2 fun c hm hc => hno ?_
  have horder : c.order = .alwaysOnDisable channel id := by
    simp only [Bool.and_eq_true, decide_eq_true_eq] at hc
    exact hc.1
  have hmem : c.order ∈ disableOrders id channels := h ▸ List.mem_map_of_mem hm
  rw [horder] at hmem
  simpa [disableOrders] using hmem

/-- A call about one channel says nothing about others. -/
theorem filter_isRefused_cons {id : Int} {channel : UInt8} {rest : Table UInt8 Prebaked}
    (h : channel ∉ rest.keys) (answer : Except Failure Nat) (calls : List Call) :
    rest.filter (fun entry =>
        isRefused (⟨.alwaysOnDisable channel id, answer⟩ :: calls) id entry.1) =
      rest.filter (fun entry => isRefused calls id entry.1) := by
  refine List.filter_congr fun entry hm => isRefused_cons_of_ne ?_ calls
  rintro ⟨rfl⟩
  exact h (List.mem_map_of_mem hm)

/-- To keep track of a channel is nothing new to others. -/
theorem filter_tracks_track {r : AlwaysOn} {id : Int} {channel : UInt8} {channels : List UInt8}
    (h : channel ∉ channels) (failed : AlwaysOnEntry) (effect : Prebaked) :
    channels.filter (fun c => ¬ (track r id failed channel effect).Tracks ⟨c, id⟩) =
      channels.filter (fun c => ¬ r.Tracks ⟨c, id⟩) := by
  refine List.filter_congr fun c hm => ?_
  have hne : c ≠ channel := fun hc => h (hc ▸ hm)
  simp [tracks_track, hne]

/-- The registry after a call that takes a new channel back: the channel is kept track of if the
call is refused. -/
def undoing (r : AlwaysOn) (id : Int) (failed : AlwaysOnEntry) (channel : UInt8)
    (effect : Prebaked) (answer : Except Failure Nat) : AlwaysOn :=
  if answer.isOk then r else track r id failed channel effect

/-- A new channel is taken back by one call. -/
theorem rollback_noting_cons {r : AlwaysOn} {id : Int} {channel : UInt8} {t u : τ}
    {answer : Except Failure Nat} (hnew : ¬ r.Tracks ⟨channel, id⟩)
    (h : issue (.alwaysOnDisable channel id) t = (answer, u)) (failed : AlwaysOnEntry)
    (effect : Prebaked) (rest : Table UInt8 Prebaked) (log : List Call) :
    rollback (noting issue) id failed ((channel, effect) :: rest) r (t, log) =
      rollback (noting issue) id failed rest (undoing r id failed channel effect answer)
        (u, log ++ [⟨.alwaysOnDisable channel id, answer⟩]) := by
  rw [rollback, if_neg fun hin => hnew (any_has_iff.1 hin), noting_eq h]
  cases answer <;> rfl

/-- **The calls of taking back** are about the channels that are not in the registry, and those that
refuse are kept track of. -/
theorem rollback_noting (issue : Order → τ → Except Failure Nat × τ) (id : Int)
    (failed : AlwaysOnEntry) {effects : Table UInt8 Prebaked} (he : effects.Ordered)
    (r : AlwaysOn) (t : τ) (log : List Call) :
    ∃ undone : List Call,
      (rollback (noting issue) id failed effects r (t, log)).2.2 = log ++ undone ∧
      undone.map Call.order =
        disableOrders id (effects.keys.filter fun channel => ¬ r.Tracks ⟨channel, id⟩) ∧
      (rollback (noting issue) id failed effects r (t, log)).1 =
        keep r id failed (effects.filter fun entry => isRefused undone id entry.1) := by
  induction effects generalizing r t log with
  | nil => exact ⟨[], by simp [rollback], rfl, rfl⟩
  | cons entry rest ih =>
    obtain ⟨channel, effect⟩ := entry
    have hfresh : channel ∉ Table.keys rest := fun hm => by
      have hno := he.not_has_head
      rw [(Table.has_eq_true_iff rest channel).2 hm] at hno
      cases hno
    by_cases hin : r.Tracks ⟨channel, id⟩
    -- a channel that is in the registry is left alone, and no call is about it
    · rw [rollback, if_pos (any_has_iff.2 hin)]
      obtain ⟨undone, hlog, horders, hkept⟩ := ih he.of_cons r t log
      have hno := not_isRefused_of_not_mem horders fun hm => hfresh (List.mem_filter.1 hm).1
      refine ⟨undone, hlog, ?_, ?_⟩
      · rw [horders]
        simp [Table.keys, hin]
      · rw [hkept]
        simp [hno]
    · rcases hr : issue (.alwaysOnDisable channel id) t with ⟨answer, u⟩
      rw [rollback_noting_cons hin hr]
      obtain ⟨undone, hlog, horders, hkept⟩ :=
        ih he.of_cons (undoing r id failed channel effect answer) u _
      have hno := not_isRefused_of_not_mem horders fun hm => hfresh (List.mem_filter.1 hm).1
      refine ⟨⟨.alwaysOnDisable channel id, answer⟩ :: undone, ?_, ?_, ?_⟩
      · rw [hlog, List.append_assoc, List.singleton_append]
      -- each channel comes once, so that a channel kept track of here changes nothing for the rest
      · have hothers : (Table.keys rest).filter
              (fun c => ¬ (undoing r id failed channel effect answer).Tracks ⟨c, id⟩) =
            (Table.keys rest).filter (fun c => ¬ r.Tracks ⟨c, id⟩) := by
          cases answer with
          | ok reported => rfl
          | error e => exact filter_tracks_track hfresh failed effect
        rw [List.map_cons, horders, hothers]
        simp [Table.keys, hin, disableOrders]
      · rw [hkept]
        cases answer with
        | ok reported =>
          have htaken : isRefused (⟨.alwaysOnDisable channel id, .ok reported⟩ :: undone) id
              channel = false := by simpa [isRefused] using hno
          rw [List.filter_cons_of_neg (by simp [htaken]), filter_isRefused_cons hfresh]
          rfl
        | error e =>
          rw [List.filter_cons_of_pos (by simp [isRefused]), filter_isRefused_cons hfresh]
          rfl

/-! ## What has been kept track of -/

section keep

variable {r : AlwaysOn} {id : Int} {failed : AlwaysOnEntry}

/-- The entry that the channels of a failed request are added to. -/
def ground (r : AlwaysOn) (id : Int) (failed : AlwaysOnEntry) : AlwaysOnEntry :=
  (r.get? id).getD { failed with effects := [], enabled := false }

/-- To keep nothing leaves the registry as it is. -/
@[simp] theorem keep_nil : keep r id failed [] = r := rfl

/-- Channels are kept one by one. -/
@[simp] theorem keep_cons (entry : UInt8 × Prebaked) (rest : Table UInt8 Prebaked) :
    keep r id failed (entry :: rest) =
      keep (track r id failed entry.1 entry.2) id failed rest := rfl

/-- A channel that is tracked is among the effects of its entry, and nothing else is touched. -/
theorem get?_track (r : AlwaysOn) (id : Int) (failed : AlwaysOnEntry) (channel : UInt8)
    (effect : Prebaked) (id' : Int) :
    (track r id failed channel effect).get? id' =
      if id = id' then
        some { ground r id failed with
          effects := (ground r id failed).effects.insert channel effect }
      else r.get? id' :=
  Table.get?_insert r id id' _

/-- What is kept track of under one number leaves the others alone. -/
theorem get?_keep_of_ne {id' : Int} (h : id' ≠ id) (kept : Table UInt8 Prebaked) :
    (keep r id failed kept).get? id' = r.get? id' := by
  induction kept generalizing r with
  | nil => rfl
  | cons entry rest ih => rw [keep_cons, ih, get?_track, if_neg (Ne.symm h)]

/-- What is kept track of is added to the entry, which otherwise stays as it was. -/
theorem get?_keep {kept : Table UInt8 Prebaked} (h : kept ≠ []) :
    (keep r id failed kept).get? id =
      some { ground r id failed with effects := (ground r id failed).effects.insertAll kept } := by
  induction kept generalizing r with
  | nil => exact absurd rfl h
  | cons entry rest ih =>
    have hentry := (get?_track r id failed entry.1 entry.2 id).trans (if_pos rfl)
    rw [keep_cons, Table.insertAll_cons]
    by_cases hrest : rest = []
    · subst hrest
      exact hentry
    · have hground : ground (track r id failed entry.1 entry.2) id failed =
          { ground r id failed with
            effects := (ground r id failed).effects.insert entry.1 entry.2 } := by
        conv => lhs; unfold ground
        rw [hentry, Option.getD_some]
      rw [ih hrest, hground]

end keep

/-! ## Requests that fail -/

variable {policy : Policy} {r r' : AlwaysOn} {request : AlwaysOnRequest} {t t' : τ} {e : Failure}

/-- The places where a request can fail: what then becomes of the registry and the actuator. -/
inductive Failing (issue : Order → τ → Except Failure Nat × τ) (policy : Policy) (r : AlwaysOn)
    (request : AlwaysOnRequest) (t : τ) : Failure → AlwaysOn → τ → Prop where
  /-- A channel of the entry cannot be disabled, be it that the entry is cleared or that the channel
  is dropped. Nothing has been asked for yet. -/
  | disabling {channels : List UInt8} {e : Failure} {t' : τ}
      (hcalls : issueAll issue (disableOrders request.id channels) t = (.error e, t')) :
      Failing issue policy r request t e r t'
  /-- What is asked for cannot be enabled, or vetoed, and is taken back. -/
  | placing {effects : Table UInt8 Prebaked} {e : Failure} {u v t' : τ} {r' : AlwaysOn}
      (heffects : request.effects = some effects)
      (hdropped : issueAll issue (disableOrders request.id (dropped r request.id effects)) t =
        (.ok (), u))
      (hcalls : issueAll issue (syncOrders request.id effects
        (isAllowed policy (request.draft effects))) u = (.error e, v))
      (hback : rollback issue request.id (request.draft effects) effects r v = (r', t')) :
      Failing issue policy r request t e r' t'

/-- A request that fails has failed in one of these ways. -/
theorem failing_of_apply (h : apply issue policy r request t = (.error e, r', t')) :
    Failing issue policy r request t e r' t' := by
  unfold apply at h
  split at h
  · unfold clear at h
    split at h
    · cases h
    · next previous _ =>
      split at h
      · cases h
      · next hcalls =>
        cases h
        exact .disabling hcalls
  · next effects heffects =>
    unfold set at h
    split at h
    · next hcalls =>
      cases h
      exact .disabling hcalls
    · next u hdropped =>
      split at h
      · cases h
      · next failure v hs =>
        cases h
        refine .placing heffects hdropped ?_ rfl
        unfold sync at hs
        split at hs
        · cases hs
        · next hcalls =>
          cases hs
          exact hcalls

/-- **The calls of a request that fails**: some that are taken, the one whose refusal is the answer,
and those that take new channels back. What refuses to be taken back is kept track of. -/
theorem callsOf_of_error (he : ∀ effects ∈ request.effects, effects.Ordered)
    (h : apply issue policy r request t = (.error e, r', t')) :
    ∃ (taken : List Call) (o : Order) (undone : List Call) (channels : List UInt8),
      callsOf issue policy r request t = taken ++ [⟨o, .error e⟩] ++ undone ∧
      (∀ c ∈ taken, c.isTaken = true) ∧
      undone.map Call.order = disableOrders request.id channels ∧
      (∀ channel ∈ channels,
        (request.effect? channel).isSome = true ∧ ¬ r.Tracks ⟨channel, request.id⟩) ∧
      r' = keep r request.id (request.draft [])
        ((request.effects.getD []).filter fun entry => isRefused undone request.id entry.1) := by
  have hnoted := apply_noting h
  generalize callsOf issue policy r request t = calls at hnoted
  cases failing_of_apply hnoted with
  | disabling hdisable =>
    -- nothing is taken back
    obtain ⟨taken, o, rfl, htaken⟩ := noted_of_refused hdisable (by simp)
    refine ⟨taken, o, [], [], by simp, htaken, rfl, by simp, ?_⟩
    have hnothing : (request.effects.getD []).filter
        (fun entry => isRefused [] request.id entry.1) = [] :=
      List.filter_eq_nil_iff.2 fun _ _ => Bool.false_ne_true
    rw [hnothing, keep_nil]
  | @placing effects _ u v _ _ heffects hdropped hsync hback =>
    obtain ⟨u, log⟩ := u
    obtain ⟨v, log'⟩ := v
    obtain ⟨taken, o, rfl, htaken⟩ := noted_of_refused hsync (noted_of_taken hdropped (by simp))
    obtain ⟨undone, hlog, horders, hkept⟩ := rollback_noting issue request.id
      (request.draft effects) (he effects heffects) r v (taken ++ [⟨o, .error e⟩])
    rw [hback] at hlog hkept
    refine ⟨taken, o, undone, _, hlog, htaken, horders, fun channel hm => ?_, ?_⟩
    · obtain ⟨hasked, hnew⟩ := List.mem_filter.1 hm
      rw [← Table.has_eq_true_iff] at hasked
      refine ⟨?_, of_decide_eq_true hnew⟩
      rw [AlwaysOnRequest.effect?, heffects, Option.bind_some]
      exact hasked
    · rw [heffects, Option.getD_some]
      exact hkept

/-- **A channel that a failed request leaves behind**: the request asks for it, the entry did not
have it before, and the call to take it back was refused. -/
def LeftBehind (issue : Order → τ → Except Failure Nat × τ) (policy : Policy) (r : AlwaysOn)
    (request : AlwaysOnRequest) (t : τ) (channel : UInt8) : Prop :=
  (request.effect? channel).isSome = true ∧ ¬ r.Tracks ⟨channel, request.id⟩ ∧
    isRefused (afterRefusal (callsOf issue policy r request t)) request.id channel = true

/-- Whether a channel is left behind is told by running the request. -/
instance (issue : Order → τ → Except Failure Nat × τ) (policy : Policy) (r : AlwaysOn)
    (request : AlwaysOnRequest) (t : τ) (channel : UInt8) :
    Decidable (LeftBehind issue policy r request t channel) :=
  inferInstanceAs (Decidable (_ ∧ _ ∧ _))

/-- **The registry after a request that failed** is the one before, with the channels that are left
behind. -/
theorem exists_keep_of_apply (he : ∀ effects ∈ request.effects, effects.Ordered)
    (h : apply issue policy r request t = (.error e, r', t')) :
    ∃ kept : Table UInt8 Prebaked, kept.Ordered ∧
      r' = keep r request.id (request.draft []) kept ∧
      ∀ channel, kept.get? channel =
        if LeftBehind issue policy r request t channel then request.effect? channel else none := by
  obtain ⟨taken, o, undone, channels, hcalls, htaken, horders, hnew, hkept⟩ :=
    callsOf_of_error he h
  have hundone : afterRefusal (callsOf issue policy r request t) = undone := by
    rw [hcalls]
    exact afterRefusal_of_refused htaken o e
  have hordered : (request.effects.getD []).Ordered := by
    cases heffects : request.effects with
    | none => exact .nil
    | some effects => exact he effects heffects
  have heffect (channel : UInt8) :
      (request.effects.getD []).get? channel = request.effect? channel := by
    cases heffects : request.effects <;> simp [AlwaysOnRequest.effect?, heffects]
  refine ⟨_, hordered.filter _, hkept, fun channel => ?_⟩
  rw [Table.get?_filter, heffect]
  by_cases hrefused : isRefused undone request.id channel = true
  · -- only new channels of the request are taken back
    have hchannel : channel ∈ channels := by
      by_contra hno
      rw [not_isRefused_of_not_mem horders hno] at hrefused
      cases hrefused
    have hleft : LeftBehind issue policy r request t channel :=
      ⟨(hnew channel hchannel).1, (hnew channel hchannel).2, by rw [hundone, hrefused]⟩
    rw [if_pos hrefused, if_pos hleft]
  · have hleft : ¬ LeftBehind issue policy r request t channel := by
      rintro ⟨-, -, h⟩
      rw [hundone] at h
      exact hrefused h
    rw [if_neg hrefused, if_neg hleft]

/-! ## The other numbers -/

section others

variable {id id' : Int} {table : AlwaysOnTable} {channel : UInt8}

/-- The orders that disable channels of a number do not write under others. -/
theorem onTable_of_mem_disableOrders (hid : id' ≠ id) {channels : List UInt8} :
    ∀ o ∈ disableOrders id channels, o.onTable table ⟨channel, id'⟩ = table ⟨channel, id'⟩ := by
  intro o hm
  obtain ⟨c, -, rfl⟩ := List.mem_map.1 hm
  exact Function.update_of_ne (by simp [hid]) _ _

/-- The orders that bring a number in line do not write under others. -/
theorem onTable_of_mem_syncOrders_of_ne (hid : id' ≠ id) {effects : Table UInt8 Prebaked}
    {allowed : Bool} :
    ∀ o ∈ syncOrders id effects allowed,
      o.onTable table ⟨channel, id'⟩ = table ⟨channel, id'⟩ := by
  intro o hm
  unfold syncOrders at hm
  split at hm
  · obtain ⟨entry, -, rfl⟩ := List.mem_map.1 hm
    exact Function.update_of_ne (by simp [hid]) _ _
  · exact onTable_of_mem_disableOrders hid o hm

variable (ho : Obeys issue view)

include ho

/-- Orders that write under one number leave the others as they are, wherever they stop. -/
theorem view_issueAll_of_ne {orders : List Order} (hon : ∀ o ∈ orders, o.isAlwaysOn = true)
    (hrow : ∀ table : AlwaysOnTable, ∀ o ∈ orders,
      o.onTable table ⟨channel, id'⟩ = table ⟨channel, id'⟩)
    {answer : Except Failure Unit} (h : issueAll issue orders t = (answer, t')) :
    view t' ⟨channel, id'⟩ = view t ⟨channel, id'⟩ := by
  refine holds_issueAll ho (P := fun table => table ⟨channel, id'⟩ = view t ⟨channel, id'⟩)
    hon ?_ h rfl
  intro o hm table htable
  rw [hrow table o hm, htable]

/-- A rollback leaves every other entry alone. -/
theorem view_rollback_of_ne (hid : id' ≠ id) (failed : AlwaysOnEntry)
    (effects : Table UInt8 Prebaked) (r : AlwaysOn) (t : τ) (channel : UInt8) :
    view (rollback issue id failed effects r t).2 ⟨channel, id'⟩ = view t ⟨channel, id'⟩ := by
  induction effects generalizing r t with
  | nil => rfl
  | cons entry rest ih =>
    unfold rollback
    split
    · exact ih r t
    · split
      · next u hr =>
        rw [ih, ho.taken rfl hr]
        exact onTable_of_mem_disableOrders hid _
          (List.mem_map_of_mem (List.mem_singleton_self entry.1))
      · next u hr => rw [ih, ho.refused rfl hr]

/-- A request that fails leaves what the actuator holds under other numbers. -/
theorem view_failing_of_ne (hid : id' ≠ request.id)
    (h : Failing issue policy r request t e r' t') :
    view t' ⟨channel, id'⟩ = view t ⟨channel, id'⟩ := by
  cases h with
  | disabling hcalls =>
    exact view_issueAll_of_ne ho (Scheduler.isAlwaysOn_of_mem_disableOrders _ _)
      (fun _ => onTable_of_mem_disableOrders hid) hcalls
  | @placing effects _ u v _ _ _ hdropped hcalls hback =>
    calc
      view t' ⟨channel, id'⟩ = view v ⟨channel, id'⟩ := by
        have hrow := view_rollback_of_ne ho hid (request.draft effects) effects r v channel
        rwa [hback] at hrow
      _ = view u ⟨channel, id'⟩ :=
        view_issueAll_of_ne ho (Scheduler.isAlwaysOn_of_mem_syncOrders _ _ _)
          (fun _ => onTable_of_mem_syncOrders_of_ne hid) hcalls
      _ = view t ⟨channel, id'⟩ :=
        view_issueAll_of_ne ho (Scheduler.isAlwaysOn_of_mem_disableOrders _ _)
          (fun _ => onTable_of_mem_disableOrders hid) hdropped

end others

/-- **A request that fails loses nothing.** Whatever the registry holds, whatever is asked for and
whichever calls fail, when a request reports a failure

* the entries and the effects in the actuator under all other numbers are as they were;
* if no channel is left behind, the registry is as it was;
* the entry of the number, if there was one, is as it was, but that the channels that are left
  behind have been added to it, with the effects that the request asks for;
* if there was no entry, there is none unless a channel is left behind; and then there is one with
  exactly those channels, which is not enabled. -/
theorem retention (ho : Obeys issue view) (hr : r.Ordered)
    (he : ∀ effects ∈ request.effects, effects.Ordered)
    (hfail : apply issue policy r request t = (.error e, r', t')) :
    (∀ id, id ≠ request.id →
      r'.get? id = r.get? id ∧ ∀ channel, view t' ⟨channel, id⟩ = view t ⟨channel, id⟩) ∧
    ((∀ channel, ¬ LeftBehind issue policy r request t channel) → r' = r) ∧
    (∀ previous, r.get? request.id = some previous →
      ∃ effects : Table UInt8 Prebaked, effects.Ordered ∧
        r'.get? request.id = some { previous with effects } ∧
        ∀ channel, effects.get? channel =
          if LeftBehind issue policy r request t channel then request.effect? channel
          else previous.effects.get? channel) ∧
    (r.get? request.id = none →
      ((∀ channel, ¬ LeftBehind issue policy r request t channel) →
        r'.get? request.id = none) ∧
      ((∃ channel, LeftBehind issue policy r request t channel) →
        ∃ effects : Table UInt8 Prebaked, effects.Ordered ∧
          r'.get? request.id = some (request.draft effects) ∧
          ∀ channel, effects.get? channel =
            if LeftBehind issue policy r request t channel then request.effect? channel
            else none)) := by
  obtain ⟨kept, hordered, rfl, hkept⟩ := exists_keep_of_apply he hfail
  -- a channel is left behind exactly when something has been kept track of
  have hnothing : (∀ channel, ¬ LeftBehind issue policy r request t channel) → kept = [] := by
    intro hno
    refine List.eq_nil_iff_forall_not_mem.2 fun entry hm => ?_
    have hget := hordered.get?_of_mem hm
    rw [hkept, if_neg (hno entry.1)] at hget
    cases hget
  have hsomething : (∃ channel, LeftBehind issue policy r request t channel) → kept ≠ [] := by
    rintro ⟨channel, hleft⟩ rfl
    have hget := hkept channel
    rw [if_pos hleft, Table.get?_nil] at hget
    have hasked := hleft.1
    rw [← hget] at hasked
    cases hasked
  refine ⟨fun id hid => ⟨get?_keep_of_ne hid kept, fun channel => ?_⟩, fun hno => ?_,
    fun previous hprevious => ?_, fun hnone => ⟨fun hno => ?_, fun hsome => ?_⟩⟩
  · exact view_failing_of_ne ho hid (failing_of_apply hfail)
  · rw [hnothing hno, keep_nil]
  · have hground : ground r request.id (request.draft []) = previous := by
      rw [ground, hprevious, Option.getD_some]
    refine ⟨previous.effects.insertAll kept, (hr.of_get? hprevious).insertAll kept, ?_, ?_⟩
    · by_cases hkeep : kept = []
      · rw [hkeep, keep_nil, Table.insertAll_nil, hprevious]
      · rw [get?_keep hkeep, hground]
    · intro channel
      rw [Table.get?_insertAll _ hordered, hkept]
      split
      · next hleft => rw [Option.or_of_isSome hleft.1]
      · exact Option.none_or
  · rw [hnothing hno, keep_nil, hnone]
  · have hground : ground r request.id (request.draft []) = request.draft [] := by
      rw [ground, hnone, Option.getD_none]
      rfl
    refine ⟨Table.insertAll [] kept, Table.Ordered.insertAll .nil kept, ?_, fun channel => ?_⟩
    · rw [get?_keep (hsomething hsome), hground]
      rfl
    · rw [Table.get?_insertAll _ hordered, hkept, Table.get?_nil, Option.or_none]

/-- Three effects of another user, under the number of `pairOfTaps`. -/
def threeTaps : AlwaysOnRequest where
  id := 7
  uid := 12
  package := "r"
  effects := some
    [(0, .ofStrength 3 .strong), (1, .ofStrength 4 .strong), (2, .ofStrength 5 .strong)]

/-- The bench that `mixed` has led to, which now fails the third call to enable a channel and then
the first one to disable one. -/
def faultyAgain : Trial :=
  (AlwaysOnTrial.onBench (fun b => { b with
    faults := [{ method := "always_on_enable", skip := 2 }, { method := "always_on_disable" }] })
    { trial := mixed.2 }).trial

/-- Of the three channels, one was in the entry before, one is left behind and one is taken back. -/
theorem retention_threeTaps :
    ∃ e r' t' previous effects,
      apply AlwaysOnTrial.issue .permissive mixed.1 threeTaps faultyAgain = (.error e, r', t') ∧
      mixed.1.get? 7 = some previous ∧ r'.get? 7 = some { previous with effects } ∧
      effects.get? 0 = some (.ofStrength 1 .medium) ∧
      effects.get? 1 = some (.ofStrength 4 .strong) ∧ effects.get? 2 = none ∧
      r'.get? 3 = mixed.1.get? 3 ∧
      t'.motor.alwaysOn.get? ⟨2, 3⟩ = some (.ofStrength 5 .strong) := by
  have he : ∀ effects ∈ threeTaps.effects, effects.Ordered := by
    rintro effects ⟨⟩
    decide
  have hfail : apply AlwaysOnTrial.issue .permissive mixed.1 threeTaps faultyAgain =
      (.error (.unavailable (.scripted "always_on_enable")),
        (apply AlwaysOnTrial.issue .permissive mixed.1 threeTaps faultyAgain).2) := rfl
  obtain ⟨hothers, -, hentry, -⟩ :=
    retention AlwaysOnTrial.obeys_trial reached_mixed.ordered he hfail
  obtain ⟨effects, -, hafter, heffects⟩ := hentry _ rfl
  obtain ⟨hbuzz, hrow⟩ := hothers 3 (by decide)
  refine ⟨_, _, _, _, effects, hfail, rfl, hafter, ?_, ?_, ?_, hbuzz, (hrow 2).trans (by decide)⟩
  · exact (heffects 0).trans (by decide)
  · exact (heffects 1).trans (by decide)
  · exact (heffects 2).trans (by decide)

end AlwaysOn

end Haptics
