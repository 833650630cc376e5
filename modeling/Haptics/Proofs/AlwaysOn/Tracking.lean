import Haptics.Proofs.AlwaysOn.Calls

/-!
# The registry knows what the actuator holds

Any call about always-on effects may fail, in the middle of a request, of its taking back, or of a
look at all entries, and leave the actuator with half of what was asked for. Still every effect that
the actuator holds is at a channel of its entry (`Covers`), so that a request that clears the entry
reaches it.

* `covers_rollback`: what a failed request leaves behind is kept track of. The induction is over the
  channels that have still to be taken back; until then they need not be in the registry.
* `covers_apply`, `covers_review`: requests and looks at all entries keep the registry covering.
* `Reached`: a registry and an actuator after requests and looks in any order, under policies that
  answer as they like. `Reached.covers`, `Reached.ordered`: what holds of them all.
* `tracking`: the main result.
-/

namespace Haptics

namespace AlwaysOn

/-! ## Channels in the registry -/

/-- Whether the registry has a channel under a number. -/
def Tracks (r : AlwaysOn) (k : AlwaysOnKey) : Prop :=
  ∃ e, r.get? k.id = some e ∧ e.effects.has k.channel = true

/-- Whether a registry tracks a channel is told by looking it up. -/
instance (r : AlwaysOn) (k : AlwaysOnKey) : Decidable (r.Tracks k) :=
  decidable_of_iff ((r.get? k.id).any (fun e => e.effects.has k.channel) = true)
    (Option.any_eq_true ..)

/-- Whether every effect of an actuator is at a channel that the registry has. -/
def Covers (r : AlwaysOn) (table : AlwaysOnTable) : Prop :=
  ∀ k, table k ≠ none → r.Tracks k

/-- The channels of an entry. -/
def channels (r : AlwaysOn) (id : Int) : List UInt8 :=
  ((r.get? id).map fun e => e.effects.keys).getD []

/-- The effects of each entry. -/
def plan (r : AlwaysOn) : Table Int (Table UInt8 Prebaked) :=
  r.map fun entry => (entry.1, entry.2.effects)

section Tracks

variable {r : AlwaysOn} {id : Int} {channel : UInt8} {k : AlwaysOnKey}

/-- An empty registry tracks nothing. -/
theorem not_tracks_nil : ¬ Tracks [] k := by
  simp [Tracks]

/-- The first entry of a number decides. -/
theorem tracks_cons (id : Int) (e : AlwaysOnEntry) (rest : AlwaysOn) :
    Tracks ((id, e) :: rest) k ↔
      if id = k.id then e.effects.has k.channel = true else Tracks rest k := by
  unfold Tracks
  rw [Table.get?_cons]
  split <;> simp

/-- An entry tracks the channels of its effects. -/
theorem tracks_of_get? {e : AlwaysOnEntry} (h : r.get? id = some e) :
    r.Tracks ⟨channel, id⟩ ↔ e.effects.has channel = true := by
  simp [Tracks, h]

/-- An entry that is put in place decides for its number, and for no other. -/
theorem tracks_insert (e : AlwaysOnEntry) :
    Tracks (Table.insert r id e) k ↔
      if k.id = id then e.effects.has k.channel = true else r.Tracks k := by
  unfold Tracks
  rw [Table.get?_insert]
  by_cases hid : k.id = id
  · simp [hid]
  · simp [hid, Ne.symm hid]

/-- An entry that is taken away tracks nothing any more. -/
theorem tracks_erase : Tracks (Table.erase r id) k ↔ k.id ≠ id ∧ r.Tracks k := by
  unfold Tracks
  rw [Table.get?_erase]
  by_cases hid : k.id = id
  · simp [hid]
  · simp [hid, Ne.symm hid]

/-- To keep track of a channel adds that channel. -/
theorem tracks_track (failed : AlwaysOnEntry) (effect : Prebaked) :
    Tracks (track r id failed channel effect) k ↔ k = ⟨channel, id⟩ ∨ r.Tracks k := by
  obtain ⟨channel', id'⟩ := k
  unfold track
  rw [tracks_insert]
  by_cases hid : id' = id
  · subst hid
    rcases hr : r.get? id' with _ | e
    · simp [Tracks, hr, Table.has_insert, eq_comm (a := channel)]
    · simp [tracks_of_get? hr, Table.has_insert, eq_comm (a := channel)]
  · simp [hid]

/-- The channels of a number are those that are tracked for it. -/
theorem mem_channels : channel ∈ r.channels id ↔ r.Tracks ⟨channel, id⟩ := by
  unfold channels
  rcases hr : r.get? id with _ | e
  · simp [Tracks, hr]
  · rw [tracks_of_get? hr, Table.has_eq_true_iff]
    simp

/-- What a request drops are the channels of the entry that it does not have. -/
theorem mem_dropped {effects : Table UInt8 Prebaked} :
    channel ∈ dropped r id effects ↔ r.Tracks ⟨channel, id⟩ ∧ ¬ effects.has channel = true := by
  unfold dropped
  rcases hr : r.get? id with _ | e
  · simp [Tracks, hr]
  · rw [tracks_of_get? hr, Table.has_eq_true_iff]
    simp

/-- The plan of an entry are its effects. -/
theorem get?_plan (r : AlwaysOn) (id : Int) :
    r.plan.get? id = (r.get? id).map AlwaysOnEntry.effects :=
  Table.get?_map AlwaysOnEntry.effects r id

/-- The channels of the registry are those of its plan. -/
theorem tracks_iff_plan :
    r.Tracks k ↔ ∃ effects, r.plan.get? k.id = some effects ∧ effects.has k.channel = true := by
  simp [Tracks, get?_plan]

end Tracks

/-! ## Registries in order -/

/-- Whether the entries stand in the order of their numbers, and the effects of each entry in the
order of their channels. -/
structure Ordered (r : AlwaysOn) : Prop where
  entries : Table.Ordered r
  effects : ∀ entry ∈ r, entry.2.effects.Ordered

section Ordered

variable {r r' : AlwaysOn} {id : Int}

/-- An empty registry is in order. -/
theorem ordered_nil : Ordered [] where
  entries := .nil
  effects := by simp

/-- What is behind the first entry is in order. -/
theorem Ordered.tail {entry : Int × AlwaysOnEntry} {rest : AlwaysOn}
    (h : Ordered (entry :: rest)) : Ordered rest where
  entries := h.entries.of_cons
  effects e hm := h.effects e (List.mem_cons_of_mem _ hm)

/-- The effects of an entry are in order. -/
theorem Ordered.of_get? (h : r.Ordered) {e : AlwaysOnEntry} (hr : r.get? id = some e) :
    e.effects.Ordered :=
  h.effects _ (Table.mem_of_get?_eq_some hr)

/-- An entry in order can be put in place. -/
theorem Ordered.put (h : r.Ordered) {e : AlwaysOnEntry} (he : e.effects.Ordered) :
    Ordered (Table.insert r id e) where
  entries := h.entries.insert id e
  effects := by
    intro entry hm
    rcases Table.mem_insert hm with rfl | hm
    · exact he
    · exact h.effects entry hm

/-- An entry can be taken away. -/
theorem Ordered.remove (h : r.Ordered) (id : Int) : Ordered (Table.erase r id) where
  entries := Table.ordered_erase h.entries id
  effects entry hm := h.effects entry (Table.mem_erase hm)

/-- A channel can be tracked. -/
theorem Ordered.track (h : r.Ordered) (failed : AlwaysOnEntry) (channel : UInt8)
    (effect : Prebaked) : Ordered (track r id failed channel effect) := by
  apply h.put
  apply Table.Ordered.insert
  rcases hr : r.get? id with _ | e
  · exact .nil
  · exact h.of_get? hr

/-- The order is that of the plan. -/
theorem ordered_iff_plan : r.Ordered ↔
    r.plan.Ordered ∧ ∀ entry ∈ r.plan, entry.2.Ordered := by
  have hentries : r.plan.Ordered ↔ Table.Ordered r := Table.ordered_map AlwaysOnEntry.effects
  rw [hentries]
  constructor
  · intro h
    refine ⟨h.entries, fun entry hm => ?_⟩
    obtain ⟨entry', hm', rfl⟩ := List.mem_map.1 hm
    exact h.effects entry' hm'
  · rintro ⟨ho, he⟩
    exact ⟨ho, fun entry hm => he _ (List.mem_map_of_mem hm)⟩

end Ordered

/-! ## Looks at all entries -/

variable {τ : Type}

/-- A look at all entries while the policy may change: each entry is judged by the policy at its
moment. -/
def review (issue : Order → τ → Except Failure Nat × τ) (policyAt : Int → Policy) :
    AlwaysOn → τ → Except Failure Unit × AlwaysOn × τ
  | [], t => (.ok (), [], t)
  | (id, entry) :: rest, t =>
    match sync issue (policyAt id) id entry t with
    | (.ok entry, t) =>
      let (result, rest, t) := review issue policyAt rest t
      (result, (id, entry) :: rest, t)
    | (.error e, t) =>
      let (_, rest, t) := review issue policyAt rest t
      (.error e, (id, entry) :: rest, t)

variable {issue : Order → τ → Except Failure Nat × τ} {view : τ → AlwaysOnTable}

/-- When the policy does not change, that is `refresh`. -/
theorem review_const (policy : Policy) (r : AlwaysOn) (t : τ) :
    review issue (fun _ => policy) r t = refresh issue policy r t := by
  induction r generalizing t with
  | nil => rfl
  | cons entry rest ih =>
    obtain ⟨id, entry⟩ := entry
    unfold review refresh
    rcases sync issue policy id entry t with ⟨e | e, t'⟩ <;> simp only [ih]

/-- An entry that is in line keeps its effects. -/
theorem effects_of_sync {policy : Policy} {id : Int} {e e' : AlwaysOnEntry} {t t' : τ}
    (h : sync issue policy id e t = (.ok e', t')) : e'.effects = e.effects := by
  unfold sync at h
  split at h
  · simp only [Prod.mk.injEq, Except.ok.injEq] at h
    rw [← h.1]
  · simp at h

/-- To bring an entry in line is to give its orders in turn, wherever they stop. -/
theorem issueAll_of_sync {policy : Policy} {id : Int} {e : AlwaysOnEntry} {t t' : τ}
    {answer : Except Failure AlwaysOnEntry} (h : sync issue policy id e t = (answer, t')) :
    ∃ answer', issueAll issue (syncOrders id e.effects (isAllowed policy e)) t = (answer', t') := by
  unfold sync at h
  split at h <;> next hr =>
    simp only [Prod.mk.injEq] at h
    exact ⟨_, h.2 ▸ hr⟩

/-- A look at all entries does not change their effects. -/
theorem plan_review (policyAt : Int → Policy) (r : AlwaysOn) (t : τ) :
    plan (review issue policyAt r t).2.1 = r.plan := by
  induction r generalizing t with
  | nil => rfl
  | cons entry rest ih =>
    obtain ⟨id, entry⟩ := entry
    have ih' : ∀ u, List.map (fun entry => (entry.1, entry.2.effects))
        (review issue policyAt rest u).2.1 = plan rest := ih
    unfold review
    split
    · next hs => simp only [plan, List.map_cons, ih', effects_of_sync hs]
    · simp only [plan, List.map_cons, ih']

/-! ## What calls leave behind -/

section calls

variable (ho : Obeys issue view)

include ho

/-- To disable channels puts no effect in the table, wherever it stops. -/
theorem present_disable {id : Int} {channels : List UInt8} {t t' : τ} {k : AlwaysOnKey}
    {answer : Except Failure Unit}
    (h : issueAll issue (disableOrders id channels) t = (answer, t')) (hk : view t' k ≠ none) :
    view t k ≠ none := by
  have hon := Scheduler.isAlwaysOn_of_mem_disableOrders id channels
  apply (present_issueAll ho hon h hk).resolve_right
  rintro ⟨effect, hm⟩
  simp [disableOrders] at hm

/-- When channels have all been disabled, what is in the table was there before, and is at none of
them. -/
theorem present_disabled {id : Int} {channels : List UInt8} {t t' : τ} {k : AlwaysOnKey}
    (h : issueAll issue (disableOrders id channels) t = (.ok (), t')) (hk : view t' k ≠ none) :
    view t k ≠ none ∧ ¬ (k.id = id ∧ k.channel ∈ channels) := by
  rw [view_issueAll ho (Scheduler.isAlwaysOn_of_mem_disableOrders id channels) h,
    tableAfter_disableOrders] at hk
  split at hk
  · exact absurd rfl hk
  · next hno => exact ⟨hk, hno⟩

/-- To bring an entry in line puts effects at its channels only, wherever it stops. -/
theorem present_sync {policy : Policy} {id : Int} {e : AlwaysOnEntry} {t t' : τ} {k : AlwaysOnKey}
    {answer : Except Failure AlwaysOnEntry} (h : sync issue policy id e t = (answer, t'))
    (hk : view t' k ≠ none) :
    view t k ≠ none ∨ (k.id = id ∧ e.effects.has k.channel = true) := by
  obtain ⟨answer', hcalls⟩ := issueAll_of_sync h
  have hon := Scheduler.isAlwaysOn_of_mem_syncOrders id e.effects (isAllowed policy e)
  apply (present_issueAll ho hon hcalls hk).imp_right
  rintro ⟨effect, hm⟩
  unfold syncOrders at hm
  split at hm
  · obtain ⟨entry, hentry, he⟩ := List.mem_map.1 hm
    simp only [Order.alwaysOnEnable.injEq] at he
    exact ⟨he.2.1.symm, he.1 ▸ Table.has_of_mem hentry⟩
  · simp [disableOrders] at hm

/-! ## Requests -/

/-- What a failed request leaves behind is kept track of. -/
theorem covers_rollback {id : Int} {failed : AlwaysOnEntry} {effects : Table UInt8 Prebaked}
    {r : AlwaysOn} {t : τ}
    (h : ∀ k, view t k ≠ none →
      r.Tracks k ∨ (k.id = id ∧ effects.has k.channel = true)) :
    Covers (rollback issue id failed effects r t).1
      (view (rollback issue id failed effects r t).2) := by
  induction effects generalizing r t with
  | nil =>
    intro k hk
    exact (h k hk).resolve_right (by simp)
  | cons entry rest ih =>
    obtain ⟨channel, effect⟩ := entry
    -- what has still to be taken back is this channel or one of the others
    have hrest : ∀ k, view t k ≠ none →
        k = ⟨channel, id⟩ ∨ r.Tracks k ∨ (k.id = id ∧ Table.has rest k.channel = true) := by
      intro k hk
      rcases h k hk with hr | ⟨hid, hhas⟩
      · exact .inr (.inl hr)
      · rcases (Table.has_cons ..).1 hhas with hc | hc
        · exact .inl (by rw [hc, ← hid])
        · exact .inr (.inr ⟨hid, hc⟩)
    unfold rollback
    split
    · next hhas =>
      apply ih
      intro k hk
      rcases hrest k hk with rfl | hr
      · rw [Option.any_eq_true] at hhas
        exact .inl hhas
      · exact hr
    · split
      · next t' hr =>
        apply ih
        intro k hk
        rw [ho.taken rfl hr] at hk
        have hne : k ≠ ⟨channel, id⟩ := by
          rintro rfl
          simp [Order.onTable] at hk
        have hk' : view t k ≠ none := by
          simpa [Order.onTable, Function.update_of_ne hne] using hk
        exact (hrest k hk').resolve_left hne
      · next t' hr =>
        apply ih
        intro k hk
        rw [ho.refused rfl hr] at hk
        rw [tracks_track]
        rcases hrest k hk with hk | hk | hk
        · exact .inl (.inl hk)
        · exact .inl (.inr hk)
        · exact .inr hk

/-- To clear an entry keeps what the hardware has covered, whether it succeeds or not. -/
theorem covers_clear {r : AlwaysOn} {id : Int} {t : τ} (h : r.Covers (view t)) :
    Covers (clear issue r id t).2.1 (view (clear issue r id t).2.2) := by
  unfold clear
  split
  · exact h
  · next previous hr =>
    split
    · next t' hd =>
      intro k hk
      obtain ⟨hbefore, hno⟩ := present_disabled ho hd hk
      have htracks := h k hbefore
      refine tracks_erase.2 ⟨?_, htracks⟩
      rintro rfl
      rw [← Table.has_eq_true_iff] at hno
      exact hno ⟨rfl, (tracks_of_get? hr).1 htracks⟩
    · next e t' hd =>
      intro k hk
      exact h k (present_disable ho hd hk)

/-- When what an entry no longer has is disabled, the channels that it is to keep are left. -/
theorem present_dropped {r : AlwaysOn} {id : Int} {effects : Table UInt8 Prebaked} {t t' : τ}
    {k : AlwaysOnKey} (h : r.Covers (view t))
    (hd : issueAll issue (disableOrders id (dropped r id effects)) t = (.ok (), t'))
    (hk : view t' k ≠ none) : r.Tracks k ∧ (k.id = id → effects.has k.channel = true) := by
  obtain ⟨hbefore, hno⟩ := present_disabled ho hd hk
  refine ⟨h k hbefore, ?_⟩
  rintro rfl
  by_contra hhas
  exact hno ⟨rfl, mem_dropped.2 ⟨h k hbefore, hhas⟩⟩

/-- So does setting one. -/
theorem covers_set {policy : Policy} {r : AlwaysOn} {id : Int} {entry : AlwaysOnEntry} {t : τ}
    (h : r.Covers (view t)) :
    Covers (set issue policy r id entry t).2.1 (view (set issue policy r id entry t).2.2) := by
  unfold set
  split
  · next e t' hd =>
    intro k hk
    exact h k (present_disable ho hd hk)
  · next t₁ hd =>
    split
    · next entry' t₂ hs =>
      intro k hk
      rw [tracks_insert, effects_of_sync hs]
      have hpresent := present_sync ho hs hk
      split
      · next hid =>
        rcases hpresent with hk₁ | hk₁
        · exact (present_dropped ho h hd hk₁).2 hid
        · exact hk₁.2
      · next hid =>
        have hk₁ : view t₁ k ≠ none := hpresent.resolve_right fun hk₁ => hid hk₁.1
        exact (present_dropped ho h hd hk₁).1
    · next e t₂ hs =>
      apply covers_rollback ho
      intro k hk
      apply (present_sync ho hs hk).imp_left
      intro hk₁
      exact (present_dropped ho h hd hk₁).1

/-- A request keeps the registry covering what the actuator holds. -/
theorem covers_apply {policy : Policy} {r : AlwaysOn} {request : AlwaysOnRequest} {t : τ}
    (h : r.Covers (view t)) :
    Covers (apply issue policy r request t).2.1 (view (apply issue policy r request t).2.2) := by
  unfold apply
  split
  · exact covers_clear ho h
  · exact covers_set ho h

/-- A look at all entries puts effects at their channels only. -/
theorem present_review {policyAt : Int → Policy} {r : AlwaysOn} {t : τ} {k : AlwaysOnKey}
    (h : view (review issue policyAt r t).2.2 k ≠ none) :
    view t k ≠ none ∨ ∃ entry ∈ r, entry.1 = k.id ∧ entry.2.effects.has k.channel = true := by
  induction r generalizing t with
  | nil => exact .inl h
  | cons entry rest ih =>
    obtain ⟨id, entry⟩ := entry
    have hstate : (review issue policyAt ((id, entry) :: rest) t).2.2 =
        (review issue policyAt rest (sync issue (policyAt id) id entry t).2).2.2 := by
      conv => lhs; unfold review
      split <;> simp [*]
    rw [hstate] at h
    rcases ih h with h | ⟨e, hm, he⟩
    · refine (present_sync ho rfl h).imp_right fun hk => ?_
      exact ⟨(id, entry), List.mem_cons_self, hk.1.symm, hk.2⟩
    · exact .inr ⟨e, List.mem_cons_of_mem _ hm, he⟩

/-- A look at all entries keeps the registry covering what the actuator holds. -/
theorem covers_review {policyAt : Int → Policy} {r : AlwaysOn} {t : τ} (hr : r.Ordered)
    (h : r.Covers (view t)) :
    Covers (review issue policyAt r t).2.1 (view (review issue policyAt r t).2.2) := by
  intro k hk
  rw [tracks_iff_plan, plan_review, ← tracks_iff_plan]
  rcases present_review ho hk with hk | ⟨⟨id, e⟩, hm, hid, hhas⟩
  · exact h k hk
  · exact ⟨e, hid ▸ hr.entries.get?_of_mem hm, hhas⟩

end calls

/-! ## The order of the registry -/

/-- A rollback leaves the registry in order. -/
theorem ordered_rollback {id : Int} {failed : AlwaysOnEntry} {effects : Table UInt8 Prebaked}
    {r : AlwaysOn} {t : τ} (h : r.Ordered) :
    Ordered (rollback issue id failed effects r t).1 := by
  induction effects generalizing r t with
  | nil => exact h
  | cons entry rest ih =>
    unfold rollback
    split
    · exact ih h
    · split
      · exact ih h
      · exact ih (h.track failed entry.1 entry.2)

/-- A request leaves the registry in order. -/
theorem ordered_apply {policy : Policy} {r : AlwaysOn} {request : AlwaysOnRequest} {t : τ}
    (h : r.Ordered) (he : ∀ effects ∈ request.effects, effects.Ordered) :
    Ordered (apply issue policy r request t).2.1 := by
  unfold apply
  split
  · unfold clear
    split
    · exact h
    · split
      · exact h.remove request.id
      · exact h
  · next effects hr =>
    unfold set
    split
    · exact h
    · split
      · next hs =>
        apply h.put
        rw [effects_of_sync hs]
        exact he effects hr
      · exact ordered_rollback h

/-- So does a look at all entries. -/
theorem ordered_review {policyAt : Int → Policy} {r : AlwaysOn} {t : τ} (h : r.Ordered) :
    Ordered (review issue policyAt r t).2.1 := by
  rw [ordered_iff_plan, plan_review, ← ordered_iff_plan]
  exact h

/-! ## Everything that can be reached -/

/-- A registry and an actuator after requests and looks at all entries in any order, starting with
nothing in either. The policies answer as they like, also in the middle of a look; between two calls
the actuator may change in any way that leaves its always-on effects alone. -/
inductive Reached (issue : Order → τ → Except Failure Nat × τ) (view : τ → AlwaysOnTable) :
    AlwaysOn → τ → Prop where
  /-- Nothing has been asked for, and the actuator holds nothing. -/
  | start {t : τ} (h : ∀ k, view t k = none) : Reached issue view [] t
  /-- A request, whose effects are listed in the order of their channels. -/
  | applied {r : AlwaysOn} {t : τ} (policy : Policy) (request : AlwaysOnRequest)
      (he : ∀ effects ∈ request.effects, effects.Ordered) (h : Reached issue view r t) :
      Reached issue view (apply issue policy r request t).2.1 (apply issue policy r request t).2.2
  /-- A look at all entries. -/
  | reviewed {r : AlwaysOn} {t : τ} (policyAt : Int → Policy) (h : Reached issue view r t) :
      Reached issue view (review issue policyAt r t).2.1 (review issue policyAt r t).2.2
  /-- The actuator changes of its own. -/
  | moved {r : AlwaysOn} {t t' : τ} (hv : view t' = view t) (h : Reached issue view r t) :
      Reached issue view r t'

variable {r : AlwaysOn} {t : τ}

/-- A look at all entries under one policy. -/
theorem Reached.refreshed (h : Reached issue view r t) (policy : Policy) :
    Reached issue view (refresh issue policy r t).2.1 (refresh issue policy r t).2.2 := by
  rw [← review_const]
  exact .reviewed _ h

/-- Whatever has been reached is in order. -/
theorem Reached.ordered (h : Reached issue view r t) : r.Ordered := by
  induction h with
  | start => exact ordered_nil
  | applied policy request he _ ih => exact ordered_apply ih he
  | reviewed policyAt _ ih => exact ordered_review ih
  | moved _ _ ih => exact ih

/-- **Whatever has been reached covers what the hardware has.** -/
theorem Reached.covers (h : Reached issue view r t) (ho : Obeys issue view) :
    r.Covers (view t) := by
  induction h with
  | start h => exact fun k hk => absurd (h k) hk
  | applied policy request _ _ ih => exact covers_apply ho ih
  | reviewed policyAt h ih => exact covers_review ho h.ordered ih
  | moved hv _ ih => rwa [hv]

/-- To clear an entry gives the orders that disable its channels; it is gone exactly when all of
them have been taken. -/
theorem clear_eq (r : AlwaysOn) (id : Int) (t : τ) :
    clear issue r id t =
      match issueAll issue (disableOrders id (r.channels id)) t with
      | (.ok (), t') => (.ok (), Table.erase r id, t')
      | (.error e, t') => (.error e, r, t') := by
  unfold clear channels
  rcases hr : r.get? id with _ | previous
  · have habsent : Table.erase r id = r := by
      refine List.filter_eq_self.2 fun entry hm => ?_
      have hne : entry.1 ≠ id := by
        rintro rfl
        have hhas := Table.has_of_mem hm
        simp [Table.has, hr] at hhas
      simpa using hne
    simp [disableOrders, habsent]
  · rfl

/-- **The registry knows what the actuator holds.** Whatever has been asked for and whichever calls
have failed, every channel and number at which the actuator holds an effect is a channel of the
entry of that number. So to clear the entry, when none of the calls fails, removes it from the
registry and everything of its number from the actuator. -/
theorem tracking (ho : Obeys issue view) (h : Reached issue view r t) :
    (∀ channel id, view t ⟨channel, id⟩ ≠ none →
      ∃ entry, r.get? id = some entry ∧ entry.effects.has channel = true) ∧
    ∀ (policy : Policy) (request : AlwaysOnRequest) (t' : τ), request.effects = none →
      issueAll issue (disableOrders request.id (r.channels request.id)) t = (.ok (), t') →
      apply issue policy r request t = (.ok (), Table.erase r request.id, t') ∧
        ∀ channel, view t' ⟨channel, request.id⟩ = none := by
  have hcovers := h.covers ho
  refine ⟨fun channel id hk => hcovers ⟨channel, id⟩ hk, ?_⟩
  intro policy request t' hclear htaken
  constructor
  · unfold apply
    simp only [hclear, clear_eq, htaken]
  · intro channel
    by_contra hk
    obtain ⟨hbefore, hno⟩ := present_disabled ho htaken hk
    exact hno ⟨rfl, mem_channels.2 (hcovers _ hbefore)⟩

/-- Two effects under one number. -/
def pairOfTaps : AlwaysOnRequest where
  id := 7
  uid := 10
  package := "p"
  effects := some [(0, .ofStrength 1 .medium), (1, .ofStrength 2 .medium)]

/-- A bench that fails the second call to enable a channel and then the first one to disable one. -/
def faultyTrial : Trial where
  line :=
    { actuator :=
        { motor := { config := {} }
          faults := [{ method := "always_on_enable", skip := 1 }, { method := "always_on_disable" }] } }

/-- What is left there of the two effects: the first can neither be kept nor be taken back. -/
def halfPlaced : AlwaysOn × Trial :=
  (apply AlwaysOnTrial.issue .permissive [] pairOfTaps faultyTrial).2

/-- It has been reached by a request. -/
theorem reached_halfPlaced :
    Reached AlwaysOnTrial.issue (fun t => t.motor.alwaysOn.get?) halfPlaced.1 halfPlaced.2 := by
  refine .applied .permissive pairOfTaps ?_ (.start fun k => rfl)
  intro effects he
  cases he
  decide

/-- The effect that is left is in the registry, and can be cleared when calls work again. -/
theorem tracking_halfPlaced :
    halfPlaced.2.motor.alwaysOn = [(⟨0, 7⟩, .ofStrength 1 .medium)] ∧
      (∃ entry, halfPlaced.1.get? 7 = some entry ∧ entry.effects.has 0 = true) ∧
      ∃ t', apply AlwaysOnTrial.issue .permissive halfPlaced.1 { pairOfTaps with effects := none }
        halfPlaced.2 = (.ok (), [], t') ∧ ∀ channel, t'.motor.alwaysOn.get? ⟨channel, 7⟩ = none := by
  obtain ⟨htracked, hcleared⟩ := tracking AlwaysOnTrial.obeys_trial reached_halfPlaced
  refine ⟨by decide, htracked 0 7 (by decide),
    (issueAll AlwaysOnTrial.issue (disableOrders 7 [0]) halfPlaced.2).2, ?_⟩
  exact hcleared .permissive { pairOfTaps with effects := none } _ rfl rfl

end AlwaysOn

end Haptics
