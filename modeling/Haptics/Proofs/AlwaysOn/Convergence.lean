import Haptics.Proofs.AlwaysOn.Tracking

/-!
# A look at all entries brings the actuator in line

The calls of a look at all entries (`refreshOrders`) write, for each entry, its own channels under
its own number, so entries do not disturb one another (`tableAfter_refreshOrders`). What no entry
has is not in the table to begin with, because the registry covers it. Hence, however the actuator
came to hold what it holds, one look in which no call fails leaves it with what the registry and the
policy say (`desired`, `tableAfter_of_covers`), and `convergence` follows.
-/

namespace Haptics

namespace AlwaysOn

/-- The orders of a look at all entries, when all of them are taken. -/
def refreshOrders (policy : Policy) (r : AlwaysOn) : List Order :=
  r.flatMap fun entry => syncOrders entry.1 entry.2.effects (isAllowed policy entry.2)

/-- An entry that has noted what the policy says. -/
def judge (policy : Policy) (e : AlwaysOnEntry) : AlwaysOnEntry :=
  { e with enabled := isAllowed policy e }

/-- A registry whose entries have all noted what the policy says. -/
def judged (policy : Policy) (r : AlwaysOn) : AlwaysOn :=
  r.map fun entry => (entry.1, judge policy entry.2)

/-- What an actuator is to hold: the effects of the entries that the policy allows. -/
def desired (policy : Policy) (r : AlwaysOn) : AlwaysOnTable := fun k =>
  (r.get? k.id).bind fun e => if isAllowed policy e then e.effects.get? k.channel else none

variable {policy : Policy} {r : AlwaysOn}

/-- Entries are judged one by one. -/
@[simp] theorem judged_cons (policy : Policy) (id : Int) (e : AlwaysOnEntry) (rest : AlwaysOn) :
    judged policy ((id, e) :: rest) = (id, judge policy e) :: judged policy rest := rfl

/-- The orders of the first entry come first. -/
@[simp] theorem refreshOrders_cons (policy : Policy) (id : Int) (e : AlwaysOnEntry)
    (rest : AlwaysOn) :
    refreshOrders policy ((id, e) :: rest) =
      syncOrders id e.effects (isAllowed policy e) ++ refreshOrders policy rest := by
  simp [refreshOrders]

/-- To judge an entry does not move it. -/
theorem get?_judged (policy : Policy) (r : AlwaysOn) (id : Int) :
    (judged policy r).get? id = (r.get? id).map (judge policy) :=
  Table.get?_map (judge policy) r id

/-- An effect is desired where an entry that is allowed has it. -/
theorem desired_eq_some_iff {k : AlwaysOnKey} {effect : Prebaked} :
    desired policy r k = some effect ↔
      ∃ entry, r.get? k.id = some entry ∧ isAllowed policy entry = true ∧
        entry.effects.get? k.channel = some effect := by
  simp [desired, Option.bind_eq_some_iff]

/-- The answer of the policy does not hang on what was noted of earlier answers. -/
theorem desired_judged : desired policy (judged policy r) = desired policy r := by
  funext k
  simp only [desired, get?_judged]
  rcases r.get? k.id with _ | e
  · rfl
  · rfl

/-! ## What the orders of a look do -/

/-- Each entry is brought in line at its own channels; nothing else is written. -/
theorem tableAfter_refreshOrders (h : r.Ordered) (table : AlwaysOnTable) (k : AlwaysOnKey) :
    tableAfter (refreshOrders policy r) table k =
      if r.Tracks k then desired policy r k else table k := by
  induction r generalizing table with
  | nil => simp [refreshOrders, not_tracks_nil]
  | cons entry rest ih =>
    obtain ⟨id, e⟩ := entry
    have he : e.effects.Ordered := h.effects (id, e) List.mem_cons_self
    rw [refreshOrders_cons, tableAfter_append, ih h.tail, tableAfter_syncOrders _ _ _ he]
    simp only [tracks_cons, desired, Table.get?_cons]
    by_cases hid : k.id = id
    · -- the number does not come again, so the other entries write elsewhere
      subst hid
      have hrest : ¬ Tracks rest k := by
        rintro ⟨e', he', -⟩
        have hno := h.entries.not_has_head
        simp [Table.has, he'] at hno
      simp [hrest]
    · simp [hid, Ne.symm hid]

/-- If the registry covers what the actuator holds, the actuator is left with what it is to
hold. -/
theorem tableAfter_of_covers (h : r.Ordered) {table : AlwaysOnTable} (hc : r.Covers table) :
    tableAfter (refreshOrders policy r) table = desired policy r := by
  funext k
  rw [tableAfter_refreshOrders h]
  split
  · rfl
  · next hno =>
    have htable : table k = none := by
      by_contra hk
      exact hno (hc k hk)
    rw [htable, eq_comm, Option.eq_none_iff_forall_ne_some]
    intro effect hd
    obtain ⟨entry, hr, _, heffect⟩ := desired_eq_some_iff.1 hd
    exact hno ⟨entry, hr, by simp [Table.has, heffect]⟩

/-- A refresh gives orders about always-on effects only. -/
theorem isAlwaysOn_of_mem_refreshOrders : ∀ o ∈ refreshOrders policy r, o.isAlwaysOn = true := by
  intro o hm
  obtain ⟨entry, -, ho⟩ := List.mem_flatMap.1 hm
  exact Scheduler.isAlwaysOn_of_mem_syncOrders _ _ _ o ho

/-! ## Looks in which no call fails -/

variable {τ : Type} {issue : Order → τ → Except Failure Nat × τ} {view : τ → AlwaysOnTable}

/-- An entry is in place if all its orders are taken, and is judged then. -/
theorem sync_eq_ok_iff {id : Int} {e e' : AlwaysOnEntry} {t t' : τ} :
    sync issue policy id e t = (.ok e', t') ↔
      issueAll issue (syncOrders id e.effects (isAllowed policy e)) t = (.ok (), t') ∧
        e' = judge policy e := by
  unfold sync
  split
  · next t₁ h => simp [h, judge, and_comm, eq_comm]
  · next failure t₁ h => simp [h]

/-- A look at all entries reports no failure exactly when all of its orders have been taken. -/
theorem refresh_eq_ok_iff {r' : AlwaysOn} {t t' : τ} :
    refresh issue policy r t = (.ok (), r', t') ↔
      issueAll issue (refreshOrders policy r) t = (.ok (), t') ∧ r' = judged policy r := by
  induction r generalizing r' t with
  | nil => simp [refresh, refreshOrders, judged, eq_comm, and_comm]
  | cons entry rest ih =>
    obtain ⟨id, e⟩ := entry
    rw [refreshOrders_cons, issueAll_append_eq_ok_iff, judged_cons]
    unfold refresh
    split
    · next e' u hs =>
      obtain ⟨htaken, rfl⟩ := sync_eq_ok_iff.1 hs
      rcases hr : refresh issue policy rest u with ⟨answer, rest', u'⟩
      constructor
      · intro h
        simp only [Prod.mk.injEq] at h
        obtain ⟨rfl, rfl, rfl⟩ := h
        obtain ⟨hrest, rfl⟩ := ih.1 hr
        exact ⟨⟨u, htaken, hrest⟩, rfl⟩
      · rintro ⟨⟨v, hv, hrest⟩, rfl⟩
        have hu : u = v := by simpa [htaken] using hv
        subst hu
        rw [ih.2 ⟨hrest, rfl⟩] at hr
        simp only [Prod.mk.injEq] at hr
        obtain ⟨rfl, rfl, rfl⟩ := hr
        rfl
    · next failure u hs =>
      -- a refused entry is a failure of the whole, whatever becomes of the others
      constructor
      · intro h
        simp at h
      · rintro ⟨⟨v, hv, -⟩, rfl⟩
        have hsync : sync issue policy id e t = (.ok (judge policy e), v) :=
          sync_eq_ok_iff.2 ⟨hv, rfl⟩
        simp [hs] at hsync

/-- **A look at all entries brings the actuator in line.** Whatever has been asked for, whichever
calls have failed and however the policy has changed, a look at all entries in which no call fails
reports no failure and leaves the actuator with exactly the effects of the entries that the policy
now allows. The entries stay as they are, but that each notes what the policy says. -/
theorem convergence (ho : Obeys issue view) {t : τ} (h : Reached issue view r t)
    (policy : Policy) {t' : τ} (htaken : issueAll issue (refreshOrders policy r) t = (.ok (), t')) :
    refresh issue policy r t = (.ok (), judged policy r, t') ∧
      (∀ channel id effect, view t' ⟨channel, id⟩ = some effect ↔
        ∃ entry, (judged policy r).get? id = some entry ∧ isAllowed policy entry = true ∧
          entry.effects.get? channel = some effect) ∧
      ∀ id entry, (judged policy r).get? id = some entry →
        entry.enabled = isAllowed policy entry := by
  have hview : view t' = desired policy r := by
    rw [view_issueAll ho isAlwaysOn_of_mem_refreshOrders htaken,
      tableAfter_of_covers h.ordered (h.covers ho)]
  refine ⟨refresh_eq_ok_iff.2 ⟨htaken, rfl⟩, ?_, ?_⟩
  · intro channel id effect
    rw [hview, ← desired_judged, desired_eq_some_iff]
  · intro id entry hentry
    rw [get?_judged, Option.map_eq_some_iff] at hentry
    obtain ⟨e, -, rfl⟩ := hentry
    rfl

/-- Another effect, of another user. -/
def buzz : AlwaysOnRequest where
  id := 3
  uid := 11
  package := "q"
  effects := some [(2, .ofStrength 5 .strong)]

/-- What is left of `pairOfTaps`, after a look at it. -/
def lookedAt : AlwaysOn × Trial :=
  (refresh AlwaysOnTrial.issue .permissive halfPlaced.1 halfPlaced.2).2

/-- A registry and a motor with half of `pairOfTaps` and with `buzz`. -/
def mixed : AlwaysOn × Trial :=
  (apply AlwaysOnTrial.issue .permissive lookedAt.1 buzz lookedAt.2).2

/-- The user of `pairOfTaps` may not vibrate. -/
def deniesTaps : Policy :=
  Settings.policy { denied := [10] }

/-- It has been reached by requests. -/
theorem reached_mixed :
    Reached AlwaysOnTrial.issue (fun t => t.motor.alwaysOn.get?) mixed.1 mixed.2 := by
  refine .applied .permissive buzz ?_ (reached_halfPlaced.refreshed .permissive)
  intro effects he
  cases he
  decide

/-- When the settings change, the half that was left of the two effects is taken away at last, and
the other effect stays. -/
theorem convergence_mixed :
    mixed.2.motor.alwaysOn.get? ⟨0, 7⟩ = some (.ofStrength 1 .medium) ∧
      ∃ t', refresh AlwaysOnTrial.issue deniesTaps mixed.1 mixed.2 =
          (.ok (), judged deniesTaps mixed.1, t') ∧
        t'.motor.alwaysOn.get? ⟨2, 3⟩ = some (.ofStrength 5 .strong) ∧
        ∀ channel, t'.motor.alwaysOn.get? ⟨channel, 7⟩ = none := by
  have htaken : issueAll AlwaysOnTrial.issue (refreshOrders deniesTaps mixed.1) mixed.2 =
      (.ok (), (issueAll AlwaysOnTrial.issue (refreshOrders deniesTaps mixed.1) mixed.2).2) := rfl
  obtain ⟨hrefresh, htable, -⟩ :=
    convergence AlwaysOnTrial.obeys_trial reached_mixed deniesTaps htaken
  refine ⟨by decide, _, hrefresh, ?_, ?_⟩
  · exact (htable 2 3 _).2 ⟨_, rfl, rfl, rfl⟩
  · intro channel
    rw [Option.eq_none_iff_forall_ne_some]
    intro effect heffect
    obtain ⟨entry, hentry, hallowed, -⟩ := (htable channel 7 effect).1 heffect
    cases hentry
    exact Bool.noConfusion hallowed

end AlwaysOn

end Haptics
