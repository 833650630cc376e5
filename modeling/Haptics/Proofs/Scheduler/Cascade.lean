import Haptics.Proofs.Scheduler.Release

/-!
# Giving up the motor comes to an end

A vibration that cannot go on gives up the motor, whoever waits takes it, and may not be able to go
on either. So the calls that see to this go round in a circle: a step that fails or is missing leads
to a release, a release to a start, and a start to a step. `cascade` lets them call one another, up
to a depth. Nobody can wait behind a vibration that has been started from the place where one waits,
so that the circle is gone round twice at most, whatever state it is entered in and however often
the actuator fails.

* `cascade_advance`, `cascade_fail`, `cascade_release`: the calls come to an end, and lead where
  `advance`, `failCurrent` and `release` lead.
* `Clears`: who has left the slots between two states, and who has been started.
* `cascade_ends`: all of it, in every state, reached or not.
-/

namespace Haptics

/-- The vibration that a deed has started. -/
def Deed.began? : Deed → Option Nat
  | .began id => some id
  | _ => none

/-- To start a vibration makes it run, unless it has ended; in any state. -/
theorem Vibration.becomes_start_of_any (v : Vibration) : v.Becomes v.start := by
  cases hs : v.status with
  | pending => exact becomes_start hs
  | running =>
    have hv : v.start = v := by
      unfold start hasEnded
      rw [hs, if_neg (by decide), ← hs]
    rw [hv]
    exact .same
  | _ =>
    have hv : v.start = v := by
      unfold start hasEnded
      rw [hs, if_pos (by decide)]
    rw [hv]
    exact .same

namespace Scheduler

variable {σ : Type} {c : Context σ} {s t u : Scheduler σ} {p q : Playback}

/-! ## Calls that call one another -/

/-- A call on the way of the motor from one vibration to the next. -/
inductive Call where
  /-- The vibration that holds the motor goes on to its next step. -/
  | advance
  /-- The actuator has failed it. -/
  | fail
  /-- It gives up the motor. -/
  | release
  /-- Whoever waits gets the motor, if nobody holds it. -/
  | promote
  /-- A vibration takes the motor. -/
  | start (p : Playback)

/-- The state after a call, and after all those it leads to; nothing if they go deeper than a
depth. -/
def cascade (c : Context σ) : (depth : Nat) → Call → Scheduler σ → Option (Scheduler σ)
  | 0, _, _ => none
  | depth + 1, .advance, s =>
    match s.current with
    | none => some s
    | some p =>
      match p.nextStep with
      | none => cascade c depth .release (s.finishCurrent c .finished)
      | some (step, cursor) =>
        match s.launch c p step with
        | (.ok reported, s) =>
          let span := step.span reported c.config.prebakedFallbackMs
          some { s with current := some (p.launch step cursor c.now span) }
        | (.error _, s) => cascade c depth .fail s
  | depth + 1, .fail, s => cascade c depth .release (s.failCurrent c)
  | depth + 1, .release, s =>
    let s := s.vacate c
    if s.external.isNone then cascade c depth .promote s else some s
  | depth + 1, .promote, s =>
    match s.current, s.next with
    | none, some p => cascade c depth (.start p) { s with next := none }
    | _, _ => some s
  | depth + 1, .start p, s => cascade c depth .advance (s.takenBy p)

/-- What becomes of the attempt to start a step: if the vibration has ended instead, it gives up the
motor. -/
def unlessEnded (give : Scheduler σ → Scheduler σ) : Bool × Scheduler σ → Scheduler σ
  | (true, s) => give s
  | (false, s) => s

/-- To go on is to start the next step, and to give up the motor if there is none. -/
theorem advance_eq (c : Context σ) (s : Scheduler σ) :
    s.advance c = unlessEnded (release c) (s.startStep c) := rfl

/-- Whoever waits takes the motor, which is free. -/
def handOn (c : Context σ) (s : Scheduler σ) : Scheduler σ :=
  match s.next with
  | some p => unlessEnded (vacate c) (begin c p { s with next := none })
  | none => s

/-- Whoever waits takes the motor once it is free, if there is no session. -/
theorem release_eq (c : Context σ) (s : Scheduler σ) :
    s.release c =
      if (s.vacate c).external.isNone then (s.vacate c).handOn c else s.vacate c := by
  unfold release handOn
  generalize s.vacate c = t
  simp only
  split
  · next p he hq =>
    rw [he, hq]
    rfl
  · next hno =>
    cases he : t.external with
    | some session => rfl
    | none =>
      cases hq : t.next with
      | some p => exact absurd hq (hno p he)
      | none => rfl

/-- A vibration whose step fails or is missing gives up the motor, one call or two calls later. -/
theorem cascade_advance_of {give : Scheduler σ → Scheduler σ} (depth : Nat)
    (h : ∀ t : Scheduler σ, t.next = s.next →
      cascade c (depth + 1) .release t = some (give t) ∧
        cascade c depth .release t = some (give t)) :
    cascade c (depth + 2) .advance s = some (unlessEnded give (s.startStep c)) := by
  rw [cascade]
  cases hp : s.current with
  | none =>
    rw [startStep_of_none hp]
    rfl
  | some p =>
    cases hn : p.nextStep with
    | none =>
      rw [startStep_of_exhausted hp hn]
      simp only [hn]
      exact (h (s.finishCurrent c .finished) rfl).1
    | some next =>
      obtain ⟨step, cursor⟩ := next
      simp only [hn]
      rcases hl : s.launch c p step with ⟨e | reported, t⟩
      · rw [startStep_of_error hp hn hl]
        exact (h (t.failCurrent c) (stays_launch hl).next).2
      · rw [startStep_of_ok hp hn hl]
        rfl

/-! ## With nobody behind -/

section alone

variable (depth : Nat) (hn : s.next = none)

include hn

/-- Where nobody waits nobody gets the motor. -/
theorem cascade_promote_of_alone : cascade c (depth + 1) .promote s = some s := by
  rw [cascade, hn]
  split
  · next h => cases h
  · rfl

/-- Where nobody waits the motor is only given up. -/
theorem cascade_release_of_alone : cascade c (depth + 2) .release s = some (s.vacate c) := by
  have hv : (s.vacate c).next = none := (next_vacate c s).trans hn
  rw [cascade]
  split
  · exact cascade_promote_of_alone depth hv
  · rfl

/-- **A vibration that nobody waits behind** is gone if it cannot go on, and that is all. -/
theorem cascade_start_of_alone (p : Playback) :
    cascade c (depth + 5) (.start p) s = some (unlessEnded (vacate c) (s.begin c p)) := by
  refine cascade_advance_of (s := s.takenBy p) (depth + 2) fun t ht => ?_
  have hnone : t.next = none := ht.trans hn
  exact ⟨cascade_release_of_alone (depth + 1) hnone, cascade_release_of_alone depth hnone⟩

end alone

/-! ## In any state -/

/-- Whoever waits gets the motor that is free, six calls deep. -/
theorem cascade_promote_of_free (depth : Nat) (hc : s.current = none) :
    cascade c (depth + 6) .promote s = some (s.handOn c) := by
  rw [cascade, handOn, hc]
  cases hq : s.next with
  | none => rfl
  | some p => exact cascade_start_of_alone depth (s := { s with next := none }) rfl p

/-- **To give up the motor comes to an end.** -/
theorem cascade_release (c : Context σ) (s : Scheduler σ) (depth : Nat) :
    cascade c (depth + 7) .release s = some (s.release c) := by
  rw [cascade, release_eq, cascade_promote_of_free depth (current_vacate c s)]
  split <;> rfl

/-- Whom the actuator fails gives up the motor, eight calls deep. -/
theorem cascade_fail (c : Context σ) (s : Scheduler σ) (depth : Nat) :
    cascade c (depth + 8) .fail s = some ((s.failCurrent c).release c) :=
  cascade_release c (s.failCurrent c) depth

/-- **To go on to the next step comes to an end.** -/
theorem cascade_advance (c : Context σ) (s : Scheduler σ) (depth : Nat) :
    cascade c (depth + 9) .advance s = some (s.advance c) := by
  rw [advance_eq]
  refine cascade_advance_of (depth + 7) fun t _ => ?_
  exact ⟨cascade_release c t (depth + 1), cascade_release c t depth⟩

/-! ## Who has gone, and who has come -/

/-- The vibrations in the slots. -/
def slots (s : Scheduler σ) : List Vibration :=
  (s.current.toList ++ s.next.toList).map (·.vibration)

/-- The vibrations that have been started, the latest first. -/
def begun (s : Scheduler σ) : List Nat := s.journal.filterMap Deed.began?

/-- A talk starts nobody. -/
theorem begun_told (line : Line σ) (orders : List Order) (s : Scheduler σ) :
    (s.told line orders).begun = s.begun := by
  have ho : (orders.map Deed.issued).filterMap Deed.began? = [] := by
    rw [List.filterMap_eq_nil_iff]
    intro d hd
    obtain ⟨o, -, rfl⟩ := List.mem_map.1 hd
    rfl
  rw [begun, journal_told, List.filterMap_append, ho]
  rfl

/-- Between two states some vibrations have been started, and some have left the slots and been
retired, each as it has become; the others are still there. -/
structure Clears (started : List Nat) (gone : List Vibration) (s t : Scheduler σ) : Prop where
  slots : Renews s.slots (t.slots ++ gone)
  retired : t.retired = gone ++ s.retired
  begun : t.begun = started ++ s.begun

section clears

variable {started started' : List Nat} {gone gone' : List Vibration}

/-- Who has gone and who has come add up. -/
theorem Clears.trans (h : Clears started gone s t) (h' : Clears started' gone' t u) :
    Clears (started' ++ started) (gone' ++ gone) s u where
  slots := by
    have hperm : (gone ++ (u.slots ++ gone')).Perm (u.slots ++ (gone' ++ gone)) := by
      rw [← List.append_assoc u.slots]
      exact List.perm_append_comm
    have hgone := (h'.slots.append_left gone).trans (.of_perm hperm)
    exact h.slots.trans (.trans (.of_perm List.perm_append_comm) hgone)
  retired := by rw [h'.retired, h.retired, List.append_assoc]
  begun := by rw [h'.begun, h.begun, List.append_assoc]

/-- Who is in the slots stays there. -/
theorem clears_of_eq (hc : t.current = s.current) (hn : t.next = s.next)
    (hr : t.retired = s.retired) (hb : t.begun = s.begun) : Clears [] [] s t where
  slots := by
    rw [List.append_nil, slots, slots, hc, hn]
    exact .of_perm (.refl _)
  retired := hr
  begun := hb

/-- Where nothing happens nobody goes and nobody comes. -/
theorem Clears.refl (s : Scheduler σ) : Clears [] [] s s := clears_of_eq rfl rfl rfl rfl

/-- Nor does anybody in a talk. -/
theorem clears_told (line : Line σ) (orders : List Order) (s : Scheduler σ) :
    Clears [] [] s (s.told line orders) :=
  clears_of_eq rfl rfl (retired_told ..) (begun_told ..)

/-- The vibration that holds the motor has become what it is. -/
theorem clears_current (hp : s.current = some p) (h : p.vibration.Becomes q.vibration) :
    Clears [] [] s { s with current := some q } where
  slots := by
    rw [List.append_nil, slots, slots, hp]
    exact .of_becomes h (.refl _) (.refl _)
  retired := rfl
  begun := rfl

/-- The end of whoever holds the motor leaves it in its slot. -/
theorem clears_finishCurrent (c : Context σ) {status : Status} (hs : status.isTerminal = true)
    (s : Scheduler σ) : Clears [] [] s (s.finishCurrent c status) := by
  cases hp : s.current with
  | none =>
    rw [finishCurrent_of_none c hp]
    exact .refl s
  | some p =>
    rw [finishCurrent_of_some c hp]
    exact clears_current hp (Vibration.becomes_finish _ hs _)

/-- So does its failure. -/
theorem clears_failCurrent (c : Context σ) (s : Scheduler σ) :
    Clears [] [] s (s.failCurrent c) :=
  (clears_told s.line.reset [] s).trans (clears_finishCurrent c rfl _)

/-- To start a step takes nobody out of a slot. -/
theorem Started.clears {answer : Bool × Scheduler σ} (h : Started c s p answer)
    (hp : s.current = some p) : Clears [] [] s answer.2 := by
  cases h with
  | exhausted hn => exact clears_finishCurrent c rfl s
  | failed hn ht hg => exact (clears_told _ _ s).trans (clears_failCurrent c _)
  | @launched line step cursor info hn ht reported =>
    let orders := (step.orders info p.id p.packets).reverse
    have hlaunch := clears_current (s := s.told line orders) (q := p.launch step cursor c.now
      (step.span reported c.config.prebakedFallbackMs)) hp .same
    exact (clears_told line orders s).trans hlaunch

/-- **Whoever holds the motor goes**, once, and is retired. -/
theorem clears_dropCurrent (c : Context σ) (s : Scheduler σ) :
    ∃ gone, Clears [] gone s (s.dropCurrent c) := by
  unfold dropCurrent
  cases hp : s.current with
  | none => exact ⟨[], .refl s⟩
  | some p =>
    refine ⟨[p.vibration.finish .finished c.now], ?_, rfl, rfl⟩
    have hslots : ({ s with current := none } : Scheduler σ).slots =
        s.next.toList.map (·.vibration) := rfl
    change Renews s.slots (({ s with current := none } : Scheduler σ).slots ++ _)
    rw [hslots, slots, hp]
    exact .of_becomes (Vibration.becomes_finish _ rfl _) (.refl _) List.perm_append_comm

/-- Sessions are none of the vibrations' business. -/
theorem clears_activateExternal (c : Context σ) (s : Scheduler σ) :
    Clears [] [] s (s.activateExternal c) := by
  have h := activated_activateExternal c s
  generalize s.activateExternal c = t at h
  cases h with
  | idle h => exact .refl s
  | @seized line e hc he ha ht =>
    have hseize : Clears [] [] (s.told line [.externalControl true])
        ((s.told line [.externalControl true]).seize e) := clears_of_eq rfl rfl rfl rfl
    exact (clears_told line _ s).trans hseize
  | @failed line e hc he ha ht =>
    have hdismiss : Clears [] [] (s.told line [])
        ((s.told line []).dismiss c .ignoredErrorScheduling e) := clears_of_eq rfl rfl rfl rfl
    exact (clears_told line [] s).trans hdismiss

/-- Who gives up the motor goes, and nobody comes. -/
theorem clears_vacate (c : Context σ) (s : Scheduler σ) :
    ∃ gone, Clears [] gone s (s.vacate c) := by
  obtain ⟨gone, hgone⟩ := clears_dropCurrent c s
  exact ⟨gone, hgone.trans (clears_activateExternal c _)⟩

/-- Whoever waits takes the motor, which is free. -/
theorem clears_takenBy (hc : s.current = none) (hq : s.next = some q) :
    Clears [q.id] [] s ({ s with next := none }.takenBy q) where
  slots := by
    rw [List.append_nil, slots, slots, hc, hq]
    exact .of_becomes q.vibration.becomes_start_of_any (.refl _) (.refl _)
  retired := rfl
  begun := rfl

/-- What may have become of whoever waited: they still wait, or they have been started. -/
inductive Served (s t : Scheduler σ) : List Nat → Prop where
  | waits (h : t.next = s.next) : Served s t []
  | starts {q : Playback} (hq : s.next = some q) (hn : t.next = none) : Served s t [q.id]

/-- Whoever waits later has waited before. -/
theorem Served.of_next (h : Served t u started) (hn : t.next = s.next) : Served s u started := by
  cases h with
  | waits h => exact .waits (h.trans hn)
  | starts hq hu => exact .starts (hn ▸ hq) hu

/-- Whoever waits gets the motor, and may be gone at once. -/
theorem clears_handOn (c : Context σ) (hc : s.current = none) :
    ∃ started gone, Clears started gone s (s.handOn c) ∧ Served s (s.handOn c) started := by
  unfold handOn
  cases hq : s.next with
  | none => exact ⟨[], [], .refl s, .waits rfl⟩
  | some q =>
    have hstarted := started_startStep (c := c) (s := ({ s with next := none }).takenBy q) rfl
    have hbegin := (clears_takenBy hc hq).trans (hstarted.clears rfl)
    obtain ⟨hnext, -⟩ := begin_frame c q { s with next := none }
    change Clears [q.id] [] s (begin c q { s with next := none }).2 at hbegin
    simp only
    rcases hb : begin c q { s with next := none } with ⟨ended, t⟩
    rw [hb] at hbegin hnext
    cases ended with
    | false => exact ⟨[q.id], [], hbegin, .starts hq hnext⟩
    | true =>
      obtain ⟨gone, hgone⟩ := clears_vacate c t
      exact ⟨[q.id], gone ++ [], hbegin.trans hgone, .starts hq ((next_vacate c t).trans hnext)⟩

/-- **Who gives up the motor goes**, and whoever waits may go too. -/
theorem clears_release (c : Context σ) (s : Scheduler σ) :
    ∃ started gone, Clears started gone s (s.release c) ∧ Served s (s.release c) started := by
  obtain ⟨gone, hvacate⟩ := clears_vacate c s
  have hnext := next_vacate c s
  rw [release_eq]
  split
  · obtain ⟨started, gone', hclears, hserved⟩ := clears_handOn c (current_vacate c s)
    have hboth := hvacate.trans hclears
    rw [List.append_nil] at hboth
    exact ⟨started, gone' ++ gone, hboth, hserved.of_next hnext⟩
  · exact ⟨[], gone, hvacate, .waits hnext⟩

/-- What came before the motor was given up, without anybody leaving a slot, makes no difference. -/
theorem clears_release_of (h : Clears [] [] s t) (hn : t.next = s.next) :
    ∃ started gone, Clears started gone s (t.release c) ∧ Served s (t.release c) started := by
  obtain ⟨started, gone, hclears, hserved⟩ := clears_release c t
  have hboth := h.trans hclears
  rw [List.append_nil, List.append_nil] at hboth
  exact ⟨started, gone, hboth, hserved.of_next hn⟩

/-- Whoever holds the motor goes on, or goes, and whoever waits may come. -/
theorem clears_advance (c : Context σ) (s : Scheduler σ) :
    ∃ started gone, Clears started gone s (s.advance c) ∧ Served s (s.advance c) started := by
  cases hp : s.current with
  | none =>
    have hsame : s.advance c = s := by rw [advance_eq, startStep_of_none hp, unlessEnded]
    rw [hsame]
    exact ⟨[], [], .refl s, .waits rfl⟩
  | some p =>
    have hstarted := started_startStep (c := c) hp
    have hclears := hstarted.clears hp
    have hnext := hstarted.frame.1
    rw [advance_eq]
    rcases hs : s.startStep c with ⟨ended, t⟩
    rw [hs] at hclears hnext
    cases ended with
    | false => exact ⟨[], [], hclears, .waits hnext⟩
    | true => exact clears_release_of hclears hnext

end clears

/-! ## In every state -/

/-- Where a call leads, with all those that it leads to. -/
structure Concludes (c : Context σ) (call : Call) (s t : Scheduler σ) : Prop where
  /-- There is an end to the calls. -/
  reached : ∀ depth, 9 ≤ depth → cascade c depth call s = some t
  /-- Those who leave the slots are retired, each once and as it has become, and nobody else is;
  they are two at most. -/
  gone : ∃ gone, t.retired = gone ++ s.retired ∧ Renews s.slots (t.slots ++ gone) ∧
    gone.length ≤ 2
  /-- Nobody is started but who has waited, and then only once. -/
  started : t.begun = s.begun ∨
    ∃ q, s.next = some q ∧ t.next = none ∧ t.begun = q.id :: s.begun
  /-- Nobody comes to wait. -/
  next : t.next = s.next ∨ t.next = none

/-- There are two slots. -/
theorem length_slots_le (s : Scheduler σ) : s.slots.length ≤ 2 := by
  unfold slots
  cases s.current <;> cases s.next <;> simp

/-- A call comes to its conclusion if it comes to an end and the books are right. -/
theorem concludes_of_clears {call : Call} {start : Nat} (hstart : start ≤ 9)
    (hreached : ∀ depth, cascade c (depth + start) call s = some t)
    (h : ∃ started gone, Clears started gone s t ∧ Served s t started) : Concludes c call s t := by
  obtain ⟨started, gone, hclears, hserved⟩ := h
  refine ⟨fun depth hdepth => ?_, ⟨gone, hclears.retired, hclears.slots, ?_⟩, ?_, ?_⟩
  · obtain ⟨rest, rfl⟩ := Nat.exists_eq_add_of_le' (hstart.trans hdepth)
    exact hreached rest
  · have hlength := hclears.slots.perm_ids.length_eq
    rw [List.length_map, List.length_map, List.length_append] at hlength
    have hle := length_slots_le s
    omega
  · cases hserved with
    | waits h => exact .inl hclears.begun
    | starts hq hn => exact .inr ⟨_, hq, hn, hclears.begun⟩
  · cases hserved with
    | waits h => exact .inl h
    | starts hq hn => exact .inr hn

/-- **The cascade of a release comes to an end**, in every state `s`, reached or not, and whatever
the actuator answers: the calls that see to it, entered where a vibration goes on to its next step,
where the actuator has failed it, or where it gives up the motor, go no deeper than nine. They lead
where `advance`, `failCurrent` and `release` lead. Whoever leaves a slot is retired, once; two at
most do. One vibration at most is started, and it is the one that has waited; and nobody comes to
wait. -/
theorem cascade_ends (c : Context σ) (s : Scheduler σ) :
    Concludes c .advance s (s.advance c) ∧ Concludes c .fail s ((s.failCurrent c).release c) ∧
      Concludes c .release s (s.release c) := by
  have hfail := clears_release_of (c := c) (clears_failCurrent c s) rfl
  refine ⟨?_, ?_, ?_⟩
  · exact concludes_of_clears (Nat.le_refl 9) (cascade_advance c s) (clears_advance c s)
  · exact concludes_of_clears (by decide) (cascade_fail c s) hfail
  · exact concludes_of_clears (by decide) (cascade_release c s) (clears_release c s)

/-- A stream comes to its end while a push waits, and the motor refuses the push: both are gone. -/
example :
    let s := after onBench bench preemption
    let failing := { s.line.actuator with motor := { s.line.actuator.motor with failing := true } }
    let t := (s.undergo onBench (.moved failing)).release onBench
    t.retired.map (·.status) = [.ignoredErrorScheduling, .cancelledSuperseded] ∧
      t.begun = [2, 1] ∧ t.slots = [] := by
  decide

end Scheduler

end Haptics
