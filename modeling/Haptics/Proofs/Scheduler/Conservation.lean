import Haptics.Proofs.Scheduler.Course
import Mathlib.Data.Multiset.MapFold

/-!
# No vibration is lost, and none comes back

Every vibration that has been asked for is in one place: it holds the motor, waits for it, or is
among those that have been retired (`Scheduler.vibrations`). Its status goes from `pending`, perhaps
by way of `running`, to a final one that stays (`Vibration.Becomes`).

* `Change.renews`: each change moves the vibrations about and takes some of them further (`Renews`).
* `renews_undergoAll`: so does a whole course, which adds those that are asked for.
* `conservation`: where the vibrations are, in every state of every course, and what has become of
  them later.
-/

namespace Haptics

/-! ## The life of a vibration -/

/-- What can become of a vibration. Nothing but its status and its end changes. -/
inductive Vibration.Becomes (v : Vibration) : Vibration → Prop where
  | same : Becomes v v
  | started (h : v.status = .pending) : Becomes v { v with status := .running }
  | ended (h : v.hasEnded = false) (status : Status) (hs : status.isTerminal = true) (now : Nat) :
      Becomes v { v with status, endedMs := some now }

namespace Vibration

variable {v w u : Vibration}

/-- A vibration that waits has not ended. -/
theorem hasEnded_of_pending (h : v.status = .pending) : v.hasEnded = false := by
  rw [hasEnded, h]
  rfl

/-- What can become of a vibration in two goes can become of it in one. -/
theorem Becomes.trans (h : v.Becomes w) (h' : w.Becomes u) : v.Becomes u := by
  cases h with
  | same => exact h'
  | started hp =>
    cases h' with
    | same => exact .started hp
    | started hp' => cases hp'
    | ended _ _ hs now => exact .ended (hasEnded_of_pending hp) _ hs now
  | ended hl status hs now =>
    cases h' with
    | same => exact .ended hl status hs now
    | started hp' =>
      have hp : status = .pending := hp'
      rw [hp] at hs
      cases hs
    | ended hl' => rw [hasEnded, hs] at hl'; cases hl'

/-- So a vibration can be followed through a course. -/
instance : IsTrans Vibration Becomes := ⟨fun _ _ _ => Becomes.trans⟩

/-- The number stays. -/
theorem Becomes.id_eq (h : v.Becomes w) : v.id = w.id := by
  cases h <;> rfl

/-- The time of the end is there exactly when the end is. -/
theorem Becomes.endedMs_isSome (h : v.Becomes w) (he : v.endedMs.isSome = v.hasEnded) :
    w.endedMs.isSome = w.hasEnded := by
  cases h with
  | same => exact he
  | started hp => exact he.trans (hasEnded_of_pending hp)
  | ended hl status hs now => exact hs.symm

/-- A vibration that waits can be started. -/
theorem becomes_start (h : v.status = .pending) : v.Becomes v.start := by
  rw [start, hasEnded_of_pending h]
  exact .started h

/-- A vibration can end, if it has not. -/
theorem becomes_finish (v : Vibration) {status : Status} (hs : status.isTerminal = true)
    (now : Nat) : v.Becomes (v.finish status now) := by
  cases hl : v.hasEnded with
  | true => rw [finish_of_ended hl]; exact .same
  | false => rw [finish_of_live hl hs]; exact .ended hl status hs now

/-- Then it has ended. -/
theorem hasEnded_finish (v : Vibration) {status : Status} (hs : status.isTerminal = true)
    (now : Nat) : (v.finish status now).hasEnded = true := by
  cases hl : v.hasEnded with
  | true => rw [finish_of_ended hl]; exact hl
  | false => rw [finish_of_live hl hs]; exact hs

end Vibration

/-! ## Vibrations that have become others -/

/-- The vibrations of a list have become those of another, one by one and in any order. -/
def Renews (before later : List Vibration) : Prop :=
  Multiset.Rel Vibration.Becomes (before : Multiset Vibration) later

section Renews

variable {before later last rest : List Vibration} {v w : Vibration}

/-- Vibrations in another order are the same. -/
theorem Renews.of_perm (h : before.Perm later) : Renews before later := by
  rw [Renews, Multiset.coe_eq_coe.2 h]
  exact Multiset.rel_refl_of_refl_on fun _ _ => .same

/-- Vibrations that are renewed twice in turn are renewed. -/
theorem Renews.trans (h : Renews before later) (h' : Renews later last) : Renews before last :=
  Multiset.Rel.trans Vibration.Becomes h h'

/-- One vibration is taken further, and the rest is left alone. -/
theorem Renews.of_becomes (h : v.Becomes w) (hb : before.Perm (v :: rest))
    (hl : later.Perm (w :: rest)) : Renews before later := by
  rw [Renews, Multiset.coe_eq_coe.2 hb, Multiset.coe_eq_coe.2 hl, ← Multiset.cons_coe,
    ← Multiset.cons_coe]
  exact .cons h (Multiset.rel_refl_of_refl_on fun _ _ => .same)

/-- Those in front are left alone. -/
theorem Renews.append_left (h : Renews before later) (first : List Vibration) :
    Renews (first ++ before) (first ++ later) := by
  rw [Renews, ← Multiset.coe_add, ← Multiset.coe_add]
  exact Multiset.Rel.add (Multiset.rel_refl_of_refl_on fun _ _ => .same) h

/-- The numbers stay. -/
theorem Renews.perm_ids (h : Renews before later) :
    (before.map (·.id)).Perm (later.map (·.id)) := by
  rw [← Multiset.coe_eq_coe, ← Multiset.map_coe, ← Multiset.map_coe, ← Multiset.rel_eq,
    Multiset.rel_map]
  exact h.mono fun v _ w _ hvw => hvw.id_eq

/-- Of every vibration something has become. -/
theorem Renews.exists_becomes (h : Renews before later) (hv : v ∈ before) :
    ∃ w ∈ later, v.Becomes w := by
  obtain ⟨w, hw, hvw⟩ := Multiset.exists_mem_of_rel_of_mem h (Multiset.mem_coe.2 hv)
  exact ⟨w, Multiset.mem_coe.1 hw, hvw⟩

/-- Every vibration has come of one. -/
theorem Renews.exists_became (h : Renews before later) (hw : w ∈ later) :
    ∃ v ∈ before, v.Becomes w := by
  obtain ⟨v, hv, hvw⟩ :=
    Multiset.exists_mem_of_rel_of_mem (Multiset.rel_flip.2 h) (Multiset.mem_coe.2 hw)
  exact ⟨v, Multiset.mem_coe.1 hv, hvw⟩

end Renews

/-! ## Where the vibrations are -/

/-- The vibration that a deed has retired. -/
def Deed.retired? : Deed → Option Vibration
  | .retired v => some v
  | _ => none

namespace Scheduler

open Occurrence

variable {σ : Type} {c : Context σ} {leave : Playback → Prop} {s : Scheduler σ}

/-- The vibrations that have been retired, the latest first. -/
def retired (s : Scheduler σ) : List Vibration := s.journal.filterMap Deed.retired?

/-- The vibration that holds the motor, the one that waits, and those that have been retired. -/
def vibrations (s : Scheduler σ) : List Vibration :=
  (s.current.toList ++ s.next.toList).map (·.vibration) ++ s.retired

/-- The vibrations of a moment, with the one that has not found its place yet. -/
def Moment.vibrations (m : Moment σ) : List Vibration :=
  m.asking.toList ++ m.scheduler.vibrations

/-- A talk retires nobody. -/
theorem retired_told (line : Line σ) (orders : List Order) (s : Scheduler σ) :
    (s.told line orders).retired = s.retired := by
  have ho : (orders.map Deed.issued).filterMap Deed.retired? = [] := by
    rw [List.filterMap_eq_nil_iff]
    intro d hd
    obtain ⟨o, -, rfl⟩ := List.mem_map.1 hd
    rfl
  rw [retired, journal_told, List.filterMap_append, ho]
  rfl

/-- A talk moves no vibration. -/
theorem vibrations_told (line : Line σ) (orders : List Order) (s : Scheduler σ) :
    (s.told line orders).vibrations = s.vibrations := by
  rw [vibrations, retired_told]
  rfl

/-- Nobody is retired because something has happened outside. -/
@[simp] theorem retired_shifted (o : Occurrence σ) (s : Scheduler σ) :
    (s.shifted o).retired = s.retired := by
  rw [retired, journal_shifted, retired]

/-- Nor is any vibration moved. -/
theorem vibrations_shifted (o : Occurrence σ) (s : Scheduler σ) :
    (s.shifted o).vibrations = s.vibrations := by
  rw [vibrations, current_shifted, next_shifted, retired_shifted, vibrations]

/-- The vibration that holds the motor, and the others. -/
theorem vibrations_of_current {p : Playback} (hp : s.current = some p) :
    s.vibrations = p.vibration :: { s with current := none }.vibrations := by
  rw [vibrations, hp]
  rfl

/-- The vibration that waits, and the others. -/
theorem vibrations_of_next {q : Playback} (hq : s.next = some q) :
    s.vibrations.Perm (q.vibration :: { s with next := none }.vibrations) := by
  have ho : { s with next := none }.vibrations =
      s.current.toList.map (·.vibration) ++ s.retired := by
    simp [vibrations, retired]
  rw [vibrations, hq, ho, List.map_append, List.append_assoc]
  exact List.perm_middle

/-- One that is retired is one more. -/
theorem vibrations_retire (v : Vibration) (s : Scheduler σ) :
    (s.retire v).vibrations.Perm (v :: s.vibrations) :=
  List.perm_middle

/-- A motor that nobody holds is free already. -/
theorem eq_of_current_eq_none (h : s.current = none) : { s with current := none } = s := by
  rw [← h]

/-- Where nobody waits there is nobody to take away. -/
theorem eq_of_next_eq_none (h : s.next = none) : { s with next := none } = s := by
  rw [← h]

/-! ## Changes -/

/-- What the vibration that holds the motor becomes in a turn. -/
theorem Turn.becomes {p p' : Playback} (h : Turn c p p') : p.vibration.Becomes p'.vibration := by
  cases h with
  | launched reported hp hn => exact .same
  | ended hs => exact Vibration.becomes_finish _ hs _
  | lapsed hp hd hle => exact .same

/-- A turn leaves the number as it is. -/
theorem Turn.id_eq {p p' : Playback} (h : Turn c p p') : p'.id = p.id :=
  h.becomes.id_eq.symm

/-- A turn does not tell the vibration to stop. -/
theorem Turn.stopping_eq {p p' : Playback} (h : Turn c p p') : p'.stopping = p.stopping := by
  cases h <;> rfl

/-- What becomes of the vibration that holds the motor concerns nobody else. -/
theorem renews_current {p p' : Playback} (hp : s.current = some p)
    (h : p.vibration.Becomes p'.vibration) :
    Renews s.vibrations { s with current := some p' }.vibrations :=
  .of_becomes h (.of_eq (vibrations_of_current hp)) (.of_eq (vibrations_of_current rfl))

/-- A vibration that nothing has been done with takes the motor, which is free. -/
theorem renews_takenBy {q : Playback} (hc : s.current = none) (hq : q.vibration.status = .pending) :
    Renews (q.vibration :: s.vibrations) (s.takenBy q).vibrations := by
  refine .of_becomes (Vibration.becomes_start hq) (.refl _) (.of_eq ?_)
  rw [vibrations_of_current (s := s.takenBy q) rfl, ← eq_of_current_eq_none hc]
  rfl

/-- **A change loses no vibration and makes none up.** -/
theorem Change.renews {m m' : Moment σ} (h : Change c leave m m') :
    Renews m.vibrations m'.vibrations := by
  cases h with
  | talked ht hp =>
    refine .of_perm (.of_eq ?_)
    rw [Moment.vibrations, Moment.vibrations, vibrations_told]
  | noted admitted callState alwaysOn => exact .of_perm (.refl _)
  | refused hs =>
    exact .of_becomes (Vibration.becomes_finish _ hs _) (.refl _) (vibrations_retire ..)
  | @queued v s hn =>
    -- who asks is counted already, and now among those who wait
    have hv : { s with next := some { vibration := v } }.vibrations.Perm
        (v :: { s with next := none }.vibrations) :=
      vibrations_of_next (q := { vibration := v }) rfl
    rw [eq_of_next_eq_none hn] at hv
    exact .of_perm hv.symm
  | @entered v s hc he hv => exact renews_takenBy (q := { vibration := v }) hc hv
  | promoted hq hc he hu =>
    refine .append_left (.trans (.of_perm (vibrations_of_next hq)) ?_) _
    exact renews_takenBy hc hu.pending
  | @stacked x s q hq packet =>
    refine .append_left (.of_perm ((vibrations_of_next hq).trans (.symm ?_))) _
    exact vibrations_of_next (q := { q with packets := q.packets ++ [packet] }) rfl
  | dropped hq hs =>
    refine .append_left ?_ _
    exact .of_becomes (Vibration.becomes_finish _ hs _) (vibrations_of_next hq)
      (vibrations_retire ..)
  | turned hp ht => exact (renews_current hp ht.becomes).append_left _
  | @halted x s p line hp hs hf hc ht =>
    refine .append_left ?_ _
    rw [← vibrations_told line [.stop] s, awaitStop, current_told, hp]
    exact renews_current hp .same
  | left hp hl =>
    refine .append_left ?_ _
    exact .of_becomes (Vibration.becomes_finish _ rfl _) (.of_eq (vibrations_of_current hp))
      (vibrations_retire ..)
  | installed he request scale => exact .of_perm (.refl _)
  | seized he ha hc => exact .of_perm (.refl _)
  | dismissed he hs => exact .of_perm (.refl _)

/-- The journal only grows. -/
theorem Change.journal_suffix {m m' : Moment σ} (h : Change c leave m m') :
    m.scheduler.journal <:+ m'.scheduler.journal := by
  cases h with
  | talked ht hp => exact ⟨_, rfl⟩
  | halted hp hs hf hc ht => exact ⟨_, rfl⟩
  | refused hs => exact List.suffix_cons ..
  | entered hc he hv => exact List.suffix_cons ..
  | promoted hq hc he hu => exact List.suffix_cons ..
  | dropped hq hs => exact List.suffix_cons ..
  | left hp hl => exact List.suffix_cons ..
  | seized he ha hc => exact List.suffix_cons ..
  | dismissed he hs => exact List.suffix_cons ..
  | _ => exact List.suffix_refl _

/-- Vibrations are retired with a final status. -/
theorem Change.hasEnded_of_mem_retired {m m' : Moment σ} (h : Change c leave m m')
    (hm : ∀ v ∈ m.scheduler.retired, v.hasEnded = true) :
    ∀ v ∈ m'.scheduler.retired, v.hasEnded = true := by
  have hr {s : Scheduler σ} (hs : ∀ v ∈ s.retired, v.hasEnded = true) (w : Vibration)
      (hw : w.hasEnded = true) : ∀ v ∈ (s.retire w).retired, v.hasEnded = true := by
    intro v hv
    rcases List.mem_cons.1 hv with rfl | hv
    · exact hw
    · exact hs v hv
  cases h with
  | talked ht hp => rw [retired_told]; exact hm
  | @halted x s p line hp hs hf hc ht =>
    rw [show ((s.told line [.stop]).awaitStop c).retired = (s.told line [.stop]).retired from rfl,
      retired_told]
    exact hm
  | refused hs => exact hr hm _ (Vibration.hasEnded_finish _ hs _)
  | dropped hq hs => exact hr hm _ (Vibration.hasEnded_finish _ hs _)
  | left hp hl => exact hr hm _ (Vibration.hasEnded_finish _ rfl _)
  | _ => exact hm

/-! ## Courses -/

/-- **Changes lose no vibration and make none up.** -/
theorem renews_of_changes {m m' : Moment σ} (h : Relation.ReflTransGen (Change c leave) m m') :
    Renews m.vibrations m'.vibrations := by
  induction h with
  | refl => exact .of_perm (.refl _)
  | tail _ hc ih => exact ih.trans hc.renews

/-- Nor does an occurrence, which may bring one. -/
theorem renews_undergo (h : s.Settled) {o : Occurrence σ} (ho : ∀ v ∈ o.asks, v.IsNew) :
    Renews (o.asks.toList ++ s.vibrations) (s.undergo c o).vibrations := by
  have hr := renews_of_changes (undergo_spec (c := c) h ho).1
  rwa [Moment.vibrations, vibrations_shifted] at hr

/-- **A course loses no vibration and makes none up**: those that are there at its end are those
that were there at its start and those that have been asked for. -/
theorem renews_undergoAll (h : s.Settled) {os : List (Occurrence σ)}
    (ho : ∀ v ∈ asked os, v.IsNew) :
    Renews (asked os ++ s.vibrations) (s.undergoAll c os).vibrations := by
  induction os generalizing s with
  | nil => exact .of_perm (.refl _)
  | cons o rest ih =>
    obtain ⟨hv, hrest⟩ := isNew_of_cons ho
    have hr := ih (undergo_spec (c := c) h hv).2 hrest
    have hfirst := (renews_undergo (c := c) h hv).append_left (asked rest)
    refine .trans (.of_perm ?_) (hfirst.trans hr)
    rw [asked_cons, List.append_assoc]
    exact List.perm_append_comm_assoc _ _ _

/-- Who has been retired stays so. -/
theorem retired_suffix_undergoAll (h : s.Settled) {os : List (Occurrence σ)}
    (ho : ∀ v ∈ asked os, v.IsNew) : s.retired <:+ (s.undergoAll c os).retired := by
  have hj : s.journal <:+ (s.undergoAll c os).journal :=
    undergoAll_preserves (I := fun t => s.journal <:+ t.journal)
      (fun o ht => by rwa [journal_shifted])
      (fun hc ht => ht.trans hc.journal_suffix) h ho (List.suffix_refl _)
  exact hj.filterMap _

/-- The vibrations that are there are those that have been asked for. -/
theorem renews_after (c : Context σ) (actuator : σ) {os : List (Occurrence σ)}
    (ho : ∀ v ∈ asked os, v.IsNew) : Renews (asked os) (after c actuator os).vibrations := by
  have hr := renews_undergoAll (c := c) (settled_create c.config actuator) ho
  rwa [show (create c.config actuator).vibrations = [] from rfl, List.append_nil] at hr

/-- The vibrations are under different numbers. -/
theorem nodup_ids_after (c : Context σ) (actuator : σ) {os : List (Occurrence σ)} (h : Proper os) :
    ((after c actuator os).vibrations.map (·.id)).Nodup :=
  (renews_after c actuator h.new).perm_ids.nodup_iff.1 h.fresh

/-- Whoever has been retired has ended. -/
theorem hasEnded_of_mem_retired_after (c : Context σ) (actuator : σ) {os : List (Occurrence σ)}
    (ho : ∀ v ∈ asked os, v.IsNew) : ∀ v ∈ (after c actuator os).retired, v.hasEnded = true :=
  undergoAll_preserves (I := fun t => ∀ v ∈ t.retired, v.hasEnded = true)
    (fun o ht => by rwa [retired_shifted]) (fun hc ht => hc.hasEnded_of_mem_retired ht)
    (settled_create c.config actuator) ho fun v hv => by cases hv

/-- **Every vibration is accounted for**, in every state `s` of every course, and in every later
state `t`.

* It is in one place: it holds the motor, waits for it, or has been retired, and that once.
* It is retired with a final status. It has a time of its end exactly when its status is final.
* It has been asked for as `pending` and has become what it is; and it becomes what it is later on.
* Those that are retired stay as they are.
* When everything has been stopped, all have been retired. -/
theorem conservation (c : Context σ) (actuator : σ) (os later : List (Occurrence σ))
    (h : Proper (os ++ later)) :
    let s := after c actuator os
    let t := after c actuator (os ++ later)
    ((s.vibrations.map (·.id)).Perm ((asked os).map (·.id)) ∧ (s.vibrations.map (·.id)).Nodup) ∧
    (∀ v ∈ s.retired, v.status.isTerminal = true) ∧
    (∀ v ∈ s.vibrations, v.endedMs.isSome = v.status.isTerminal) ∧
    (∀ v ∈ asked os, v.status = .pending ∧ ∃ w ∈ s.vibrations, v.Becomes w) ∧
    (∀ v ∈ s.vibrations, ∃ w ∈ t.vibrations, v.Becomes w) ∧
    s.retired <:+ t.retired ∧
    ∀ now, let u := s.undergo c (.stopped now)
      u.current = none ∧ u.next = none ∧
        (u.retired.map (·.id)).Perm ((asked os).map (·.id)) := by
  have hp : Proper os := h.of_append
  have hl : ∀ v ∈ asked later, v.IsNew := by
    intro v hv
    refine h.new v ?_
    rw [asked_append]
    exact List.mem_append_right _ hv
  have hs := settled_after c actuator hp.new
  have hr := renews_after c actuator hp.new
  refine ⟨⟨hr.perm_ids.symm, nodup_ids_after c actuator hp⟩,
    hasEnded_of_mem_retired_after c actuator hp.new, fun w hw => ?_, fun v hv => ?_, fun v hv => ?_,
    ?_, fun now => ?_⟩
  · obtain ⟨v, hv, hvw⟩ := hr.exists_became hw
    refine hvw.endedMs_isSome ?_
    rw [(hp.new v hv).endedMs, Vibration.hasEnded_of_pending (hp.new v hv).status]
    rfl
  · exact ⟨(hp.new v hv).status, hr.exists_becomes hv⟩
  · rw [after_append]
    exact (renews_undergoAll hs hl).exists_becomes (List.mem_append_right _ hv)
  · rw [after_append]
    exact retired_suffix_undergoAll hs hl
  · obtain ⟨-, hc, hn, -⟩ := stopAll_spec { c with now } (after c actuator os)
    have hu := renews_undergo (c := c) (o := .stopped now) hs fun v hv => by cases hv
    refine ⟨hc, hn, ?_⟩
    -- when everything has been stopped the places are empty
    have he : ((after c actuator os).undergo c (.stopped now)).vibrations =
        ((after c actuator os).undergo c (.stopped now)).retired := by
      rw [vibrations, undergo, hc, hn]
      rfl
    rw [← he]
    exact (hr.perm_ids.trans hu.perm_ids).symm

/-- The stream that has been told to stop is retired as cancelled when it comes to its end, and the
push that waits runs. -/
theorem conservation_completion :
    Proper (preemption ++ completion) ∧
    let s := after onBench bench preemption
    let t := after onBench bench (preemption ++ completion)
    (t.retired.map (·.status) = [.cancelledSuperseded] ∧
      t.current.map (·.vibration.status) = some .running) ∧
    ((s.vibrations.map (·.id)).Perm ((asked preemption).map (·.id)) ∧
      (s.vibrations.map (·.id)).Nodup) ∧
    (∀ v ∈ s.retired, v.status.isTerminal = true) ∧
    (∀ v ∈ s.vibrations, v.endedMs.isSome = v.status.isTerminal) ∧
    (∀ v ∈ asked preemption, v.status = .pending ∧ ∃ w ∈ s.vibrations, v.Becomes w) ∧
    (∀ v ∈ s.vibrations, ∃ w ∈ t.vibrations, v.Becomes w) ∧
    s.retired <:+ t.retired ∧
    ∀ now, let u := s.undergo onBench (.stopped now)
      u.current = none ∧ u.next = none ∧
        (u.retired.map (·.id)).Perm ((asked preemption).map (·.id)) :=
  ⟨proper_completion, by decide,
    conservation onBench bench preemption completion proper_completion⟩

end Scheduler

end Haptics
