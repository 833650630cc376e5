import Haptics.Proofs.Scheduler.Conservation

/-!
# A stream that is told to stop keeps the motor

A stream cannot be broken off anywhere. When it is cancelled, the actuator is told to stop it at its
next safe place, and until the actuator reports that the stream has come to its end the vibration
keeps the motor (`Held`). It goes only when something frees it (`Occurrence.frees`): the report of
its own end, the loss of the connection, its deadline, or the end of everything. Until then no start
order is given and the motor is not handed over.

* `Held.undergoAll`: what has been told to stop holds the motor or has been freed.
* `Fate.change`: what becomes of a vibration while an input is handled that may cancel it.
* `safe_boundary`: from the order to stop on, in every course.
-/

namespace Haptics

/-- Whether a deed starts nothing and hands nothing over. -/
def Deed.Quiet (d : Deed) : Prop := ∀ o, d = .issued o → o.Quiet

/-- A deed that is no order is quiet. -/
theorem Deed.quiet_of_ne {d : Deed} (h : ∀ o, d ≠ .issued o) : d.Quiet :=
  fun o ho => absurd ho (h o)

namespace Scheduler

open Occurrence

variable {σ : Type} {c : Context σ} {leave : Playback → Prop} {s t : Scheduler σ} {p : Playback}
  {old : List Deed}

/-! ## What a change means for the holder of the motor -/

/-- What a change means for the vibration that holds the motor, and for the journal. -/
inductive Motion (c : Context σ) (leave : Playback → Prop) (s t : Scheduler σ) : Prop where
  /-- Nothing. -/
  | aside (hc : t.current = s.current) (hj : t.journal = s.journal)
  /-- Somebody else has come or gone. -/
  | deed {d : Deed} (hd : ∀ o, d ≠ .issued o) (hc : t.current = s.current)
      (hj : t.journal = d :: s.journal)
  /-- There has been a talk. -/
  | talked (orders : List Order) (hp : ∀ o ∈ orders, s.Permits leave o)
      (hc : t.current = s.current) (hj : t.journal = orders.map .issued ++ s.journal)
  /-- The motor was free, and whoever has it now has not been told to stop. -/
  | taken (hf : s.current = none) (hs : ∀ p ∈ t.current, p.stopping = false)
  /-- The holder has taken a turn. -/
  | turned {p p' : Playback} (hp : s.current = some p) (ht : Turn c p p')
      (hc : t.current = some p') (hj : t.journal = s.journal)
  /-- The holder has been told to stop. -/
  | halted {p : Playback} (hp : s.current = some p) (hs : p.stopping = false)
      (hst : (p.awaitStop (c.now + c.config.cancelGraceMs)).Stops)
      (hc : t.current = some (p.awaitStop (c.now + c.config.cancelGraceMs)))
      (hj : t.journal = .issued .stop :: s.journal)
  /-- The holder is gone. -/
  | left {p : Playback} (hp : s.current = some p) (hl : p.stopping = true → leave p)
      (hc : t.current = none)
      (hj : t.journal = .retired (p.finish .finished c.now).vibration :: s.journal)

/-- **Every change is a motion** of whoever holds the motor. -/
theorem Change.motion {m m' : Moment σ} (h : Change c leave m m') :
    Motion c leave m.scheduler m'.scheduler := by
  cases h with
  | talked ht hp => exact .talked _ hp rfl rfl
  | noted admitted callState alwaysOn => exact .aside rfl rfl
  | refused ht => exact .deed (by simp) rfl rfl
  | queued hn => exact .aside rfl rfl
  | entered hf he hv =>
    refine .taken hf ?_
    rintro _ ⟨⟩
    rfl
  | promoted hq hf he hu =>
    refine .taken hf ?_
    rintro _ ⟨⟩
    exact hu.stopping
  | stacked hq packet => exact .aside rfl rfl
  | dropped hq ht => exact .deed (by simp) rfl rfl
  | turned hp ht => exact .turned hp ht rfl rfl
  | halted hp hs hf hcancelled ht =>
    exact .halted hp hs ⟨hcancelled, rfl, hf⟩ (current_halted hp c _) rfl
  | left hp hl => exact .left hp hl rfl rfl
  | installed he request scale => exact .aside rfl rfl
  | seized he ha hf =>
    refine .taken hf fun p hp => ?_
    cases hf.symm.trans hp
  | dismissed he ht => exact .deed (by simp) rfl rfl

/-! ## Holding the motor -/

/-- A vibration holds the motor, and since the deeds of an old journal nothing has been started or
handed over. -/
structure Held (p : Playback) (old : List Deed) (s : Scheduler σ) : Prop where
  current : s.current = some p
  quiet : ∃ new, (∀ d ∈ new, d.Quiet) ∧ s.journal = new ++ old

/-- A vibration has been retired, and nothing had been started or handed over until then. -/
def Gone (p : Playback) (old : List Deed) (s : Scheduler σ) : Prop :=
  ∃ later new, (∀ d ∈ new, d.Quiet) ∧
    s.journal = later ++ .retired p.vibration :: (new ++ old)

/-- Who is gone stays gone. -/
theorem Gone.mono (h : Gone p old s) (hj : s.journal <:+ t.journal) : Gone p old t := by
  obtain ⟨later, new, hq, hs⟩ := h
  obtain ⟨more, ht⟩ := hj
  exact ⟨more ++ later, new, hq, by rw [← ht, hs, List.append_assoc]⟩

/-- It depends on who holds the motor and on the journal. -/
theorem Held.of_eq (h : Held p old s) (hc : t.current = s.current) (hj : t.journal = s.journal) :
    Held p old t where
  current := hc.trans h.current
  quiet := by rw [hj]; exact h.quiet

/-- More quiet deeds, beside which the vibration keeps the motor. -/
theorem Held.of_append (h : Held p old s) (deeds : List Deed) (hd : ∀ d ∈ deeds, d.Quiet)
    (hc : t.current = s.current) (hj : t.journal = deeds ++ s.journal) : Held p old t where
  current := hc.trans h.current
  quiet := by
    obtain ⟨new, hq, hs⟩ := h.quiet
    refine ⟨deeds ++ new, fun d hm => ?_, by rw [hj, hs, List.append_assoc]⟩
    rcases List.mem_append.1 hm with hm | hm
    · exact hd d hm
    · exact hq d hm

/-- While a vibration that has been told to stop holds the motor, only quiet orders are
permitted. -/
theorem Permits.quiet {o : Order} (h : s.Permits leave o) (hc : s.current = some p)
    (hs : p.Stops) : o.Quiet := by
  constructor
  · cases ho : o.owner? with
    | none => rfl
    | some id =>
      obtain ⟨-, p', hc', hr, -⟩ := h.starts id ho
      cases hc.symm.trans hc'
      exact absurd hr hs.not_runs
  · intro ho
    rw [h.hands ho] at hc
    cases hc

/-- While a stream is stopping only quiet orders are permitted. -/
theorem quiet_of_permits {orders : List Order} (hc : s.current = some p) (hs : p.Stops)
    (hp : ∀ o ∈ orders, s.Permits leave o) : ∀ d ∈ orders.map Deed.issued, d.Quiet := by
  intro d hd o ho
  obtain ⟨o', ho', rfl⟩ := List.mem_map.1 hd
  cases ho
  exact (hp o ho').quiet hc hs

/-- A vibration that has been told to stop has ended, so that nothing ends it again. -/
theorem finish_of_stops (h : p.Stops) (status : Status) (now : Nat) : p.finish status now = p := by
  have he : p.vibration.hasEnded = true := Status.isTerminal_of_isCancelled h.cancelled
  rw [Playback.finish, Vibration.finish_of_ended he]

/-- A vibration that has been told to stop takes no turn any more. -/
theorem Turn.eq_of_stops {p p' : Playback} (h : Turn c p p') (hs : p.Stops) : p' = p := by
  cases h with
  | launched reported hr hn => exact absurd hr hs.not_runs
  | ended ht => exact finish_of_stops hs _ _
  | lapsed hr hd hle => exact absurd hr hs.not_runs

/-- **A vibration that has been told to stop keeps the motor** in every change, or leaves it as it
may. -/
theorem Held.change {m m' : Moment σ} (h : Held p old m.scheduler) (hs : p.Stops)
    (hm : Change c leave m m') :
    Held p old m'.scheduler ∨ (leave p ∧ Gone p old m'.scheduler) := by
  have hcur := h.current
  cases hm.motion with
  | aside hc hj => exact .inl (h.of_eq hc hj)
  | @deed d hd hc hj =>
    exact .inl (h.of_append [d] (by simpa using Deed.quiet_of_ne hd) hc hj)
  | talked orders hp hc hj => exact .inl (h.of_append _ (quiet_of_permits hcur hs hp) hc hj)
  | taken hf hnew => cases hf.symm.trans hcur
  | turned hp ht hc hj =>
    cases hp.symm.trans hcur
    rw [ht.eq_of_stops hs] at hc
    exact .inl (h.of_eq (hc.trans hcur.symm) hj)
  | halted hp hst hstops hc hj =>
    cases hp.symm.trans hcur
    rw [hs.stopping] at hst
    cases hst
  | left hp hl hc hj =>
    cases hp.symm.trans hcur
    rw [finish_of_stops hs] at hj
    obtain ⟨new, hq, hold⟩ := h.quiet
    exact .inr ⟨hl hs.stopping, [], new, hq, by rw [hj, hold]; rfl⟩

/-- A vibration that has been told to stop keeps the motor or has left it with leave. -/
theorem Held.changes {m m' : Moment σ} (h : Held p old m.scheduler) (hs : p.Stops)
    (hr : Relation.ReflTransGen (Change c leave) m m') :
    Held p old m'.scheduler ∨ (leave p ∧ Gone p old m'.scheduler) := by
  refine holds_of_changes
    (I := fun m => Held p old m.scheduler ∨ (leave p ∧ Gone p old m.scheduler)) ?_ hr (.inl h)
  rintro m m' hc (hh | ⟨hl, hg⟩)
  · exact hh.change hs hc
  · exact .inr ⟨hl, hg.mono hc.journal_suffix⟩

/-- What becomes of a vibration that has been told to stop in the course of occurrences: it keeps
the motor, or one of them has freed it. -/
def HeldOrFreed (c : Context σ) (p : Playback) (old : List Deed) (s : Scheduler σ)
    (os : List (Occurrence σ)) : Prop :=
  Held p old (s.undergoAll c os) ∨
    ∃ held o rest, os = held ++ o :: rest ∧ o.frees p ∧
      (held ≠ [] → Held p old (s.undergoAll c held)) ∧
      Gone p old (s.undergoAll c (held ++ [o]))

/-- A vibration that has been told to stop keeps the motor in an occurrence, or is freed by it. -/
theorem Held.undergo (h : Held p old s) (hp : p.Stops) (hs : s.Settled) {o : Occurrence σ}
    (ho : ∀ v ∈ o.asks, v.IsNew) :
    Held p old (s.undergo c o) ∨ (o.frees p ∧ Gone p old (s.undergo c o)) := by
  have hr := (undergo_spec (c := c) hs ho).1
  have hm : Held p old (s.shifted o) := h.of_eq (current_shifted ..) (journal_shifted ..)
  exact Held.changes (m := ⟨o.asks, s.shifted o⟩) hm hp hr

/-- **A vibration that has been told to stop keeps the motor until it is freed.** -/
theorem Held.undergoAll (h : Held p old s) (hp : p.Stops) (hs : s.Settled)
    {os : List (Occurrence σ)} (ho : ∀ v ∈ asked os, v.IsNew) : HeldOrFreed c p old s os := by
  induction os generalizing s with
  | nil => exact .inl h
  | cons o rest ih =>
    obtain ⟨hv, hrest⟩ := isNew_of_cons ho
    rcases h.undergo (c := c) hp hs hv with hh | ⟨hf, hg⟩
    · have hs' := (undergo_spec (c := c) hs hv).2
      rcases ih hh hs' hrest with hh' | ⟨held, o', rest', rfl, hf, hheld, hg⟩
      · exact .inl hh'
      · refine .inr ⟨o :: held, o', rest', rfl, hf, fun _ => ?_, hg⟩
        cases held with
        | nil => exact hh
        | cons o'' held => exact hheld (by simp)
    · exact .inr ⟨[], o, rest, rfl, hf, fun hne => absurd rfl hne, hg⟩

/-! ## Telling a stream to stop -/

/-- Of two entries of a list one comes after the other. -/
theorem mem_or_mem_of_append_eq {α : Type} {a b : α} {l₁ l₂ l₃ l₄ : List α}
    (h : l₁ ++ a :: l₂ = l₃ ++ b :: l₄) (hab : a ≠ b) : a ∈ l₄ ∨ b ∈ l₂ := by
  rcases List.append_eq_append_iff.1 h with ⟨l, -, hl⟩ | ⟨l, -, hl⟩
  · cases l with
    | nil => exact absurd (List.cons.inj hl).1 hab
    | cons x l =>
      right
      rw [(List.cons.inj hl).2]
      exact List.mem_append_right _ (List.mem_cons_self ..)
  · cases l with
    | nil => exact absurd (List.cons.inj hl).1.symm hab
    | cons x l =>
      left
      rw [(List.cons.inj hl).2]
      exact List.mem_append_right _ (List.mem_cons_self ..)

/-- What becomes of the vibration of a number that holds the motor and has not been told to stop,
from the deeds of an old journal on. -/
inductive Fate (c : Context σ) (leave : Playback → Prop) (id : Nat) (base : List Deed)
    (s : Scheduler σ) : Prop where
  /-- It holds the motor and has not been told to stop. -/
  | playing {p : Playback} (new : List Deed) (hp : s.current = some p) (hid : p.id = id)
      (hs : p.stopping = false) (hj : s.journal = new ++ base) (hn : .issued .stop ∉ new)
  /-- It has been told to stop, and holds the motor or has left it with leave. -/
  | halted (p : Playback) (new : List Deed) (hid : p.id = id) (hs : p.Stops)
      (hd : p.deadline = some (c.now + c.config.cancelGraceMs))
      (h : Held p (.issued .stop :: (new ++ base)) s ∨
        (leave p ∧ Gone p (.issued .stop :: (new ++ base)) s))
  /-- It has left without having been told to stop. -/
  | left {v : Vibration} (later new : List Deed) (hid : v.id = id) (hn : .issued .stop ∉ new)
      (hj : s.journal = later ++ .retired v :: (new ++ base))

section Fate

variable {id : Nat} {base : List Deed}

/-- While it plays, the order to stop is given only to be waited for. -/
theorem Fate.of_playing {m m' : Moment σ} {new : List Deed}
    (hl : ∀ q : Playback, q.stopping = false → ¬ leave q) (hp : m.scheduler.current = some p)
    (hid : p.id = id) (hs : p.stopping = false) (hj : m.scheduler.journal = new ++ base)
    (hn : .issued .stop ∉ new) (hm : Change c leave m m') :
    Fate c leave id base m'.scheduler := by
  cases hm.motion with
  | aside hc hj' => exact .playing new (hc.trans hp) hid hs (hj'.trans hj) hn
  | @deed d hd hc hj' =>
    refine .playing (d :: new) (hc.trans hp) hid hs (by rw [hj', hj]; rfl) fun hm => ?_
    rcases List.mem_cons.1 hm with heq | hm
    · exact hd .stop heq.symm
    · exact hn hm
  | talked orders hpermits hc hj' =>
    refine .playing (orders.map .issued ++ new) (hc.trans hp) hid hs ?_ fun hm => ?_
    · rw [hj', hj, List.append_assoc]
    · rcases List.mem_append.1 hm with hm | hm
      · obtain ⟨o, ho, heq⟩ := List.mem_map.1 hm
        cases heq
        -- the order is permitted only where a vibration that plays may be left, and none may
        exact hl p hs ((hpermits .stop ho).stops rfl p hp hs)
      · exact hn hm
  | taken hf hnew => cases hf.symm.trans hp
  | turned hp' ht hc hj' =>
    cases hp'.symm.trans hp
    exact .playing new hc (ht.id_eq.trans hid) (ht.stopping_eq.trans hs) (hj'.trans hj) hn
  | halted hp' hs' hst hc hj' =>
    cases hp'.symm.trans hp
    refine .halted (p.awaitStop (c.now + c.config.cancelGraceMs)) new hid hst rfl
      (.inl ⟨hc, [], by simp, ?_⟩)
    rw [hj', hj]
    rfl
  | left hp' hl' hc hj' =>
    cases hp'.symm.trans hp
    refine .left [] new ((Playback.id_finish p .finished c.now).trans hid) hn ?_
    rw [hj', hj]
    rfl

/-- **A vibration that is told to stop is waited for**, and keeps the motor unless it may leave. -/
theorem Fate.change {m m' : Moment σ} (h : Fate c leave id base m.scheduler)
    (hl : ∀ q : Playback, q.stopping = false → ¬ leave q) (hc : Change c leave m m') :
    Fate c leave id base m'.scheduler := by
  cases h with
  | playing new hp hid hs hj hn => exact .of_playing hl hp hid hs hj hn hc
  | halted p new hid hs hd h =>
    refine .halted p new hid hs hd ?_
    rcases h with hh | ⟨hleave, hg⟩
    · exact hh.change hs hc
    · exact .inr ⟨hleave, hg.mono hc.journal_suffix⟩
  | left later new hid hn hj =>
    obtain ⟨more, hm⟩ := hc.journal_suffix
    refine .left (more ++ later) new hid hn ?_
    rw [← hm, hj, ← List.append_assoc]

/-- What becomes of it while an input is handled. -/
theorem fate_undergo (hs : s.Settled) {h : Happening}
    (hv : ∀ v ∈ (handled h : Occurrence σ).asks, v.IsNew) (hp : s.current = some p)
    (hp' : p.stopping = false) :
    Fate (c.during h) (h.input.frees h.now) p.id s.journal (s.undergo c (.handled h)) := by
  have hr := (undergo_spec (c := c) (o := .handled h) hs hv).1
  refine holds_of_changes
    (I := fun m => Fate (c.during h) (h.input.frees h.now) p.id s.journal m.scheduler) ?_ hr ?_
  · intro m m' hc hf
    refine hf.change (fun q hq hl => ?_) hc
    rw [hl.1] at hq
    cases hq
  · exact .playing [] hp rfl hp' rfl (by simp)

/-- If an order to stop has been taken before it was gone, it has been told to stop. -/
theorem Fate.halted_of_stop (h : Fate c leave id base s) {later earlier : List Deed}
    (hj : s.journal = later ++ .issued .stop :: (earlier ++ base))
    (hv : ∀ v, .retired v ∈ earlier → v.id ≠ id) :
    ∃ p new, p.id = id ∧ p.Stops ∧ p.deadline = some (c.now + c.config.cancelGraceMs) ∧
      (Held p (.issued .stop :: (new ++ base)) s ∨
        (leave p ∧ Gone p (.issued .stop :: (new ++ base)) s)) := by
  cases h with
  | playing new hp hid hs hj' hn =>
    rw [hj', ← List.cons_append, ← List.append_assoc] at hj
    refine absurd ?_ hn
    rw [List.append_cancel_right hj]
    exact List.mem_append_right _ (List.mem_cons_self ..)
  | left later' new hid hn hj' =>
    rw [hj', ← List.cons_append, ← List.append_assoc, ← List.cons_append,
      ← List.append_assoc] at hj
    rcases mem_or_mem_of_append_eq (List.append_cancel_right hj) (by simp) with hm | hm
    · exact absurd hid (hv _ hm)
    · exact absurd hm hn
  | halted p new hid hs hd hh => exact ⟨p, new, hid, hs, hd, hh⟩

end Fate

/-- Where a vibration that has been told to stop comes from: it was there at the start, or an order
to stop has been taken since. -/
structure Told (c : Context σ) (start : Option Playback) (base : List Deed) (s : Scheduler σ) :
    Prop where
  grows : base <:+ s.journal
  told : ∀ p ∈ s.current, p.stopping = true → p.Stops ∧
    (start = some p ∨ (p.deadline = some (c.now + c.config.cancelGraceMs) ∧
      ∃ new, Held p (.issued .stop :: (new ++ base)) s))

section Told

variable {start : Option Playback} {base : List Deed}

/-- Where the holder of the motor is the same, and the deeds since are quiet if it has been told to
stop. -/
theorem Told.of_append (h : Told c start base s) (deeds : List Deed)
    (hd : ∀ p ∈ s.current, p.Stops → ∀ d ∈ deeds, d.Quiet) (hc : t.current = s.current)
    (hj : t.journal = deeds ++ s.journal) : Told c start base t where
  grows := by rw [hj]; exact h.grows.trans (List.suffix_append ..)
  told p hp hs := by
    rw [hc] at hp
    obtain ⟨hst, hstart | ⟨hdl, new, hh⟩⟩ := h.told p hp hs
    · exact ⟨hst, .inl hstart⟩
    · exact ⟨hst, .inr ⟨hdl, new, hh.of_append deeds (hd p hp hst) hc hj⟩⟩

/-- Where nobody who holds the motor has been told to stop. -/
theorem Told.of_fresh (hg : base <:+ s.journal) (h : ∀ p ∈ s.current, p.stopping = false) :
    Told c start base s where
  grows := hg
  told p hp hs := by
    rw [h p hp] at hs
    cases hs

/-- **Whoever is told to stop is told by an order**, and waits until the grace has passed. -/
theorem Told.change {m m' : Moment σ} (h : Told c start base m.scheduler)
    (hm : Change c leave m m') : Told c start base m'.scheduler := by
  have hgrows := h.grows.trans hm.journal_suffix
  cases hm.motion with
  | aside hc hj => exact h.of_append [] (by simp) hc hj
  | @deed d hd hc hj =>
    exact h.of_append [d] (fun _ _ _ => by simpa using Deed.quiet_of_ne hd) hc hj
  | talked orders hp hc hj =>
    exact h.of_append _ (fun p hcur hst => quiet_of_permits hcur hst hp) hc hj
  | taken hf hnew => exact .of_fresh hgrows hnew
  | @turned p p' hp ht hc hj =>
    cases hs : p.stopping with
    | false =>
      refine .of_fresh hgrows fun p'' hp'' => ?_
      cases hc.symm.trans hp''
      exact ht.stopping_eq.trans hs
    | true =>
      rw [ht.eq_of_stops (h.told p hp hs).1] at hc
      exact h.of_append [] (by simp) (hc.trans hp.symm) hj
  | halted hp hs hst hc hj =>
    obtain ⟨new, hnew⟩ := h.grows
    refine ⟨hgrows, fun p' hp' _ => ?_⟩
    cases hc.symm.trans hp'
    exact ⟨hst, .inr ⟨rfl, new, hc, [], by simp, by rw [hj, hnew]; rfl⟩⟩
  | left hp hl hc hj =>
    refine .of_fresh hgrows fun p' hp' => ?_
    cases hc.symm.trans hp'

/-- An input tells whoever it cancels to stop, or lets it go. -/
theorem told_undergo (hs : s.Settled) {h : Happening}
    (hv : ∀ v ∈ (handled h : Occurrence σ).asks, v.IsNew) :
    Told (c.during h) s.current s.journal (s.undergo c (.handled h)) := by
  have hr := (undergo_spec (c := c) (o := .handled h) hs hv).1
  refine holds_of_changes (I := fun m => Told (c.during h) s.current s.journal m.scheduler)
    (fun hc ht => ht.change hc) hr ⟨List.suffix_refl _, fun p hp hst => ?_⟩
  refine ⟨(hs.holder p hp).resolve_left fun hr => ?_, .inl hp⟩
  rw [hr.stopping] at hst
  cases hst

end Told

/-! ## The safe boundary -/

/-- How a vibration waits for the end of its stream once it has been told to stop while an input was
handled. -/
structure Waits (c : Context σ) (s : Scheduler σ) (h : Happening) (p : Playback) : Prop where
  /-- It has been cancelled. -/
  cancelled : p.vibration.status.isCancelled = true
  /-- Its stream is in flight and has been told to stop. -/
  inFlight : p.hasStreamInFlight = true
  stopping : p.stopping = true
  /-- It is given up when the grace after the time of the input has passed. -/
  deadline : p.deadline = some (h.now + c.config.cancelGraceMs)
  /-- From the order to stop on it keeps the motor until it is freed, whatever occurs. -/
  keeps : ∃ new, ∀ os, (∀ v ∈ asked os, v.IsNew) →
    HeldOrFreed c p (.issued .stop :: (new ++ s.journal)) s (.handled h :: os)

/-- Whoever holds the motor or has left it with leave when the input has been handled waits. -/
theorem waits_of_stops {h : Happening} (hst : p.Stops)
    (hd : p.deadline = some (h.now + c.config.cancelGraceMs))
    (hs : (s.undergo c (.handled h)).Settled) {new : List Deed}
    (hh : Held p (.issued .stop :: (new ++ s.journal)) (s.undergo c (.handled h)) ∨
      (h.input.frees h.now p ∧
        Gone p (.issued .stop :: (new ++ s.journal)) (s.undergo c (.handled h)))) :
    Waits c s h p where
  cancelled := hst.cancelled
  inFlight := hst.inFlight
  stopping := hst.stopping
  deadline := hd
  keeps := by
    refine ⟨new, fun os hos => ?_⟩
    rcases hh with hh | ⟨hf, hg⟩
    · rcases hh.undergoAll hst hs hos with hh' | ⟨held, o, rest, rfl, hf, hheld, hg⟩
      · exact .inl hh'
      · refine .inr ⟨.handled h :: held, o, rest, rfl, hf, fun _ => ?_, hg⟩
        cases held with
        | nil => exact hh
        | cons o' held => exact hheld (by simp)
    · exact .inr ⟨[], .handled h, os, rfl, hf, fun hne => absurd rfl hne, hg⟩

/-- **A stream leaves the motor at a safe boundary only**, when an input `h` is handled in any state
`s` of any course, and whatever occurs from then on.

* Let a vibration hold the motor that has not been told to stop, and let the actuator take the order
  to stop before that vibration is gone. Then it has been cancelled and waits: it holds the motor,
  with the deadline that the time of `h` and the grace give, and there is no start order, and the
  motor is not handed over, until something frees it. That is the report of the end of its own
  stream, the loss of the connection, a deadline not before its own, or the end of everything.
* Every vibration that is found to have been told to stop waits like this, from that order on. -/
theorem safe_boundary (c : Context σ) (actuator : σ) (before : List (Occurrence σ))
    (h : Happening) (hnew : ∀ v ∈ asked (before ++ [.handled h]), v.IsNew) :
    let s := after c actuator before
    let t := s.undergo c (.handled h)
    (∀ p₀ ∈ s.current, p₀.stopping = false → ∀ later earlier,
      t.journal = later ++ .issued .stop :: (earlier ++ s.journal) →
      (∀ v, .retired v ∈ earlier → v.id ≠ p₀.id) → ∃ p, p.id = p₀.id ∧ Waits c s h p) ∧
    ∀ p ∈ t.current, p.stopping = true → s.current ≠ some p → Waits c s h p := by
  obtain ⟨hbefore, hv⟩ := isNew_of_concat hnew
  have hs := settled_after c actuator hbefore
  have ht := (undergo_spec (c := c) (o := .handled h) hs hv).2
  constructor
  · intro p₀ hp hp₀ later earlier hj hgone
    obtain ⟨p, new, hid, hst, hd, hh⟩ :=
      (fate_undergo (c := c) hs hv hp hp₀).halted_of_stop hj hgone
    exact ⟨p, hid, waits_of_stops hst hd ht hh⟩
  · intro p hp hst hne
    obtain ⟨hstops, hstart | ⟨hd, new, hh⟩⟩ := (told_undergo (c := c) hs hv).told p hp hst
    · exact absurd hstart hne
    · exact waits_of_stops hstops hd ht (.inl hh)

/-- The stream is told to stop for the push, and has a second and five milliseconds to come to its
end. -/
theorem safe_boundary_preemption :
    (∀ v ∈ asked ([.handled humAsked] ++ [.handled pushAsked] : List (Occurrence Bench)), v.IsNew) ∧
    let s := after onBench bench [.handled humAsked]
    let t := s.undergo onBench (.handled pushAsked)
    (s.current.map (·.stopping) = some false ∧ t.journal = .issued .stop :: s.journal ∧
      t.current.map (·.deadline) = some (some 1005)) ∧
    (∀ p₀ ∈ s.current, p₀.stopping = false → ∀ later earlier,
      t.journal = later ++ .issued .stop :: (earlier ++ s.journal) →
      (∀ v, .retired v ∈ earlier → v.id ≠ p₀.id) →
      ∃ p, p.id = p₀.id ∧ Waits onBench s pushAsked p) ∧
    ∀ p ∈ t.current, p.stopping = true → s.current ≠ some p → Waits onBench s pushAsked p :=
  ⟨proper_completion.of_append.new, by decide,
    safe_boundary onBench bench [.handled humAsked] pushAsked proper_completion.of_append.new⟩

end Scheduler

end Haptics
