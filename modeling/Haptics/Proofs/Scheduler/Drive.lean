import Haptics.Proofs.Actuator.Log
import Haptics.Proofs.Scheduler.Conservation

/-!
# One at a time

The start orders that an actuator has taken fall into blocks, one for each vibration: once another
vibration has been started, none of the earlier one follows (`InBlocks`). While a session has the
motor there is no start order at all.

What carries the first is `Driven`: only the vibration that holds the motor can have the latest
block, and a vibration that waits or asks has none yet. The second is read off the journal, which
tells who had the motor when an order was taken (`claimed`, `Unclaimed`).

* `exclusive_drive`: both, in every state of every course, and for the log that an actuator keeps of
  the orders it has taken (`Logs`).
-/

namespace Haptics

/-! ## Blocks -/

/-- Equal entries stand together: where another one follows an entry, it does not come again. -/
def InBlocks {α : Type} (l : List α) : Prop :=
  ∀ before a between b rest, l = before ++ a :: between ++ b :: rest → b ≠ a → a ∉ rest

section InBlocks

variable {α : Type} {l : List α} {x : α}

/-- No entries are in blocks. -/
theorem inBlocks_nil : InBlocks ([] : List α) := by
  intro before a between b rest h
  simp at h

/-- An entry can come first if it is new, or if it was first before. -/
theorem InBlocks.cons (h : InBlocks l) (hx : x ∈ l → l.head? = some x) : InBlocks (x :: l) := by
  intro before a between b rest hl hb
  cases before with
  | cons y before =>
    rw [List.cons_append, List.cons_append] at hl
    exact h before a between b rest (List.cons.inj hl).2 hb
  | nil =>
    rw [List.nil_append, List.cons_append] at hl
    obtain ⟨rfl, htail⟩ := List.cons.inj hl
    intro hm
    have hmem : x ∈ l := by
      rw [htail]
      exact List.mem_append_right _ (List.mem_cons_of_mem _ hm)
    have hh := hx hmem
    cases between with
    | nil =>
      rw [htail] at hh
      exact hb (Option.some.inj hh)
    | cons y between =>
      rw [htail] at hh
      obtain rfl : y = x := Option.some.inj hh
      exact h [] y between b rest htail hb hm

/-- Blocks stay blocks when they are read backwards. -/
theorem InBlocks.reverse (h : InBlocks l) : InBlocks l.reverse := by
  intro before a between b rest hl hb hm
  obtain ⟨u, w, rfl⟩ := List.append_of_mem hm
  have hl' : l = w.reverse ++ a :: u.reverse ++ b :: (between.reverse ++ a :: before.reverse) := by
    have := congrArg List.reverse hl
    simpa using this
  exact h _ _ _ _ _ hl' hb (List.mem_append_right _ (List.mem_cons_self ..))

end InBlocks

/-! ## What the journal tells -/

/-- The order that a deed has given. -/
def Deed.issued? : Deed → Option Order
  | .issued o => some o
  | _ => none

/-- Whether a session had the motor after the deeds of a journal. -/
def claimed : List Deed → Bool
  | [] => false
  | .seized _ :: _ => true
  | .dismissed _ :: _ => false
  | _ :: earlier => claimed earlier

namespace Scheduler

open Occurrence

variable {σ : Type} {c : Context σ} {leave : Playback → Prop} {s : Scheduler σ}

/-- The orders that the actuator has taken, the latest first. -/
def issued (s : Scheduler σ) : List Order := s.journal.filterMap Deed.issued?

/-- The vibrations that start orders were for, order by order, the latest first. -/
def starts (s : Scheduler σ) : List Nat := s.issued.filterMap Order.owner?

/-- The vibrations that start orders were for, order by order. -/
def drives (s : Scheduler σ) : List Nat := s.starts.reverse

/-! ## Blocks of start orders -/

/-- How start orders and vibrations belong together. -/
structure Driven (m : Moment σ) : Prop where
  /-- Vibrations are under different numbers. -/
  nodup : (m.vibrations.map (·.id)).Nodup
  /-- Start orders are for vibrations that are there. -/
  known : ∀ id ∈ m.scheduler.starts, id ∈ m.vibrations.map (·.id)
  /-- The request that has not found its place has not been started. -/
  asking : ∀ v ∈ m.asking, v.id ∉ m.scheduler.starts
  /-- Nor has the vibration that waits. -/
  waiting : ∀ q ∈ m.scheduler.next, q.id ∉ m.scheduler.starts
  /-- Only the vibration that holds the motor can go on with the latest block. -/
  latest : ∀ p ∈ m.scheduler.current, p.id ∈ m.scheduler.starts →
    m.scheduler.starts.head? = some p.id
  /-- There is one block for each vibration. -/
  blocks : InBlocks m.scheduler.starts

/-- A start order is one more. -/
theorem starts_issued_of_some {o : Order} {id : Nat} (ho : o.owner? = some id)
    (s : Scheduler σ) :
    { s with journal := .issued o :: s.journal }.starts = id :: s.starts := by
  simp [starts, issued, Deed.issued?, ho]

/-- An order that starts nothing is none. -/
theorem starts_issued_of_none {o : Order} (ho : o.owner? = none) (s : Scheduler σ) :
    { s with journal := .issued o :: s.journal }.starts = s.starts := by
  simp [starts, issued, Deed.issued?, ho]

/-- Nobody else is under the number of the vibration that holds the motor. -/
theorem Driven.ne_of_current {x : Option Vibration} {p : Playback} (h : Driven ⟨x, s⟩)
    (hp : s.current = some p) :
    (∀ v ∈ x, v.id ≠ p.id) ∧ ∀ q ∈ s.next, q.id ≠ p.id := by
  have hn := h.nodup
  rw [Moment.vibrations, vibrations_of_current hp, List.map_append, List.map_cons,
    List.nodup_middle] at hn
  have hnot := (List.nodup_cons.1 hn).1
  rw [← List.map_append] at hnot
  constructor
  · intro v hv hid
    refine hnot (List.mem_map.2 ⟨v, List.mem_append_left _ (Option.mem_toList.2 hv), hid⟩)
  · intro q hq hid
    have hq' : q.vibration ∈ { s with current := none }.vibrations := by
      rw [vibrations, show s.next = some q from hq]
      simp
    exact hnot (List.mem_map.2 ⟨q.vibration, List.mem_append_right _ hq', hid⟩)

/-- An order that is permitted extends the block of the vibration that holds the motor. -/
theorem Driven.issue {x : Option Vibration} {o : Order} (h : Driven ⟨x, s⟩)
    (hp : s.Permits leave o) : Driven ⟨x, { s with journal := .issued o :: s.journal }⟩ := by
  cases ho : o.owner? with
  | none =>
    have hs := starts_issued_of_none ho s
    constructor
    · exact h.nodup
    · rw [hs]; exact h.known
    · rw [hs]; exact h.asking
    · rw [hs]; exact h.waiting
    · rw [hs]; exact h.latest
    · rw [hs]; exact h.blocks
  | some id =>
    -- only the holder of the motor is started, and the latest block is his or there is none of his
    obtain ⟨-, p, hc, -, rfl⟩ := hp.starts id ho
    obtain ⟨hx, hq⟩ := h.ne_of_current hc
    have hs := starts_issued_of_some ho s
    constructor
    · exact h.nodup
    · rw [hs]
      intro id hid
      rcases List.mem_cons.1 hid with rfl | hid
      · refine List.mem_map.2 ⟨p.vibration, List.mem_append_right _ ?_, rfl⟩
        rw [vibrations, show s.current = some p from hc]
        simp
      · exact h.known id hid
    · rw [hs]
      intro v hv hid
      rcases List.mem_cons.1 hid with hid | hid
      · exact hx v hv hid
      · exact h.asking v hv hid
    · rw [hs]
      intro q hq' hid
      rcases List.mem_cons.1 hid with hid | hid
      · exact hq q hq' hid
      · exact h.waiting q hq' hid
    · rw [hs]
      intro p' hp' _
      cases (show s.current = some p from hc).symm.trans hp'
      rfl
    · rw [hs]
      exact h.blocks.cons (h.latest p hc)

/-- A talk does not change what is permitted. -/
theorem Permits.told {o : Order} (h : s.Permits leave o) (line : Line σ) (orders : List Order) :
    (s.told line orders).Permits leave o := ⟨h.starts, h.hands, h.stops⟩

/-- So do orders in turn. -/
theorem Driven.told {x : Option Vibration} (h : Driven ⟨x, s⟩) (line : Line σ)
    {orders : List Order} (hp : ∀ o ∈ orders, s.Permits leave o) :
    Driven ⟨x, s.told line orders⟩ := by
  induction orders with
  | nil => exact ⟨h.nodup, h.known, h.asking, h.waiting, h.latest, h.blocks⟩
  | cons o orders ih =>
    have ht := ih fun o' ho' => hp o' (List.mem_cons_of_mem _ ho')
    exact ht.issue ((hp o (List.mem_cons_self ..)).told line orders)

/-- Where no start order is given and nobody who has been started comes back. -/
theorem Driven.of_perm {m m' : Moment σ} (h : Driven m)
    (hv : (m.vibrations.map (·.id)).Perm (m'.vibrations.map (·.id)))
    (hs : m'.scheduler.starts = m.scheduler.starts)
    (hx : ∀ v ∈ m'.asking, v.id ∉ m.scheduler.starts)
    (hn : ∀ q ∈ m'.scheduler.next, q.id ∉ m.scheduler.starts)
    (hl : ∀ p ∈ m'.scheduler.current, p.id ∈ m.scheduler.starts →
      m.scheduler.starts.head? = some p.id) : Driven m' where
  nodup := hv.nodup_iff.1 h.nodup
  known := by
    rw [hs]
    intro id hid
    exact hv.mem_iff.1 (h.known id hid)
  asking := by rwa [hs]
  waiting := by rwa [hs]
  latest := by rwa [hs]
  blocks := by rw [hs]; exact h.blocks

/-- **A change leaves one block for each vibration.** -/
theorem Driven.change {m m' : Moment σ} (h : Driven m) (hc : Change c leave m m') :
    Driven m' := by
  have hv := hc.renews.perm_ids
  -- only an order starts anybody; else it is enough to know who has not been started yet
  cases hc with
  | talked ht hp => exact h.told _ hp
  | noted admitted callState alwaysOn =>
    exact h.of_perm hv rfl h.asking h.waiting h.latest
  | refused hs => exact h.of_perm hv rfl (by simp) h.waiting h.latest
  | queued hn =>
    refine h.of_perm hv rfl (by simp) ?_ h.latest
    rintro _ ⟨⟩
    exact h.asking _ rfl
  | entered hc he hp =>
    refine h.of_perm hv rfl (by simp) h.waiting ?_
    rintro _ ⟨⟩ hid
    -- whoever takes the motor has not been started, so the latest block is not his
    rw [Playback.id_begin] at hid
    exact absurd hid (h.asking _ rfl)
  | promoted hq hc he hu =>
    refine h.of_perm hv rfl h.asking (by simp [takenBy]) ?_
    rintro _ ⟨⟩ hid
    rw [Playback.id_begin] at hid
    exact absurd hid (h.waiting _ hq)
  | @stacked x s q hq packet =>
    refine h.of_perm hv rfl h.asking ?_ h.latest
    rintro _ ⟨⟩
    exact h.waiting q hq
  | dropped hq hs =>
    exact h.of_perm hv rfl h.asking (by simp [retire]) h.latest
  | turned hp ht =>
    refine h.of_perm hv rfl h.asking h.waiting ?_
    rintro _ ⟨⟩
    rw [ht.id_eq]
    exact h.latest _ hp
  | @halted x s p line hp hs hf hc ht =>
    refine h.of_perm hv rfl h.asking h.waiting ?_
    rw [current_halted hp c line]
    rintro _ ⟨⟩
    exact h.latest p hp
  | left hp hl =>
    exact h.of_perm hv rfl h.asking h.waiting (by simp [retire])
  | installed he request scale =>
    exact h.of_perm hv rfl h.asking h.waiting h.latest
  | seized he ha hc =>
    exact h.of_perm hv rfl h.asking h.waiting h.latest
  | dismissed he hs =>
    exact h.of_perm hv rfl h.asking h.waiting h.latest

/-- A new request has not been started. -/
theorem Driven.asked (h : Driven ⟨none, s⟩) {o : Occurrence σ}
    (ho : ∀ v ∈ o.asks, v.id ∉ s.vibrations.map (·.id)) : Driven ⟨o.asks, s.shifted o⟩ := by
  have hv : (s.shifted o).vibrations = s.vibrations := vibrations_shifted o s
  have hs : (s.shifted o).starts = s.starts := by
    rw [starts, issued, journal_shifted, starts, issued]
  constructor
  · rw [Moment.vibrations, hv]
    cases ha : o.asks with
    | none => exact h.nodup
    | some v => exact List.nodup_cons.2 ⟨ho v ha, h.nodup⟩
  · rw [Moment.vibrations, hv, hs, List.map_append]
    intro id hid
    exact List.mem_append_right _ (h.known id hid)
  · rw [hs]
    intro v hv hid
    exact ho v hv (h.known v.id hid)
  · rw [hs, next_shifted]; exact h.waiting
  · rw [hs, current_shifted]; exact h.latest
  · rw [hs]; exact h.blocks

/-- **There is one block for each vibration**, in every state of every course. -/
theorem driven_after (c : Context σ) (actuator : σ) {os : List (Occurrence σ)} (h : Proper os) :
    Driven ⟨none, after c actuator os⟩ := by
  induction os using List.reverseRecOn with
  | nil =>
    refine ⟨by simp [Moment.vibrations, vibrations, retired, create], ?_, ?_, ?_, ?_, inBlocks_nil⟩
    all_goals simp [starts, issued, create]
  | append_singleton os o ih =>
    have hos : Proper os := h.of_append
    have hv := (isNew_of_concat h.new).2
    have hf := h.fresh
    rw [asked_concat, List.map_append, List.nodup_append] at hf
    have hnew : ∀ v ∈ o.asks, v.id ∉ (after c actuator os).vibrations.map (·.id) := by
      intro v hv hid
      rw [← (renews_after c actuator hos.new).perm_ids.mem_iff] at hid
      exact hf.2.2 v.id hid v.id (List.mem_map.2 ⟨v, Option.mem_toList.2 hv, rfl⟩) rfl
    have hr := (undergo_spec (c := c) (settled_after c actuator hos.new) hv).1
    rw [after_concat]
    exact holds_of_changes (fun hc h => h.change hc) hr ((ih hos).asked hnew)

/-! ## Sessions -/

/-- No start order was given while a session had the motor. -/
structure Unclaimed (s : Scheduler σ) : Prop where
  /-- The journal tells whether a session has the motor. -/
  session : s.external.any (·.active) = claimed s.journal
  /-- None had it when a start order was taken. -/
  starts : ∀ o before, .issued o :: before <:+ s.journal → o.owner?.isSome = true →
    claimed before = false

/-- It depends on the journal and on who has the motor. -/
theorem Unclaimed.of_eq {t : Scheduler σ} (h : s.Unclaimed) (hj : t.journal = s.journal)
    (he : t.external.any (·.active) = s.external.any (·.active)) : t.Unclaimed where
  session := by rw [he, hj]; exact h.session
  starts := by rw [hj]; exact h.starts

/-- A deed other than an order. -/
theorem Unclaimed.of_deed {t : Scheduler σ} (h : s.Unclaimed) {d : Deed}
    (hd : ∀ o, d ≠ .issued o) (hj : t.journal = d :: s.journal)
    (he : t.external.any (·.active) = claimed (d :: s.journal)) : t.Unclaimed where
  session := by rw [he, hj]
  starts o before hs ho := by
    rw [hj] at hs
    rcases List.suffix_cons_iff.1 hs with heq | hs
    · exact absurd (List.cons.inj heq).1.symm (hd o)
    · exact h.starts o before hs ho

/-- An order that is permitted starts nothing while a session has the motor. -/
theorem Unclaimed.issue {o : Order} (h : s.Unclaimed) (hp : s.Permits leave o) :
    { s with journal := .issued o :: s.journal }.Unclaimed where
  session := h.session
  starts o' before hs ho := by
    rcases List.suffix_cons_iff.1 hs with heq | hs
    · obtain ⟨hoo, rfl⟩ := List.cons.inj heq
      cases hoo
      obtain ⟨id, hid⟩ := Option.isSome_iff_exists.1 ho
      rw [← h.session, (hp.starts id hid).1]
      rfl
    · exact h.starts o' before hs ho

/-- Nor do orders in turn. -/
theorem Unclaimed.told (h : s.Unclaimed) (line : Line σ) {orders : List Order}
    (hp : ∀ o ∈ orders, s.Permits leave o) : (s.told line orders).Unclaimed := by
  induction orders with
  | nil => exact h.of_eq rfl rfl
  | cons o orders ih =>
    have ht := ih fun o' ho' => hp o' (List.mem_cons_of_mem _ ho')
    exact ht.issue ((hp o (List.mem_cons_self ..)).told line orders)

/-- **A change gives no start order while a session has the motor.** -/
theorem Unclaimed.change {m m' : Moment σ} (h : m.scheduler.Unclaimed)
    (hc : Change c leave m m') : m'.scheduler.Unclaimed := by
  cases hc with
  | talked ht hp => exact h.told _ hp
  | noted admitted callState alwaysOn => exact h.of_eq rfl rfl
  | refused hs => exact h.of_deed (by simp) rfl h.session
  | queued hn => exact h.of_eq rfl rfl
  | entered hc he hv => exact h.of_deed (by simp) rfl h.session
  | promoted hq hc he hu => exact h.of_deed (by simp) rfl h.session
  | stacked hq packet => exact h.of_eq rfl rfl
  | dropped hq hs => exact h.of_deed (by simp) rfl h.session
  | turned hp ht => exact h.of_eq rfl rfl
  | @halted x s p line hp hs hf hc ht =>
    have hd : (s.told line [.stop]).Unclaimed := by
      refine ⟨h.session, fun o before hs ho => ?_⟩
      rcases List.suffix_cons_iff.1 hs with heq | hs
      · cases (List.cons.inj heq).1
        cases ho
      · exact h.starts o before hs ho
    exact hd.of_eq rfl rfl
  | left hp hl => exact h.of_deed (by simp) rfl h.session
  | installed he request scale => exact h.of_eq rfl (by rw [he]; rfl)
  | seized he ha hc => exact h.of_deed (by simp) rfl rfl
  | dismissed he hs => exact h.of_deed (by simp) rfl rfl

/-- **No start order is given while a session has the motor**, in every state of every course. -/
theorem unclaimed_after (c : Context σ) (actuator : σ) {os : List (Occurrence σ)}
    (ho : ∀ v ∈ asked os, v.IsNew) : (after c actuator os).Unclaimed := by
  refine undergoAll_preserves (I := Unclaimed) (fun o hs => ?_) (fun hc hs => hs.change hc)
    (settled_create c.config actuator) ho ?_
  · exact hs.of_eq (journal_shifted ..) (by rw [external_shifted])
  · refine ⟨rfl, fun o before hs => ?_⟩
    cases List.suffix_nil.1 hs

/-! ## The log of the actuator -/

/-- The orders of a talk are what it adds to the log. -/
theorem Talk.log {log : σ → List Command} (hl : Logs c.device log) {l m : Line σ}
    {orders : List Order} (h : Talk c l orders m) :
    log m.actuator = log l.actuator ++ orders.reverse.map Order.command := by
  induction h with
  | silence => simp
  | reach _ ih => rw [hl.reach, ih]
  | reset _ ih => exact ih
  | taken _ hp ih => rw [hl.taken hp, ih]; simp
  | refused _ hp ih => rw [hl.refused hp, ih]

/-- The orders of a talk are behind the earlier ones. -/
theorem issued_told (line : Line σ) (orders : List Order) (s : Scheduler σ) :
    (s.told line orders).issued = orders ++ s.issued := by
  have ho : (orders.map Deed.issued).filterMap Deed.issued? = orders := by
    rw [List.filterMap_map]
    exact List.filterMap_some
  rw [issued, journal_told, List.filterMap_append, ho, issued]

/-- Whether a log tells the orders of the journal. -/
def Tells (log : σ → List Command) (s : Scheduler σ) : Prop :=
  log s.line.actuator = s.issued.reverse.map Order.command

/-- A talk is told by the log. -/
theorem Tells.told {log : σ → List Command} (hl : Logs c.device log) (h : s.Tells log)
    {line : Line σ} {orders : List Order} (ht : Talk c s.line orders line) :
    (s.told line orders).Tells log := by
  rw [Tells, line_told, ht.log hl, issued_told, h, List.reverse_append, List.map_append]

/-- So is every change. -/
theorem Tells.change {log : σ → List Command} (hl : Logs c.device log) {m m' : Moment σ}
    (h : m.scheduler.Tells log) (hc : Change c leave m m') : m'.scheduler.Tells log := by
  cases hc with
  | talked ht hp => exact h.told hl ht
  | halted hp hs hf hc ht => exact h.told hl ht
  | _ => exact h

/-- Whether an actuator that moves by itself leaves its log alone. -/
def Undisturbed (c : Context σ) (actuator : σ) (log : σ → List Command)
    (os : List (Occurrence σ)) : Prop :=
  ∀ before moved rest, os = before ++ .moved moved :: rest →
    log moved = log (after c actuator before).line.actuator

/-- So is every course in which nobody else writes to the log. -/
theorem tells_after {log : σ → List Command} (hl : Logs c.device log) {actuator : σ}
    (ha : log actuator = []) {os : List (Occurrence σ)} (ho : ∀ v ∈ asked os, v.IsNew)
    (hu : Undisturbed c actuator log os) : (after c actuator os).Tells log := by
  induction os using List.reverseRecOn with
  | nil => exact ha
  | append_singleton os o ih =>
    obtain ⟨hos, hv⟩ := isNew_of_concat ho
    have ht := ih hos fun before moved rest he =>
      hu before moved (rest ++ [o]) (by rw [he, List.append_assoc]; rfl)
    have hs : ((after c actuator os).shifted o).Tells log := by
      cases o with
      | moved moved =>
        have hlog := hu os moved [] rfl
        rw [Tells, shifted, hlog]
        exact ht
      | _ => exact ht
    have hd : Logs (o.during c).device log := by
      cases o <;> exact hl
    have hr := (undergo_spec (c := c) (settled_after c actuator hos) hv).1
    rw [after_concat]
    exact holds_of_changes (I := fun m => m.scheduler.Tells log) (fun hc h => h.change hd hc) hr hs

/-- The start commands of such a log are the start orders of the journal. -/
theorem Tells.starts {log : σ → List Command} (h : s.Tells log) :
    (log s.line.actuator).filterMap Command.owner? = s.drives := by
  have ho : Command.owner? ∘ Order.command = Order.owner? := funext Order.owner?_command
  rw [h, List.filterMap_map, ho, List.filterMap_reverse]
  rfl

/-! ## Exclusive drive -/

/-- **One vibration drives the motor at a time**, in every state of every course.

* The start orders fall into blocks, one for each vibration.
* So do the start commands in any log that the actuator keeps of the orders it has taken.
* The journal tells whether a session has the motor.
* No session had it when a start order was taken. -/
theorem exclusive_drive (c : Context σ) (actuator : σ) (os : List (Occurrence σ))
    (h : Proper os) :
    let s := after c actuator os
    InBlocks s.drives ∧
    (∀ log : σ → List Command, Logs c.device log → log actuator = [] →
      Undisturbed c actuator log os →
      InBlocks ((log s.line.actuator).filterMap Command.owner?)) ∧
    s.external.any (·.active) = claimed s.journal ∧
    ∀ o before, .issued o :: before <:+ s.journal → o.owner?.isSome = true →
      claimed before = false := by
  have hb := (driven_after c actuator h).blocks.reverse
  have hu := unclaimed_after c actuator h.new
  refine ⟨hb, fun log hl ha hd => ?_, hu.session, hu.starts⟩
  rw [(tells_after hl ha h.new hd).starts]
  exact hb

/-- The stream is driven first, then the push, and the motor has it in its log. -/
theorem exclusive_drive_completion :
    Proper (preemption ++ completion) ∧ Logs onBench.device (·.motor.commands) ∧
    bench.motor.commands = [] ∧
    Undisturbed onBench bench (·.motor.commands) (preemption ++ completion) ∧
    let s := after onBench bench (preemption ++ completion)
    (s.drives = [1, 2] ∧
      s.line.actuator.motor.commands.filterMap Command.owner? = [1, 2]) ∧
    InBlocks s.drives ∧
    InBlocks (s.line.actuator.motor.commands.filterMap Command.owner?) ∧
    s.external.any (·.active) = claimed s.journal ∧
    ∀ o before, .issued o :: before <:+ s.journal → o.owner?.isSome = true →
      claimed before = false := by
  have hu : Undisturbed onBench bench (·.motor.commands) (preemption ++ completion) := by
    intro before moved rest he
    have hm : Occurrence.moved moved ∈ preemption ++ completion := by
      rw [he]
      exact List.mem_append_right _ (List.mem_cons_self ..)
    simp [preemption, completion] at hm
  obtain ⟨hb, hlog, hrest⟩ :=
    exclusive_drive onBench bench (preemption ++ completion) proper_completion
  exact ⟨proper_completion, logs_bench, rfl, hu, by decide, hb, hlog _ logs_bench rfl hu, hrest⟩

end Scheduler

end Haptics
