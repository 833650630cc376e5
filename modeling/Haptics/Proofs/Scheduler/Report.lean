import Haptics.Proofs.Scheduler.Entry
import Haptics.Proofs.Table

/-!
# The report tells the truth

Whoever asks for a vibration is told where it stands. The scheduler looks for it by its number, in
its slots and then in the history; but the history keeps only so many vibrations of each usage, and
by then the request itself may have ended others. That it is found nevertheless is because nobody
goes behind it: a request that has gone at once is the latest that is gone, and the latest is kept
if any is.

* `Remembers`: what the history has to do with those that are gone, in every state of every course
  (`remembers_after`).
* `waits_or_occupies`: a request that is let in waits, or takes the motor with nobody behind it.
* `report_is_true`: what is reported is where the vibration stands.
-/

namespace Haptics

/-! ## What the history keeps -/

namespace History

variable {h : History} {info item : VibrationInfo}

/-- Nothing is kept but what was kept before and what is recorded. -/
theorem mem_kept_record (hi : item ∈ (h.record info).kept) : item = info ∨ item ∈ h.kept := by
  obtain ⟨items, hitems, hi⟩ := List.mem_flatten.1 hi
  obtain ⟨entry, hentry, rfl⟩ := List.mem_map.1 hitems
  rcases Table.mem_insert hentry with rfl | hentry
  · rcases List.mem_append.1 (List.mem_of_mem_drop hi) with hi | hi
    · unfold recent at hi
      cases hr : h.byUsage.get? info.usage with
      | none =>
        rw [hr] at hi
        cases hi
      | some items =>
        rw [hr] at hi
        have hmem := List.mem_map_of_mem (f := (·.2)) (Table.mem_of_get?_eq_some hr)
        exact .inr (List.mem_flatten.2 ⟨items, hmem, hi⟩)
    · exact .inl (List.mem_singleton.1 hi)
  · exact .inr (List.mem_flatten.2 ⟨entry.2, List.mem_map_of_mem hentry, hi⟩)

/-- **The latest is kept**, if any is. -/
theorem mem_kept_of_record (hl : 0 < h.limit) (info : VibrationInfo) :
    info ∈ (h.record info).kept := by
  have hfound : (h.record info).byUsage.get? info.usage =
      some (push h.limit (h.recent info.usage) info) :=
    (Table.get?_insert ..).trans (if_pos rfl)
  have hmem := List.mem_map_of_mem (f := (·.2)) (Table.mem_of_get?_eq_some hfound)
  exact List.mem_flatten.2 ⟨_, hmem, mem_push hl _ info⟩

end History

namespace Scheduler

open Occurrence

variable {σ : Type} {c : Context σ} {leave : Playback → Prop} {s t u : Scheduler σ} {p q : Playback}
  {v : Vibration} {limit : Nat}

/-- What the history has to do with those that are gone: it keeps only such, and the latest. -/
structure Remembers (limit : Nat) (s : Scheduler σ) : Prop where
  limit : s.history.limit = limit
  gone : ∀ info ∈ s.history.kept, ∃ w ∈ s.retired, w.info = info
  latest : ∀ w ∈ s.retired.head?, w.info ∈ s.history.kept

/-- It depends on the history and on who has been retired. -/
theorem Remembers.of_eq (h : s.Remembers limit) (hl : t.history.limit = s.history.limit)
    (hk : t.history.byUsage = s.history.byUsage) (hr : t.retired = s.retired) :
    t.Remembers limit := by
  have hkept : t.history.kept = s.history.kept := congrArg (fun table => table.values.flatten) hk
  refine ⟨hl.trans h.limit, ?_, ?_⟩
  · rw [hkept, hr]
    exact h.gone
  · rw [hkept, hr]
    exact h.latest

/-- Who goes is the latest. -/
theorem Remembers.retire (h : s.Remembers limit) (hpos : 0 < limit) (v : Vibration) :
    (s.retire v).Remembers limit := by
  refine ⟨h.limit, fun info hi => ?_, ?_⟩
  · rcases History.mem_kept_record hi with rfl | hi
    · exact ⟨v, List.mem_cons_self, rfl⟩
    · obtain ⟨w, hw, hinfo⟩ := h.gone info hi
      exact ⟨w, List.mem_cons_of_mem _ hw, hinfo⟩
  · rintro _ ⟨⟩
    exact History.mem_kept_of_record (h.limit.symm ▸ hpos) v.info

/-- **Every change is remembered.** -/
theorem Change.remembers {m m' : Moment σ} (hc : Change c leave m m') (hpos : 0 < limit)
    (h : m.scheduler.Remembers limit) : m'.scheduler.Remembers limit := by
  cases hc with
  | @talked x s line orders ht hp => exact h.of_eq rfl rfl (retired_told line orders s)
  | @halted x s p line hp hs hf hc ht => exact h.of_eq rfl rfl (retired_told line [.stop] s)
  | refused hs => exact h.retire hpos _
  | @dropped x s q status hq hs =>
    have hn : ({ s with next := none } : Scheduler σ).Remembers limit := h.of_eq rfl rfl rfl
    exact hn.retire hpos _
  | @left x s p hp hl =>
    have hc : ({ s with current := none } : Scheduler σ).Remembers limit := h.of_eq rfl rfl rfl
    exact hc.retire hpos _
  | _ => exact h.of_eq rfl rfl rfl

/-- **The history keeps those that are gone, and the latest of them**, in every state of every
course. -/
theorem remembers_after (c : Context σ) (hpos : 0 < c.config.historyLimit) (actuator : σ)
    {os : List (Occurrence σ)} (ho : ∀ v ∈ asked os, v.IsNew) :
    (after c actuator os).Remembers c.config.historyLimit :=
  undergoAll_preserves (I := Remembers c.config.historyLimit)
    (fun o h => h.of_eq (by cases o <;> rfl) (by cases o <;> rfl) (retired_shifted o _))
    (fun hc h => hc.remembers hpos h) (settled_create c.config actuator) ho
    ⟨rfl, fun info hi => (by cases hi), fun w hw => (by cases hw)⟩

/-! ## Where a vibration is found -/

/-- Where the vibration of a number stands, if it is found: in its place, or in the history. -/
def status? (id : Nat) (s : Scheduler σ) : Option Status :=
  (((s.current.toList ++ s.next.toList).find? fun p => p.id = id).map (·.vibration.status)).or
    ((s.history.find? id).map (·.status))

/-- Only a vibration that is not found is taken to have finished. -/
theorem statusOf_eq (id : Nat) (s : Scheduler σ) :
    s.statusOf id = (s.status? id).getD .finished := by
  unfold statusOf status?
  cases (s.current.toList ++ s.next.toList).find? fun p => p.id = id <;> rfl

/-- A vibration holds the motor, waits for it, or is the latest that is gone. -/
inductive Located (s : Scheduler σ) (id : Nat) : Prop where
  | holds {p : Playback} (hp : s.current = some p) (hi : p.id = id)
  | waits {q : Playback} (hq : s.next = some q) (hi : q.id = id)
  | gone {w : Vibration} (hw : s.retired.head? = some w) (hi : w.id = id)

/-- A vibration that gets the motor, with nobody behind it, holds it or is the latest that is
gone. -/
theorem Begun.located (h : Begun c q s t) : t.Located q.id := by
  cases h with
  | runs hn hl => exact .holds rfl q.id_begin
  | fails hn hl => exact .gone rfl rfl
  | ends hn => exact .gone rfl rfl

/-- **A request that is let in waits, or takes the motor with nobody behind it.** -/
theorem waits_or_occupies (h : s.Settled) (he : s.external = none) (c : Context σ)
    (v : Vibration) :
    (s.place c v).next = some { vibration := v } ∨
      ∃ u : Scheduler σ, u.next = none ∧ u.external = none ∧
        s.place c v = u.occupy c { vibration := v } := by
  rcases h.cases with ⟨hp, hn⟩ | ⟨p, hplays⟩ | ⟨p, hp, hst, -⟩
  · exact .inr ⟨s.letIn v, hn, he, place_of_free hp hn⟩
  · let w : Scheduler σ := { s.letIn v with next := some { vibration := v } }
    have hcancel := cancellation_cancelCurrent (s := w) hplays.current hplays.runs.stopping c
      .cancelledSuperseded
    rw [place_of_plays hplays]
    generalize (w.cancelCurrent c .cancelledSuperseded).2 = t at hcancel
    cases hcancel with
    | halted hf hl => exact .inl rfl
    | released hl ho =>
      rw [release_cancelled (s := w) hplays.current hplays.runs rfl he rfl]
      refine .inr ⟨_, ?_, ?_, rfl⟩
      · rfl
      · exact he
  · refine .inl ?_
    rw [place_of_stopping hp hst.stopping]

/-- Whoever is let in is somewhere. -/
theorem located_place (h : s.Settled) (he : s.external = none) (hv : v.status = .pending) :
    (s.place c v).Located v.id := by
  rcases waits_or_occupies h he c v with hnext | ⟨u, hn, hex, hplace⟩
  · exact .waits hnext rfl
  · rw [hplace]
    exact (begun_occupy (Playback.untouched_of_pending hv) hn hex).located

/-- Whoever asks is somewhere at once. -/
theorem located_vibrate (h : s.Settled) (hv : v.status = .pending) :
    (s.vibrate c v).2.Located v.id := by
  cases hr : s.refusal? c v with
  | some status =>
    rw [vibrate_of_refusal? hr]
    have hid := (Vibration.becomes_finish v (isTerminal_of_refusal? hr) c.now).id_eq
    exact .gone rfl hid.symm
  | none =>
    rw [vibrate_of_welcome hr]
    exact located_place h (external_of_refusal?_eq_none hr) hv

/-- The answer to a request says as what it is gone, or where it is found. -/
theorem fst_vibrate (hv : v.status = .pending) :
    (∃ w, (s.vibrate c v).2.retired.head? = some w ∧ w.id = v.id ∧
      w.status = (s.vibrate c v).1) ∨
      (s.vibrate c v).1 = (s.vibrate c v).2.statusOf v.id := by
  cases hr : s.refusal? c v with
  | some status =>
    have haway := turnedAway_of_pending hv hr
    refine .inl ⟨v.endedAs status c.now, ?_, rfl, haway.answered.symm⟩
    rw [retired, haway.journal]
    rfl
  | none =>
    refine .inr ?_
    rw [vibrate_of_welcome hr]

/-- The latest that is gone is found in the history, if nobody else has its number. -/
theorem Remembers.find?_latest (h : s.Remembers limit) {w : Vibration}
    (hw : s.retired.head? = some w) (hunique : ∀ w' ∈ s.retired, w'.id = w.id → w' = w) :
    s.history.find? w.id = some w.info := by
  have hfound : (s.history.find? w.id).isSome = true :=
    List.find?_isSome.2 ⟨w.info, h.latest w hw, decide_eq_true rfl⟩
  obtain ⟨info, hinfo⟩ := Option.isSome_iff_exists.1 hfound
  obtain ⟨w', hw', rfl⟩ := h.gone info (List.mem_of_find?_eq_some hinfo)
  have hid := List.find?_some hinfo
  rw [hinfo, hunique w' hw' (of_decide_eq_true hid)]

/-- **Who is located is found.** -/
theorem Remembers.isSome_status? (h : s.Remembers limit) {id : Nat} (hl : s.Located id) :
    (s.status? id).isSome = true := by
  unfold status?
  rw [Option.isSome_or, Option.isSome_map, Option.isSome_map, Bool.or_eq_true]
  cases hl with
  | @holds p hp hi =>
    refine .inl (List.find?_isSome.2 ⟨p, List.mem_append_left _ ?_, decide_eq_true hi⟩)
    exact Option.mem_toList.2 hp
  | @waits q hq hi =>
    refine .inl (List.find?_isSome.2 ⟨q, List.mem_append_right _ ?_, decide_eq_true hi⟩)
    exact Option.mem_toList.2 hq
  | @gone w hw hi =>
    exact .inr (List.find?_isSome.2 ⟨w.info, h.latest w hw, decide_eq_true hi⟩)

/-- **What is found is where a vibration of that number stands.** -/
theorem Remembers.mem_of_status? (h : s.Remembers limit) {id : Nat} {status : Status}
    (hs : s.status? id = some status) : ∃ w ∈ s.vibrations, w.id = id ∧ w.status = status := by
  rcases Option.or_eq_some_iff.1 hs with hslot | ⟨-, hhistory⟩
  · obtain ⟨p, hfound, rfl⟩ := Option.map_eq_some_iff.1 hslot
    have hp := List.mem_map_of_mem (f := (·.vibration)) (List.mem_of_find?_eq_some hfound)
    have hid := List.find?_some hfound
    exact ⟨p.vibration, List.mem_append_left _ hp, of_decide_eq_true hid, rfl⟩
  · obtain ⟨info, hfound, rfl⟩ := Option.map_eq_some_iff.1 hhistory
    obtain ⟨w, hw, rfl⟩ := h.gone info (List.mem_of_find?_eq_some hfound)
    have hid := List.find?_some hfound
    exact ⟨w, List.mem_append_right _ hw, of_decide_eq_true hid, rfl⟩

/-! ## In every state of every course -/

/-- **The report tells the truth**, in every state of every course, under every configuration that
passes its check: let `t` be the state after a request, whatever else it has ended.

* One vibration in `t` has the number of the request. It is what the request has become, and its
  status is the one reported. It holds the motor or waits for it; or it is gone, and the history
  keeps it under its number.
* The vibration is found, so that it is never taken to have finished because it is not. -/
theorem report_is_true (c : Context σ) (hc : c.config.check = .ok ()) (actuator : σ)
    (os : List (Occurrence σ)) (policy : Policy) (now : Nat) (v : Vibration)
    (h : Proper (os ++ [.handled ⟨policy, now, .vibrate v⟩])) :
    let answer := (after c actuator os).vibrate (c.during ⟨policy, now, .vibrate v⟩) v
    let t := answer.2
    (∃ w, v.Becomes w ∧ w.status = answer.1 ∧ (∀ w' ∈ t.vibrations, w'.id = v.id → w' = w) ∧
      ((∃ p, t.current = some p ∧ p.vibration = w) ∨ (∃ q, t.next = some q ∧ q.vibration = w) ∨
        (w ∈ t.retired ∧ t.history.find? v.id = some w.info))) ∧
    t.status? v.id = some answer.1 ∧ t.statusOf v.id = answer.1 := by
  intro answer t
  have hafter : t = after c actuator (os ++ [.handled ⟨policy, now, .vibrate v⟩]) :=
    (after_concat c actuator os (.handled ⟨policy, now, .vibrate v⟩)).symm
  have hpos : 0 < c.config.historyLimit :=
    ((Config.check_eq_ok_iff c.config).1 hc).1 ("history_limit", _) (by simp [Config.positives])
  have hnew := isNew_of_concat h.new
  have hv : v.status = .pending := (hnew.2 v rfl).status
  have hremembers : t.Remembers c.config.historyLimit :=
    hafter ▸ remembers_after c hpos actuator h.new
  have hlocated : t.Located v.id := located_vibrate (settled_after c actuator hnew.1) hv
  -- the request has become some vibration, and no other one has its number
  obtain ⟨w, hw, hbecomes⟩ : ∃ w ∈ t.vibrations, v.Becomes w := by
    rw [hafter]
    refine (renews_after c actuator h.new).exists_becomes ?_
    rw [asked_concat]
    exact List.mem_append_right _ List.mem_cons_self
  have hunique : ∀ w' ∈ t.vibrations, w'.id = v.id → w' = w := by
    intro w' hw' hid
    have hnodup : (t.vibrations.map (·.id)).Nodup := hafter ▸ nodup_ids_after c actuator h
    exact List.inj_on_of_nodup_map hnodup hw' hw (hid.trans hbecomes.id_eq)
  obtain ⟨status, hfound⟩ := Option.isSome_iff_exists.1 (hremembers.isSome_status? hlocated)
  have hstatus : w.status = status := by
    obtain ⟨w', hw', hid, hs⟩ := hremembers.mem_of_status? hfound
    rw [← hunique w' hw' hid, hs]
  -- who is turned away is answered with his own status, and anyone else by a look at the state
  have hanswer : answer.1 = status := by
    rcases fst_vibrate (c := c.during ⟨policy, now, .vibrate v⟩) hv with
      ⟨w', hw', hid, hs⟩ | hs
    · rw [← hstatus, ← hunique w' (List.mem_append_right _ (List.mem_of_head? hw')) hid]
      exact hs.symm
    · rw [hs, statusOf_eq, hfound]
      rfl
  refine ⟨⟨w, hbecomes, hstatus.trans hanswer.symm, hunique, ?_⟩, by rw [hfound, hanswer], ?_⟩
  · cases hlocated with
    | @holds p hp hi =>
      have hmem : p.vibration ∈ t.vibrations := vibrations_of_current hp ▸ List.mem_cons_self
      exact .inl ⟨p, hp, hunique _ hmem hi⟩
    | @waits q hq hi =>
      have hmem : q.vibration ∈ t.vibrations := (vibrations_of_next hq).mem_iff.2 List.mem_cons_self
      exact .inr (.inl ⟨q, hq, hunique _ hmem hi⟩)
    | @gone w' hw' hi =>
      have hretired := List.mem_of_head? hw'
      cases hunique w' (List.mem_append_right _ hretired) hi
      exact .inr (.inr ⟨hretired, hi ▸ hremembers.find?_latest hw' fun w' hw' hid =>
        hunique w' (List.mem_append_right _ hw') (hid.trans hi)⟩)
  · rw [statusOf_eq, hfound, hanswer]
    rfl

/-- A scheduler whose history keeps one vibration of each usage. -/
def forgetful : Context Bench := { onBench with config := { historyLimit := 1 } }

/-- A motor that can be switched on once, and then refuses to. -/
def onceOn : Bench := { bench with faults := [{ method := "on", skip := 1 }] }

/-- A push is asked for. -/
def pushRuns : List (Occurrence Bench) := [.handled ⟨.permissive, 0, .vibrate (.ofRequest 1 push)⟩]

/-- Another push ends the one that runs, and ends itself because the motor refuses it. Both are gone
in one call, the history has kept only the second, and the report is about that. -/
theorem report_is_true_refused :
    let v := Vibration.ofRequest 2 push
    let answer := (after forgetful onceOn pushRuns).vibrate
      (forgetful.during ⟨.permissive, 5, .vibrate v⟩) v
    let t := answer.2
    forgetful.config.check = .ok () ∧
    Proper (pushRuns ++ [.handled ⟨.permissive, 5, .vibrate v⟩]) ∧
    t.retired.map (·.status) = [.ignoredErrorScheduling, .cancelledSuperseded] ∧
    t.history.size = 1 ∧ answer.1 = .ignoredErrorScheduling ∧
    t.status? 2 = some answer.1 ∧ t.statusOf 2 = answer.1 := by
  intro v answer t
  have hcheck : forgetful.config.check = .ok () := rfl
  have hproper : Proper (pushRuns ++ [.handled ⟨.permissive, 5, .vibrate v⟩]) := by
    refine ⟨fun w hw => ⟨push, ?_⟩, by decide⟩
    rcases List.mem_cons.1 hw with rfl | hw
    · rfl
    · rw [List.mem_singleton.1 hw]
      rfl
  have htrue := report_is_true forgetful hcheck onceOn pushRuns .permissive 5 v hproper
  exact ⟨hcheck, hproper, by decide, by decide, by decide, htrue.2⟩

end Scheduler

end Haptics
