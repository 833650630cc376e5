import Haptics.Proofs.Service.Affairs

/-!
# A client's streams in a service

A client of a service has one vibration, whose streams are kept apart from those of others
(`Carries`): the others bring none of its transmission, and numbers are given out once. So whatever
the others do leaves the client's streams alone, and its own calls add to them.

* `Carries.stirs`, `Carries.stirsAll`: what the others do.
* `Carries.placed`, `Carries.submit`: the client's own calls.
* `CarriesOf.streamed`: what the actuator has been given by then.
-/

namespace Haptics

variable {σ α : Type}

namespace Service

open Occurrence Scheduler

/-- The scheduler has come to its state by a course in which the streams of a client are kept apart
from those of others, with numbers that the service has given out. -/
def Carries (c : Context σ) (actuator : σ) (P : Stream → Prop) (id : Nat) (first : Stream)
    (own : List Stream) (s : Service σ α) : Prop :=
  ∃ os, s.scheduler = after c actuator os ∧ Relays c actuator P id first own os ∧
    ∀ v ∈ asked os, v.id < s.nextVibration

section carries

variable {c : Context σ} {actuator : σ} {P : Stream → Prop} {id : Nat} {first : Stream}
  {own : List Stream} {s t : Service σ α}

/-- A service that has just been created has a scheduler that has just been created. -/
theorem eq_of_create (h : create c.config actuator = .ok s) :
    s = { scheduler := .create c.config actuator } := by
  unfold create at h
  cases hc : c.config.check with
  | error e =>
    rw [hc] at h
    cases h
  | ok =>
    rw [hc] at h
    cases h
    rfl

/-- Nothing has been handed in to it. -/
theorem carries_create (h : create c.config actuator = .ok s) :
    s.Carries c actuator P id first [] := by
  rw [eq_of_create h]
  exact ⟨[], rfl, relays_nil, List.forall_mem_nil _⟩

/-- Its first number is one. -/
theorem nextVibration_create (h : create c.config actuator = .ok s) : s.nextVibration = 1 := by
  rw [eq_of_create h]

/-- **What stirs the scheduler for others leaves the client's streams alone**, unless it comes under
the client's number; this has not been given out yet, or it has been before. -/
theorem Carries.stirs (h : s.Carries c actuator P id first own) (ha : Apart P first)
    (hs : Stirs c P s t) (hid : t.nextVibration ≤ id ∨ id < s.nextVibration) :
    t.Carries c actuator P id first own := by
  obtain ⟨os, hcourse, hr, hlt⟩ := h
  cases hs with
  | idle hs hn =>
    exact ⟨os, hs.trans hcourse, hr, fun v hv => (hlt v hv).trans_le hn⟩
  | occurred o hs hn ho hb =>
    refine ⟨os ++ [o], ?_, ?_, ?_⟩
    · rw [after_concat, ← hcourse, hs]
    · refine hr.others ha (hr.proper.concat_of_none ho) hb fun v hv => ?_
      rw [ho] at hv
      cases hv
    · rw [asked_concat, ho, hn]
      simpa using hlt
  | requested i r hs hn hb =>
    -- numbers are given out once, so the request is not under the client's
    have hne : s.nextVibration ≠ id := by omega
    refine ⟨os ++ [ofRequest i s.nextVibration r], ?_, ?_, ?_⟩
    · rw [after_concat, ← hcourse, hs]
    · apply hr.others ha (hr.proper.concat_ofRequest hlt i r)
      · intro st hst
        exact hb st (Option.mem_toList.1 hst)
      · rintro _ ⟨⟩
        exact hne
    · rw [hn]
      exact lt_of_mem_asked_concat hlt i r

/-- **What the others do leaves the client's streams alone.** -/
theorem Carries.stirsAll (h : s.Carries c actuator P id first own) (ha : Apart P first)
    (hs : Relation.ReflTransGen (Stirs c P) s t)
    (hid : t.nextVibration ≤ id ∨ id < s.nextVibration) :
    t.Carries c actuator P id first own := by
  induction hs with
  | refl => exact h
  | tail hsteps hstep ih =>
    refine (ih ?_).stirs ha hstep ?_
    · exact hid.imp_left hstep.grows.trans
    · exact hid.imp_right (grows_of_stirs hsteps).trans_lt'

/-- When the number of the client's vibration has been given out, it stays so, whatever the others
do. -/
theorem Carries.behind (h : s.Carries c actuator P id first own) (ha : Apart P first)
    (hid : id < s.nextVibration) (hs : Relation.ReflTransGen (Stirs c P) s t) :
    t.Carries c actuator P id first own ∧ id < t.nextVibration :=
  ⟨h.stirsAll ha hs (.inr hid), hid.trans_le (grows_of_stirs hs)⟩

/-- The client asks for its vibration. -/
theorem Carries.placed (h : s.Carries c actuator P s.nextVibration first []) (i : Instant)
    {r : VibrationRequest} (hr : r.effect = .stream first)
    (hs : t.scheduler =
      (s.scheduler.vibrate (c.asOf i) (.ofRequest s.nextVibration r)).2)
    (hn : t.nextVibration = s.nextVibration + 1) :
    t.Carries c actuator P s.nextVibration first [first] := by
  obtain ⟨os, hcourse, hrelays, hlt⟩ := h
  refine ⟨os ++ [ofRequest i s.nextVibration r], ?_, ?_, ?_⟩
  · rw [after_concat, ← hcourse, hs]
    rfl
  · exact hrelays.request_first (hrelays.proper.concat_ofRequest hlt i r) rfl hr
  · rw [hn]
    exact lt_of_mem_asked_concat hlt i r

/-- **The client passes a packet on**, which is handed in for its vibration or dropped. -/
theorem Carries.submit (h : s.Carries c actuator P id first own) (ha : Apart P first)
    (i : Instant) {packet : Stream}
    (hx : ∀ x, packet.sender? = some x → first.sender? = some x) :
    ∃ given, given <+: [packet] ∧
      (s.submit (c.asOf i) packet).2.Carries c actuator P id first (own ++ given) ∧
      (s.submit (c.asOf i) packet).2.nextVibration = s.nextVibration ∧
      ∀ n, (s.submit (c.asOf i) packet).1 = .ok (.forwarded n) → given = [packet] := by
  have hcalled := called_call (fun t => t.packet (c.asOf i) packet) s
  unfold Service.submit
  generalize s.call _ = answer at hcalled
  cases hcalled with
  | stopped e =>
    refine ⟨[], List.nil_prefix, ?_, rfl, fun n he => (by cases he)⟩
    rwa [List.append_nil]
  | answered hs hn =>
    obtain ⟨os, hcourse, hr, hlt⟩ := h
    have hpacket := hr.packet ha hx ⟨i.policy, i.now, .packet packet⟩ rfl
    rw [← hcourse] at hpacket
    refine ⟨_, ?_, ⟨_, ?_, hpacket, ?_⟩, hn, fun n he => ?_⟩
    · split
      · exact List.prefix_refl _
      · exact List.nil_prefix
    · rw [after_concat, ← hcourse]
      exact hs
    · rw [asked_concat, hn]
      simpa [asks] using hlt
    · have hfate := Except.ok.inj he
      rw [hcourse] at hfate
      have hid := hr.eq_of_forwarded ha hx hfate
      rw [← hcourse, hid] at hfate
      exact if_pos hfate

/-- A service carries streams of a list, in order, under a number that it has given out. -/
def CarriesOf (c : Context σ) (actuator : σ) (P : Stream → Prop) (streams : List Stream) (id : Nat)
    (s : Service σ α) : Prop :=
  ∃ first own, Apart P first ∧ own <+: streams ∧ s.Carries c actuator P id first own ∧
    id < s.nextVibration

/-- **What stirs the scheduler for others leaves them in order.** -/
theorem CarriesOf.stirsAll {streams : List Stream} (h : s.CarriesOf c actuator P streams id)
    (hs : Relation.ReflTransGen (Stirs c P) s t) : t.CarriesOf c actuator P streams id := by
  obtain ⟨first, own, ha, hown, hcarries, hid⟩ := h
  exact ⟨first, own, ha, hown, hcarries.behind ha hid hs⟩

/-- Before the client has asked for a vibration nothing is carried, under any number that has not
been given out. -/
theorem carries_of_stirs (hs : create c.config actuator = .ok s)
    (ht : Relation.ReflTransGen (Stirs c P) s t) (ha : Apart P first)
    (hid : t.nextVibration ≤ id ∨ id = 0) : t.Carries c actuator P id first [] := by
  refine (carries_create hs).stirsAll ha ht (hid.imp_right fun hzero => ?_)
  rw [hzero, nextVibration_create hs]
  exact Nat.zero_lt_one

/-- If the client does not ask for a vibration nothing is carried. -/
theorem carriesOf_of_stirs (hs : create c.config actuator = .ok s)
    (ht : Relation.ReflTransGen (Stirs c P) s t) (streams : List Stream) :
    t.CarriesOf c actuator P streams 0 := by
  have ha : Apart P { words := [] } := by
    intro st _ x _ hx
    cases hx
  refine ⟨_, [], ha, List.nil_prefix, carries_of_stirs hs ht ha (.inr rfl), ?_⟩
  have hgrows := grows_of_stirs ht
  rw [nextVibration_create hs] at hgrows
  exact hgrows

/-- **The streams of a list are given in order**, as far as they are given, and under other numbers
only those of others. -/
theorem CarriesOf.streamed {streams : List Stream} (h : s.CarriesOf c actuator P streams id) :
    s.scheduler.streamed id <+: streams ∧
      ∀ n, n ≠ id → ∀ st ∈ s.scheduler.streamed n, P st := by
  obtain ⟨first, own, -, hown, ⟨os, hcourse, hr, -⟩, -⟩ := h
  rw [hcourse]
  exact ⟨hr.streamed_prefix_own.trans hown, fun n hn st => hr.foreign_of_streamed hn⟩

end carries

end Service

end Haptics
