import Haptics.Proofs.Actuator.Log
import Haptics.Proofs.Scheduler.Admission

/-!
# Where packets go

A packet names a transmission. It is passed on only to the vibration of that transmission which is
live: it is kept while the vibration waits, and given to the actuator while its stream plays. A
packet of no transmission, or of one that no live vibration belongs to, is dropped without a trace.

* `Settled.isLive_unique`: not more than one vibration is live.
* `packet_reaches_live`: what becomes of a packet (`passed_packet`), in every state of every course.
-/

namespace Haptics.Scheduler

open Occurrence

variable {σ : Type} {s : Scheduler σ} {p : Playback}

/-! ## Who is live -/

/-- Whoever waits is live. -/
theorem Settled.isLive_of_next (h : s.Settled) (hp : s.next = some p) : s.IsLive p :=
  .inr ⟨hp, (h.waiting p hp).1.pending⟩

/-- Whoever plays is live. -/
theorem Plays.isLive (h : s.Plays p) : s.IsLive p :=
  .inl ⟨h.current, h.runs.running, h.runs.stopping⟩

/-- **Not more than one vibration is live** between two inputs. -/
theorem Settled.isLive_unique (h : s.Settled) {q : Playback} (hp : s.IsLive p) (hq : s.IsLive q) :
    q = p := by
  have hnone (r r' : Playback) (hr : s.current = some r) (hs : r.stopping = false)
      (hr' : s.next = some r') : False := by
    have hn := (h.plays hr hs).next
    rw [hr'] at hn
    cases hn
  rcases hp with ⟨hp, -, hps⟩ | ⟨hp, -⟩
  · rcases hq with ⟨hq, -⟩ | ⟨hq, -⟩
    · exact Option.some.inj (hq.symm.trans hp)
    · exact (hnone p q hp hps hq).elim
  · rcases hq with ⟨hq, -, hqs⟩ | ⟨hq, -⟩
    · exact (hnone q p hq hqs hp).elim
    · exact Option.some.inj (hq.symm.trans hp)

/-! ## Where a packet goes -/

/-- **Packets go to the vibration that is live, and nowhere else**, in every state of every course.

* A packet that is forwarded under a number goes to the only live vibration; the number is its own,
  and it is of the transmission that the packet names. If the vibration plays, the actuator has
  taken the packet, once and under that number, and nothing else has been done; so it comes last in
  the log of the actuator, if that keeps one. If the vibration waits, the packet is kept for it,
  behind those kept before, and nothing else has been done.
* If no live vibration is of the transmission that the packet names, if it names one at all, it is
  dropped, and neither the scheduler nor the actuator is any different. -/
theorem packet_reaches_live (c : Context σ) (actuator : σ) (os : List (Occurrence σ))
    (h : ∀ v ∈ asked os, v.IsNew) (c' : Context σ) (packet : Stream) :
    let s := after c actuator os
    (∀ id t, s.packet c' packet = (.forwarded id, t) →
      ∃ p x, s.IsLive p ∧ (∀ q, s.IsLive q → q = p) ∧ p.id = id ∧
        packet.sender? = some x ∧ p.vibration.sender = some x ∧
        ((s.current = some p ∧
            ∃ a, t = { s with
                line := { s.line with actuator := a }
                journal := .issued (.stream packet id) :: s.journal } ∧
              ∀ log : σ → List Command, Logs c'.device log →
                log a = log s.line.actuator ++ [(Order.stream packet id).command]) ∨
          (s.next = some p ∧
            t = { s with next := some { p with packets := p.packets ++ [packet] } }))) ∧
    ((∀ x p, packet.sender? = some x → s.IsLive p → p.vibration.sender ≠ some x) →
      s.packet c' packet = (.dropped, s)) := by
  intro s
  have hsettled : s.Settled := settled_after c actuator h
  have hpassed := passed_packet c' packet s
  constructor
  · intro id t hanswer
    rw [hanswer] at hpassed
    cases hpassed with
    | @kept q x hx hq hs =>
      have hlive := hsettled.isLive_of_next hq
      exact ⟨q, x, hlive, fun r => hsettled.isLive_unique hlive, rfl, hx, hs, .inr ⟨hq, rfl⟩⟩
    | @taken p x reported a hx hp hst hs hf ht =>
      have hlive := (hsettled.plays hp hst).isLive
      refine ⟨p, x, hlive, fun r => hsettled.isLive_unique hlive, rfl, hx, hs, .inl ?_⟩
      exact ⟨hp, a, rfl, fun log hlog => hlog.taken ht⟩
  · intro hnone
    generalize s.packet c' packet = answer at hpassed
    cases hpassed with
    | kept hx hq hs => exact absurd hs (hnone _ _ hx (hsettled.isLive_of_next hq))
    | taken hx hp hst hs hf ht => exact absurd hs (hnone _ _ hx (hsettled.plays hp hst).isLive)
    | refused hx hp hst hs ht => exact absurd hs (hnone _ _ hx (hsettled.plays hp hst).isLive)
    | ignored => rfl

/-- The second packet of a transmission on the bench. -/
def continuation (transmission : Nat) : Stream where
  words := [packetTag, 2, 7, Word.ofNat transmission, 65538, 1, 0, 0]

/-- While the second transmission waits for the stream of the first to stop, its packets are kept
for it, and those of the first are dropped. -/
theorem packet_reaches_live_openings :
    (∀ v ∈ asked openings, v.IsNew) ∧
    let s := after onBench bench openings
    (∃ p, s.IsLive p ∧ p.id = 2 ∧ p.vibration.sender = some ⟨7, 2⟩ ∧
      (s.packet onBench (continuation 2)).1 = .forwarded 2) ∧
    (s.packet onBench (continuation 1)).1 = .dropped := by
  have hnew : ∀ v ∈ asked openings, v.IsNew := (proper_openings firstEnded rfl).of_append.new
  refine ⟨hnew, ?_⟩
  intro s
  have hforwarded : (s.packet onBench (continuation 2)).1 = .forwarded 2 := by decide
  have hsender : (continuation 2).sender? = some ⟨7, 2⟩ := by decide
  obtain ⟨p, x, hlive, -, hid, hx, hs, -⟩ :=
    (packet_reaches_live onBench bench openings hnew onBench (continuation 2)).1 2 _
      (Prod.ext hforwarded rfl)
  cases hsender.symm.trans hx
  exact ⟨⟨p, hlive, hid, hs, hforwarded⟩, by decide⟩

end Haptics.Scheduler
