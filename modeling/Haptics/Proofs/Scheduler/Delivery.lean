import Haptics.Proofs.Scheduler.Packets
import Haptics.Proofs.Scheduler.Streams

/-!
# Streams are delivered in order

What is *handed in* for a vibration is the stream it is requested with, and each packet that is
answered with its number (`handed`). The actuator is given no more than that, and in that order: a
packet may wait with its vibration and be given with the stream, or it may be given when it is
handed in; either way everything handed in before has been given by then.

What carries this is `Delivers`: nothing of a vibration that waits has been given yet, and all of
what was handed in is waiting with it; all of a stream that plays has been given. While a vibration
is about to give up the motor only the first matters (`Keeps`).

* `Started.delivers`: a step gives what has been handed in.
* `Keeps.release`, `Keeps.cancelCurrent`: who gets the motor next is given all of its own.
* `delivers_undergo`: an occurrence adds what it hands in.
* `streamed_prefix_handed`: the whole, in every state of every course.
-/

namespace Haptics.Scheduler

open Occurrence

variable {σ : Type}

/-- The streams that are to be given for vibrations, one list for each number, are given in order:
so far a first part of them, and nothing yet of those of the vibration that waits. -/
structure Keeps (g : Nat → List Stream) (s : Scheduler σ) : Prop where
  sent : ∀ n, s.streamed n <+: g n
  waiting : ∀ q ∈ s.next, s.streamed q.id = [] ∧ g q.id = q.streams

/-- In addition, all streams of the vibration that plays one have been given. -/
structure Delivers (g : Nat → List Stream) (s : Scheduler σ) : Prop extends Keeps g s where
  holding : ∀ p ∈ s.current, p.stopping = false →
    (p.hasStreamInFlight = true → s.streamed p.id = g p.id) ∧ p.Launched

section calm

variable {g : Nat → List Stream} {s t : Scheduler σ}

/-- What is calm leaves streams in order. -/
theorem Keeps.calm (h : Keeps g s) (hc : Calm s t) : Keeps g t where
  sent n := by
    rw [hc.streamed n]
    exact h.sent n
  waiting q hq := by
    rw [hc.streamed q.id]
    exact h.waiting q (hc.waiting q hq)

/-- It also leaves given what has been given of a stream that plays. -/
theorem Delivers.calm (h : Delivers g s) (hc : Calm s t) : Delivers g t where
  toKeeps := h.toKeeps.calm hc
  holding := by
    intro p hp hs
    obtain ⟨p₀, hp₀, hs₀, hid, hstage, hnext⟩ := hc.holding p hp hs
    obtain ⟨hgiven, hlaunched⟩ := h.holding p₀ hp₀ hs₀
    constructor
    · intro hf
      rw [hc.streamed p.id, hid]
      apply hgiven
      unfold Playback.hasStreamInFlight at hf ⊢
      rwa [← hstage]
    · intro step cursor hn
      rw [hnext] at hn
      exact hlaunched step cursor hn

/-- Where nobody holds the motor who has not been told to stop, there is nothing to add. -/
theorem Keeps.delivers (h : Keeps g s) (hs : ∀ p ∈ s.current, p.stopping = true) :
    Delivers g s where
  toKeeps := h
  holding := by
    intro p hp hno
    rw [hs p hp] at hno
    cases hno

end calm

/-! ## The next step -/

section steps

variable {c : Context σ} {g : Nat → List Stream} {s : Scheduler σ} {p q : Playback}

/-- If a stream is to be given next, it is all that was handed in and has not been given. -/
def Feeds (g : Nat → List Stream) (s : Scheduler σ) (p : Playback) : Prop :=
  ∀ step cursor, p.nextStep = some (step, cursor) → step.stage = .stream →
    s.streamed p.id ++ step.streams p.packets = g p.id

/-- Only the step of a stream gives streams. -/
theorem streams_of_stage {step : Step} (h : step.stage ≠ .stream) (packets : List Stream) :
    step.streams packets = [] := by
  cases step with
  | stream s => exact absurd rfl h
  | _ => rfl

/-- The streams of a step continue what has been given. -/
theorem Keeps.append_prefix (h : Keeps g s) (hf : Feeds g s p) {step : Step} {cursor : Nat}
    (hn : p.nextStep = some (step, cursor)) {given : Nat → List Stream}
    (hg : ∀ n, given n <+: if n = p.id then step.streams p.packets else []) (n : Nat) :
    s.streamed n ++ given n <+: g n := by
  have hgiven := hg n
  by_cases hid : n = p.id
  · rw [if_pos hid] at hgiven
    subst hid
    by_cases hs : step.stage = .stream
    · rw [← hf step cursor hn hs]
      exact (List.prefix_append_right_inj _).2 hgiven
    · rw [streams_of_stage hs] at hgiven
      rw [List.prefix_nil.1 hgiven, List.append_nil]
      exact h.sent p.id
  · rw [if_neg hid] at hgiven
    rw [List.prefix_nil.1 hgiven, List.append_nil]
    exact h.sent n

/-- **A step gives what has been handed in**, or as much of it as the actuator takes; in flight, it
has given all. -/
theorem Started.delivers {answer : Bool × Scheduler σ} (h : Started c s p answer)
    (hn : s.next = none) (hk : Keeps g s) (hf : Feeds g s p) :
    Keeps g answer.2 ∧ (answer.1 = false → Delivers g answer.2) := by
  cases h with
  | exhausted hnone => exact ⟨hk.calm (calm_finishCurrent c .finished s), fun hb => (by cases hb)⟩
  | @failed line step cursor info given hstep ht hg =>
    refine ⟨Keeps.calm ?_ (calm_failCurrent c _), fun hb => (by cases hb)⟩
    refine ⟨fun n => ?_, ?_⟩
    · rw [streamed_told]
      exact hk.append_prefix hf hstep (fun n => streamsFor_given hg) n
    · rw [next_told, hn]
      rintro _ ⟨⟩
  | @launched line step cursor info hstep ht reported =>
    have hstreamed (n : Nat) : (s.told line (step.orders info p.id p.packets).reverse).streamed n =
        s.streamed n ++ if n = p.id then step.streams p.packets else [] := by
      rw [streamed_told, streamsFor_orders]
    have hkeeps : Keeps g (s.told line (step.orders info p.id p.packets).reverse) := by
      refine ⟨fun n => ?_, ?_⟩
      · rw [hstreamed n]
        exact hk.append_prefix hf hstep (fun n => List.prefix_refl _) n
      · rw [next_told, hn]
        rintro _ ⟨⟩
    have hdelivers : Delivers g { s.told line (step.orders info p.id p.packets).reverse with
        current := some
          (p.launch step cursor c.now (step.span reported c.config.prebakedFallbackMs)) } := by
      refine ⟨⟨hkeeps.sent, hkeeps.waiting⟩, ?_⟩
      rintro _ ⟨⟩ -
      -- in flight the vibration is a stream, and the step was to give all of what was handed in
      refine ⟨fun hflight => ?_, Playback.launched_launch hstep _ _⟩
      have hstage : step.stage = .stream := Option.some.inj (beq_iff_eq.1 hflight)
      refine (hstreamed p.id).trans ?_
      rw [if_pos rfl]
      exact hf step cursor hstep hstage
    exact ⟨hdelivers.toKeeps, fun _ => hdelivers⟩

/-- **Who gets the motor** is given all that was handed in for it. -/
theorem Keeps.begin (h : Keeps g s) (hn : s.next = none) (hnone : s.streamed q.id = [])
    (hq : g q.id = q.streams) (c : Context σ) :
    Keeps g (s.begin c q).2 ∧ ((s.begin c q).1 = false → Delivers g (s.begin c q).2) := by
  have hs := started_startStep (c := c) (s := s.takenBy q) rfl
  have hk : Keeps g (s.takenBy q) := by
    refine ⟨h.sent, ?_⟩
    change ∀ q' ∈ s.next, _
    rw [hn]
    rintro _ ⟨⟩
  refine hs.delivers hn hk ?_
  intro step cursor hstep hstage
  obtain ⟨stream, rfl, heffect, -⟩ := Playback.effect_of_nextStep hstep hstage
  have heq : q.vibration.effect = .stream stream := by
    rw [← heffect]
    unfold Playback.begin Vibration.start
    split <;> rfl
  change s.streamed q.begin.id ++ stream :: q.packets = g q.begin.id
  rw [Playback.id_begin, hnone, hq, Playback.streams, heq]
  rfl

/-! ## Giving up the motor -/

/-- To give up the motor gives no stream. -/
theorem Keeps.vacate (h : Keeps g s) (c : Context σ) : Delivers g (s.vacate c) := by
  have hd : Delivers g (s.dropCurrent c) := by
    apply (h.calm (calm_dropCurrent c s)).delivers
    rw [current_dropCurrent]
    rintro _ ⟨⟩
  exact hd.calm (startsNothing_activateExternal c _).calm

/-- **To give up the motor keeps streams in order**: whoever waits gets all of its own. -/
theorem Keeps.release (h : Keeps g s) (c : Context σ) : Delivers g (s.release c) := by
  have hv := h.vacate c
  unfold Scheduler.release
  simp only
  split
  · next q he hq =>
    obtain ⟨hnone, hstreams⟩ := hv.waiting q hq
    have hkeeps : Keeps g { s.vacate c with next := none } :=
      ⟨hv.sent, fun q hq => (by cases hq)⟩
    obtain ⟨hk, hd⟩ := hkeeps.begin rfl hnone hstreams c
    split
    · next t hb =>
      rw [hb] at hk
      exact hk.vacate c
    · next t hb =>
      rw [hb] at hd
      exact hd rfl
  · exact hv

/-- Whoever gets the motor at once gets all of its own. -/
theorem Keeps.occupy (h : Keeps g s) (hn : s.next = none) (hnone : s.streamed q.id = [])
    (hq : g q.id = q.streams) (c : Context σ) : Delivers g (s.occupy c q) := by
  obtain ⟨hk, hd⟩ := h.begin hn hnone hq c
  unfold Scheduler.occupy
  split
  · next t hb =>
    rw [hb] at hk
    exact hk.release c
  · next t hb =>
    rw [hb] at hd
    exact hd rfl

/-- The stream of a vibration that goes on has been given, so it goes on without one. -/
theorem Delivers.advance (h : Delivers g s) (hp : s.Plays p) (c : Context σ) :
    Delivers g (s.advance c) := by
  have hfeeds : Feeds g s p := fun step cursor hstep hstage =>
    absurd hstage ((h.holding p hp.current hp.runs.stopping).2 step cursor hstep)
  obtain ⟨hk, hd⟩ := (started_startStep (c := c) hp.current).delivers hp.next h.toKeeps hfeeds
  unfold Scheduler.advance
  split
  · next t hb =>
    rw [hb] at hk
    exact hk.release c
  · next t hb =>
    rw [hb] at hd
    exact hd rfl

/-- **To cancel keeps streams in order**: whoever is cancelled is told to stop, or gives up the
motor. -/
theorem Keeps.cancelCurrent (h : Keeps g s) (c : Context σ) (status : Status) :
    Delivers g (s.cancelCurrent c status).2 := by
  rcases cancelCurrent_cases c status s with ⟨heq, hst⟩ | ⟨p, hp, -, hc⟩
  · rw [heq]
    exact h.delivers hst
  · -- that the vibration has ended gives no packet to anybody; then it is halted or released
    have hfinished : Keeps g (s.finishCurrent c status) := h.calm (calm_finishCurrent c status s)
    generalize (s.cancelCurrent c status).2 = t at hc
    cases hc with
    | @halted line hf ht =>
      have hq : (s.finishCurrent c status).current = some (p.finish status c.now) := by
        rw [finishCurrent_of_some c hp]
      have htold : Keeps g ((s.finishCurrent c status).told line [.stop]) :=
        hfinished.calm (startsNothing_told line (List.forall_mem_singleton.2 rfl) _).calm
      refine Keeps.delivers ⟨htold.sent, htold.waiting⟩ ?_
      rw [current_halted hq c line]
      rintro _ ⟨⟩
      rfl
    | @released line orders ht ho =>
      have htold : ∀ o ∈ orders, o.isStart = false := by
        intro o hm
        rw [ho o hm]
        rfl
      exact (hfinished.calm (startsNothing_told line htold _).calm).release c

end steps

/-! ## Inputs that hand nothing in -/

section inputs

variable {c : Context σ} {g : Nat → List Stream} {s t : Scheduler σ}

/-- A session that is put in place leaves streams in order. -/
theorem Delivers.grant (h : Delivers g s) (c : Context σ) (request : ExternalRequest)
    (scale : ExternalScale) : Delivers g (s.grant c request scale).2 := by
  have hi := h.calm (startsNothing_install c { request, scale } s).calm
  unfold Scheduler.grant
  split
  · exact hi.calm (.of_eq rfl rfl rfl)
  · have hdropped := hi.calm (startsNothing_dropNext c .ignoredForExternal _).calm
    have hcancelled := hdropped.toKeeps.cancelCurrent c .cancelledSuperseded
    exact hcancelled.calm (startsNothing_activateExternal c _).calm

/-- **What is demanded** leaves streams in order. -/
theorem Conduct.delivers {b : Bool} (hc : Conduct c b s t) (h : Delivers g s) : Delivers g t := by
  cases hc with
  | aside ha => exact h.calm ha.startsNothing.calm
  | stroke ha hs ha' =>
    have hbefore := h.calm ha.startsNothing.calm
    refine Delivers.calm ?_ ha'.startsNothing.calm
    cases hs with
    | cancelled hs => exact hbefore.toKeeps.cancelCurrent c _
    | granted hb request scale => exact hbefore.grant c request scale

/-- So does the end of a command. -/
theorem Delivers.completed (h : Delivers g s) (hs : s.Settled) (c : Context σ) (id : Nat) :
    Delivers g (s.completed c id) := by
  rcases completed_cases c id s with heq | ⟨p, hp, -, ⟨-, heq⟩ | ⟨hst, -, heq⟩⟩ <;> rw [heq]
  · exact h
  · exact h.toKeeps.release c
  · exact h.advance (hs.plays hp hst) c

/-- So does the loss of the connection. -/
theorem Delivers.lost (h : Delivers g s) (c : Context σ) : Delivers g (s.lost c) := by
  have hcut : Delivers g { s.disconnect with admitted := none } :=
    (h.calm (startsNothing_disconnect s).calm).calm (.of_eq rfl rfl rfl)
  have hstruck : Delivers g (s.struck c) := hcut.calm (calm_finishCurrent c _ _)
  cases hp : s.current with
  | none => rwa [lost_of_none hp]
  | some p =>
    rw [lost_of_some hp]
    exact hstruck.toKeeps.release c

/-- So does a deadline that has passed. -/
theorem Delivers.handleDeadline (h : Delivers g s) (hs : s.Settled) (c : Context σ) :
    Delivers g (s.handleDeadline c) := by
  rcases handleDeadline_cases c s with heq | ⟨p, -, hp, -, -, ⟨-, heq⟩ | ⟨hst, heq⟩⟩ <;> rw [heq]
  · exact h
  · exact h.toKeeps.release c
  · -- without its deadline the vibration plays as before
    have hplays := hs.plays hp hst
    have hd : Delivers g { s with current := some { p with deadline := none } } := by
      refine ⟨⟨h.sent, h.waiting⟩, ?_⟩
      rintro _ ⟨⟩ -
      exact h.holding p hp hst
    exact hd.advance ⟨rfl, ⟨hplays.runs.running, hst⟩, hplays.next, hplays.external⟩ c

/-- **An input that hands nothing in** keeps streams in order. -/
theorem Delivers.step (h : Delivers g s) (hs : s.Settled) (c : Context σ) {input : Input}
    (hv : ∀ v, input ≠ .vibrate v) (hp : ∀ packet, input ≠ .packet packet) :
    Delivers g (s.step c input) := by
  cases input with
  | vibrate v => exact absurd rfl (hv v)
  | packet packet => exact absurd rfl (hp packet)
  | event event =>
    cases event with
    | complete id => exact h.completed hs c id
    | died => exact h.lost c
  | deadline => exact h.handleDeadline hs c
  | _ => exact (conduct_step rfl c s).delivers h

/-- To stop everything leaves streams in order. -/
theorem Delivers.stopAll (h : Delivers g s) (c : Context σ) : Delivers g (s.stopAll c) := by
  have hsilent (t : Scheduler σ) : StartsNothing t (t.silence c) := by
    unfold silence
    split
    · exact .refl t
    · next p hp =>
      have ho : (stopOrder p).isStart = false := by
        unfold stopOrder
        split <;> rfl
      exact (dispatch_issueIfConnected c (stopOrder p) t).startsNothing ho
  have hdropped := h.calm (startsNothing_dropNext c .cancelledByUser s).calm
  have hsilenced := hdropped.calm (hsilent _).calm
  have hfinished := hsilenced.calm (calm_finishCurrent c .cancelledByUser _)
  exact (hfinished.calm (calm_dropCurrent c _)).calm (startsNothing_endExternal c _ _).calm

end inputs

/-! ## What is handed in -/

section handed

variable {g g' : Nat → List Stream} {s : Scheduler σ} {n : Nat}

/-- The streams that an occurrence hands in for a vibration: the one it is requested with, and a
packet that is answered with its number. -/
def handing (c : Context σ) (n : Nat) (s : Scheduler σ) : Occurrence σ → List Stream
  | .handled ⟨_, _, .vibrate v⟩ => if v.id = n then v.effect.stream?.toList else []
  | .handled ⟨policy, now, .packet packet⟩ =>
    if (s.packet (c.during ⟨policy, now, .packet packet⟩) packet).1 = .forwarded n then [packet]
    else []
  | _ => []

/-- The streams that are handed in for a vibration in a course from some state on, in order. -/
def handed (c : Context σ) (n : Nat) : List (Occurrence σ) → Scheduler σ → List Stream
  | [], _ => []
  | o :: rest, s => handing c n s o ++ handed c n rest (s.undergo c o)

/-- What is handed in in two parts is handed in one part after the other. -/
theorem handed_append (c : Context σ) (n : Nat) (first second : List (Occurrence σ))
    (s : Scheduler σ) :
    handed c n (first ++ second) s = handed c n first s ++ handed c n second (s.undergoAll c first)
    := by
  induction first generalizing s with
  | nil => rfl
  | cons o rest ih =>
    rw [List.cons_append, handed, handed, ih, List.append_assoc]
    rfl

/-- More may be handed in for whoever is no longer live. -/
theorem Delivers.more (h : Delivers g s) (hg : ∀ n, g n <+: g' n)
    (hw : ∀ q ∈ s.next, g' q.id = g q.id)
    (hh : ∀ p ∈ s.current, p.stopping = false → g' p.id = g p.id) : Delivers g' s where
  sent n := (h.sent n).trans (hg n)
  waiting := by
    intro q hq
    obtain ⟨hnone, hstreams⟩ := h.waiting q hq
    exact ⟨hnone, (hw q hq).trans hstreams⟩
  holding := by
    intro p hp hs
    obtain ⟨hgiven, hlaunched⟩ := h.holding p hp hs
    refine ⟨fun hf => ?_, hlaunched⟩
    rw [hh p hp hs]
    exact hgiven hf

/-- Whatever is handed in for a vibration that is nowhere concerns nobody else. -/
theorem Delivers.more_of_without (h : Delivers g s) {id : Nat} (hs : Moment.Without id ⟨none, s⟩)
    (streams : List Stream) : Delivers (fun n => g n ++ if id = n then streams else []) s := by
  have hkept (n : Nat) (hn : n ≠ id) : (g n ++ if id = n then streams else []) = g n := by
    rw [if_neg hn.symm, List.append_nil]
  apply h.more
  · intro n
    exact List.prefix_append _ _
  · intro q hq
    exact hkept q.id (hs.waiting q hq)
  · intro p hp hstopping
    apply hkept
    intro hid
    rw [hs.holding p hp hid] at hstopping
    cases hstopping

/-- **A request hands in its stream**, which waits with it or is given at once. -/
theorem Delivers.vibrate (h : Delivers g s) {v : Vibration} (hs : Moment.Without v.id ⟨none, s⟩)
    (hg : g v.id = []) (c : Context σ) :
    Delivers (fun n => g n ++ if v.id = n then v.effect.stream?.toList else [])
      (s.vibrate c v).2 := by
  have hmore := h.more_of_without hs v.effect.stream?.toList
  have hown : g v.id ++ (if v.id = v.id then v.effect.stream?.toList else []) =
      ({ vibration := v } : Playback).streams := by
    rw [hg, if_pos rfl, List.nil_append, Playback.streams, List.append_nil]
  -- nothing has been given under the new number, as nothing has been handed in under it
  have hnone : s.streamed v.id = [] := List.prefix_nil.1 (hg ▸ h.sent v.id)
  cases hr : s.refusal? c v with
  | some status =>
    rw [vibrate_of_refusal? hr]
    exact hmore.calm (startsNothing_retire _ s).calm
  | none =>
    rw [vibrate_of_welcome hr]
    have hcalm : Calm s (s.readyFor c v) :=
      (startsNothing_dropNext c .ignoredSuperseded s).calm.trans (.of_eq rfl rfl rfl)
    have hready := hmore.calm hcalm
    have hnone' := (hcalm.streamed v.id).trans hnone
    cases hp : s.current with
    | none =>
      rw [place_of_none hp]
      exact hready.toKeeps.occupy (q := { vibration := v }) (next_readyFor c v s) hnone' hown c
    | some p =>
      rw [place_of_some hp]
      apply Keeps.cancelCurrent
      refine ⟨hready.sent, ?_⟩
      rintro _ ⟨⟩
      exact ⟨hnone', hown⟩

/-- A packet that is kept waits behind the streams of its vibration. -/
theorem Delivers.kept (h : Delivers g s) (hs : s.Settled) {q : Playback} (hq : s.next = some q)
    (packet : Stream) :
    Delivers (fun n => g n ++ if q.id = n then [packet] else [])
      { s with next := some { q with packets := q.packets ++ [packet] } } := by
  obtain ⟨hnone, hstreams⟩ := h.waiting q hq
  refine ⟨⟨fun n => (h.sent n).trans (List.prefix_append _ _), ?_⟩, ?_⟩
  · rintro _ ⟨⟩
    refine ⟨hnone, ?_⟩
    show g q.id ++ (if q.id = q.id then [packet] else []) =
      q.vibration.effect.stream?.toList ++ (q.packets ++ [packet])
    rw [if_pos rfl, hstreams, Playback.streams, List.append_assoc]
  · -- one waits only behind a vibration that has been told to stop
    intro p hp hstopping
    obtain ⟨-, p', hp', hst⟩ := hs.waiting q hq
    cases hp.symm.trans hp'
    rw [hst.stopping] at hstopping
    cases hstopping

/-- A packet that is taken comes behind the stream that plays. -/
theorem Delivers.taken (h : Delivers g s) {p : Playback} (hp : s.Plays p)
    (hf : p.hasStreamInFlight = true) (line : Line σ) (packet : Stream) :
    Delivers (fun n => g n ++ if p.id = n then [packet] else [])
      (s.told line [.stream packet p.id]) := by
  obtain ⟨hgiven, hlaunched⟩ := h.holding p hp.current hp.runs.stopping
  have hstreamed (n : Nat) : (s.told line [.stream packet p.id]).streamed n =
      s.streamed n ++ if p.id = n then [packet] else [] := by
    rw [streamed_told]
    unfold streamsFor Order.streamFor?
    by_cases hid : p.id = n <;> simp [hid]
  refine ⟨⟨fun n => ?_, ?_⟩, ?_⟩
  · rw [hstreamed n]
    by_cases hid : p.id = n
    · subst hid
      simp only [hgiven hf, List.prefix_refl]
    · rw [if_neg hid, List.append_nil, List.append_nil]
      exact h.sent n
  · rw [next_told, hp.next]
    rintro _ ⟨⟩
  · rw [current_told, hp.current]
    rintro _ ⟨⟩ -
    refine ⟨fun _ => ?_, hlaunched⟩
    rw [hstreamed p.id, if_pos rfl, hgiven hf]

/-- **A packet is handed in** for the vibration with whose number it is answered: it waits with it,
or is given at once. -/
theorem Delivers.packet (h : Delivers g s) (hs : s.Settled) (c : Context σ) (packet : Stream) :
    Delivers (fun n => g n ++ if (s.packet c packet).1 = .forwarded n then [packet] else [])
      (s.packet c packet).2 := by
  have hpassed := passed_packet c packet s
  generalize s.packet c packet = answer at hpassed
  cases hpassed with
  | kept hx hq hsender =>
    simp only [PacketFate.forwarded.injEq]
    exact h.kept hs hq packet
  | taken hx hp hst hsender hf ht =>
    simp only [PacketFate.forwarded.injEq]
    exact h.taken (hs.plays hp hst) hf _ packet
  | @refused p x line hx hp hst hsender ht =>
    simp only [reduceCtorEq, if_false, List.append_nil]
    have htold : Keeps g (s.told line []) :=
      h.toKeeps.calm (startsNothing_told line (List.forall_mem_nil _) s).calm
    exact (htold.calm (calm_failCurrent c _)).release c
  | ignored =>
    simp only [reduceCtorEq, if_false, List.append_nil]
    exact h

/-- **An occurrence keeps streams in order**, and adds what it hands in. -/
theorem delivers_undergo (h : Delivers g s) (hs : s.Settled) {o : Occurrence σ}
    (ho : ∀ v ∈ o.asks, Moment.Without v.id ⟨none, s⟩ ∧ g v.id = []) (c : Context σ) :
    Delivers (fun n => g n ++ handing c n s o) (s.undergo c o) := by
  cases o with
  | moved actuator =>
    simp only [handing, List.append_nil]
    exact h.calm (.of_eq rfl rfl rfl)
  | stopped now =>
    simp only [handing, List.append_nil]
    exact h.stopAll { c with now }
  | handled happening =>
    have hquiet (hv : ∀ v, happening.input ≠ .vibrate v)
        (hp : ∀ packet, happening.input ≠ .packet packet) :
        Delivers g (s.undergo c (.handled happening)) := h.step hs (c.during happening) hv hp
    obtain ⟨policy, now, input⟩ := happening
    cases input with
    | vibrate v =>
      obtain ⟨hw, hg⟩ := ho v rfl
      exact h.vibrate hw hg _
    | packet packet => exact h.packet hs _ packet
    | _ =>
      simp only [handing, List.append_nil]
      apply hquiet
      · intro v hv
        cases hv
      · intro packet hp
        cases hp

/-- Nothing has been handed in for a vibration that is asked for later. -/
theorem handing_of_without {o : Occurrence σ} (hn : Moment.Without n ⟨none, s⟩)
    (ho : ∀ v ∈ o.asks, v.id ≠ n) (c : Context σ) : handing c n s o = [] := by
  cases o with
  | moved actuator => rfl
  | stopped now => rfl
  | handled happening =>
    obtain ⟨policy, now, input⟩ := happening
    cases input with
    | vibrate v => exact if_neg (ho v rfl)
    | packet packet =>
      apply if_neg
      intro hfate
      have hpassed := passed_packet (c.during ⟨policy, now, .packet packet⟩) packet s
      generalize s.packet _ packet = answer at hpassed hfate
      cases hpassed with
      | kept hx hq hsender =>
        cases hfate
        exact hn.waiting _ hq rfl
      | taken hx hp hst hsender hf ht =>
        cases hfate
        have hstopping := hn.holding _ hp rfl
        rw [hst] at hstopping
        cases hstopping
      | refused hx hp hst hsender ht => cases hfate
      | ignored => cases hfate
    | _ => rfl

/-- **A course keeps streams in order**, and adds what it hands in. -/
theorem delivers_undergoAll (h : Delivers g s) (hs : s.Settled) {os : List (Occurrence σ)}
    (hp : Proper os) (ho : ∀ v ∈ asked os, Moment.Without v.id ⟨none, s⟩ ∧ g v.id = [])
    (c : Context σ) : Delivers (fun n => g n ++ handed c n os s) (s.undergoAll c os) := by
  induction os generalizing s g with
  | nil =>
    simp only [handed, List.append_nil]
    exact h
  | cons o rest ih =>
    obtain ⟨hnew, hrest⟩ := isNew_of_cons hp.new
    have hfresh := hp.fresh
    rw [asked_cons] at ho hfresh
    rw [List.map_append] at hfresh
    obtain ⟨-, hlater, hdisjoint⟩ := List.nodup_append.1 hfresh
    have hfirst : Delivers (fun n => g n ++ handing c n s o) (s.undergo c o) := by
      refine delivers_undergo h hs (fun v hv => ?_) c
      exact ho v (List.mem_append_left _ (Option.mem_toList.2 hv))
    have hundergone := (undergo_spec (c := c) hs hnew).2
    simp only [handed, ← List.append_assoc]
    refine ih hfirst hundergone ⟨hrest, hlater⟩ fun v hv => ?_
    obtain ⟨hw, hg⟩ := ho v (List.mem_append_right _ hv)
    have hne : ∀ w ∈ o.asks, w.id ≠ v.id := fun w hw' =>
      hdisjoint _ (List.mem_map_of_mem (Option.mem_toList.2 hw')) _ (List.mem_map_of_mem hv)
    refine ⟨without_undergo hs hnew hne hw, ?_⟩
    rw [hg, handing_of_without hw hne c, List.append_nil]

/-- **Streams are delivered in order**, in every state of every course: what the actuator has taken
for a vibration is a first part of what has been handed in for it. -/
theorem streamed_prefix_handed (c : Context σ) (actuator : σ) {os : List (Occurrence σ)}
    (h : Proper os) (n : Nat) :
    (after c actuator os).streamed n <+: handed c n os (create c.config actuator) := by
  have hstart : Delivers (fun _ => []) (create c.config actuator) := by
    refine ⟨⟨fun n => List.nil_prefix, ?_⟩, ?_⟩
    · rintro _ ⟨⟩
    · rintro _ ⟨⟩
  have hcourse := delivers_undergoAll hstart (settled_create c.config actuator) h
    (fun v _ => ⟨⟨by simp, by simp [create], by simp [create]⟩, rfl⟩) c
  exact hcourse.sent n

end handed

end Haptics.Scheduler
