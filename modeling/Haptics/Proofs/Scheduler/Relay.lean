import Haptics.Proofs.Scheduler.Delivery

/-!
# One client's streams among those of others

A client asks for a vibration with the first stream of a list and passes the others on as packets.
What the others bring (`Occurrence.brings`) is told apart by a property that the client's streams
need not have: none of the others' streams is of the transmission that the first of the list opens.
Then they do not get into each other's way (`Relays`): under the number of the client's vibration
its streams are handed in, in order, and nothing else; under other numbers only what the others
bring.

* `exists_asked_of_forwarded`: a packet is forwarded to a vibration of its own transmission.
* `Relays.concat`: what an occurrence hands in.
* `Relays.others`, `Relays.request`, `Relays.packet`: the three kinds of occurrences.
* `Relays.streamed_prefix_own`, `Relays.foreign_of_streamed`: what the actuator has been given.
-/

namespace Haptics

variable {σ : Type}

namespace Occurrence

/-- The streams that an occurrence brings: one with a request, or a packet. -/
def brings : Occurrence σ → List Stream
  | handled { input := .vibrate v, .. } => v.effect.stream?.toList
  | handled { input := .packet packet, .. } => [packet]
  | _ => []

variable {os : List (Occurrence σ)} {o : Occurrence σ}

/-- A course stays proper when nothing more is asked for. -/
theorem Proper.concat_of_none (h : Proper os) (ho : o.asks = none) : Proper (os ++ [o]) where
  new := by
    rw [asked_concat, ho, Option.toList_none, List.append_nil]
    exact h.new
  fresh := by
    rw [asked_concat, ho, Option.toList_none, List.append_nil]
    exact h.fresh

/-- A course stays proper when a new vibration is asked for under a new number. -/
theorem Proper.concat_of_some (h : Proper os) {v : Vibration} (ho : o.asks = some v) (hv : v.IsNew)
    (hid : ∀ w ∈ asked os, w.id ≠ v.id) : Proper (os ++ [o]) where
  new := by
    rw [asked_concat, ho]
    intro w hw
    rcases List.mem_append.1 hw with hw | hw
    · exact h.new w hw
    · rwa [List.mem_singleton.1 hw]
  fresh := by
    rw [asked_concat, ho, List.map_append]
    refine h.fresh.append (List.nodup_singleton _) ?_
    intro n hn hn'
    obtain ⟨w, hw, rfl⟩ := List.mem_map.1 hn
    exact hid w hw (List.mem_singleton.1 hn')

end Occurrence

/-- An effect is of the transmission of its stream. -/
theorem Effect.sender?_eq_some_iff {e : Effect} {x : SenderId} :
    e.sender? = some x ↔ ∃ st ∈ e.stream?, st.sender? = some x := by
  cases e <;> simp [sender?, stream?]

/-- A new vibration is of the transmission of its effect. -/
theorem Vibration.IsNew.sender_eq {v : Vibration} (h : v.IsNew) : v.sender = v.effect.sender? := by
  obtain ⟨r, hr⟩ := h
  rw [hr]
  rfl

namespace Scheduler

open Occurrence

variable {c : Context σ} {actuator : σ} {os : List (Occurrence σ)} {o : Occurrence σ}

/-- What is handed in has been brought. -/
theorem mem_brings_of_handing {n : Nat} {s : Scheduler σ} {st : Stream}
    (h : st ∈ handing c n s o) : st ∈ o.brings := by
  cases o with
  | moved actuator => cases h
  | stopped now => cases h
  | handled happening =>
    obtain ⟨policy, now, input⟩ := happening
    cases input with
    | vibrate v =>
      by_cases hid : v.id = n
      · rwa [handing, if_pos hid] at h
      · rw [handing, if_neg hid] at h
        cases h
    | packet packet =>
      rw [handing] at h
      by_cases hf : (s.packet (c.during ⟨policy, now, .packet packet⟩) packet).1 = .forwarded n
      · rwa [if_pos hf] at h
      · rw [if_neg hf] at h
        cases h
    | _ => cases h

/-- **A packet is forwarded to a vibration of its own transmission**, which has been asked for with
a stream of that transmission. -/
theorem exists_asked_of_forwarded (hp : Proper os) {c' : Context σ} {packet : Stream} {n : Nat}
    (h : ((after c actuator os).packet c' packet).1 = .forwarded n) :
    ∃ v ∈ asked os, v.id = n ∧
      ∃ st ∈ v.effect.stream?, ∃ x, st.sender? = some x ∧ packet.sender? = some x := by
  have hs : (after c actuator os).Settled := settled_after c actuator hp.new
  have hlive : ∃ p, (after c actuator os).IsLive p ∧ p.id = n ∧
      ∃ x, p.vibration.sender = some x ∧ packet.sender? = some x := by
    have hpassed := passed_packet c' packet (after c actuator os)
    generalize (after c actuator os).packet c' packet = answer at h hpassed
    cases hpassed with
    | kept hx hq hsender =>
      cases h
      exact ⟨_, hs.isLive_of_next hq, rfl, _, hsender, hx⟩
    | taken hx hp hst hsender hf ht =>
      cases h
      exact ⟨_, (hs.plays hp hst).isLive, rfl, _, hsender, hx⟩
    | refused hx hp hst hsender ht => cases h
    | ignored => cases h
  obtain ⟨p, hl, rfl, x, hpx, hx⟩ := hlive
  obtain ⟨v, hv, hbecomes⟩ := (renews_after c actuator hp.new).exists_became hl.mem_vibrations
  have hvx : v.effect.sender? = some x := by
    rw [← (hp.new v hv).sender_eq, ← hbecomes.sender_eq]
    exact hpx
  obtain ⟨st, hst, hstx⟩ := Effect.sender?_eq_some_iff.1 hvx
  exact ⟨v, hv, hbecomes.id_eq, st, hst, x, hstx, hx⟩

/-- In a course, a client's streams and those of others (`P`) are handed in under different numbers:
under `id`, which is asked for with the stream `first` if it is asked for at all, what the client
has handed in so far; under the others what is of the others. -/
structure Relays (c : Context σ) (actuator : σ) (P : Stream → Prop) (id : Nat) (first : Stream)
    (own : List Stream) (os : List (Occurrence σ)) : Prop where
  proper : Proper os
  request : ∀ v ∈ asked os, v.id = id → v.effect = .stream first
  requests : ∀ v ∈ asked os, v.id ≠ id → ∀ st ∈ v.effect.stream?, P st
  mine : handed c id os (create c.config actuator) = own
  foreign : ∀ n, n ≠ id → ∀ st ∈ handed c n os (create c.config actuator), P st

/-- None of certain streams is of the transmission that a stream opens. -/
def Apart (P : Stream → Prop) (first : Stream) : Prop :=
  ∀ st, P st → ∀ x, st.sender? = some x → first.sender? ≠ some x

section relays

variable {P : Stream → Prop} {id : Nat} {first : Stream} {own : List Stream}

/-- Before anything has occurred nothing is handed in. -/
theorem relays_nil : Relays c actuator P id first [] [] where
  proper := ⟨fun v hv => (by cases hv), List.nodup_nil⟩
  request v hv := by cases hv
  requests v hv := by cases hv
  mine := rfl
  foreign n hn st hst := by cases hst

/-- What the last occurrence hands in comes last. -/
theorem handed_concat (n : Nat) (os : List (Occurrence σ)) (o : Occurrence σ) :
    handed c n (os ++ [o]) (create c.config actuator) =
      handed c n os (create c.config actuator) ++ handing c n (after c actuator os) o := by
  rw [handed_append, handed, handed, List.append_nil]
  rfl

/-- **An occurrence hands in** the client's streams behind those before, and the others' under other
numbers. -/
theorem Relays.concat (h : Relays c actuator P id first own os) (hp : Proper (os ++ [o]))
    (hid : ∀ v ∈ o.asks, v.id = id → v.effect = .stream first)
    (hne : ∀ v ∈ o.asks, v.id ≠ id → ∀ st ∈ v.effect.stream?, P st)
    (hf : ∀ n, n ≠ id → ∀ st ∈ handing c n (after c actuator os) o, P st) :
    Relays c actuator P id first (own ++ handing c id (after c actuator os) o) (os ++ [o]) where
  proper := hp
  request := by
    intro v hv
    rw [asked_concat, List.mem_append, Option.mem_toList] at hv
    exact hv.elim (h.request v) (hid v)
  requests := by
    intro v hv
    rw [asked_concat, List.mem_append, Option.mem_toList] at hv
    exact hv.elim (h.requests v) (hne v)
  mine := by rw [handed_concat, h.mine]
  foreign := by
    intro n hn st hst
    rw [handed_concat, List.mem_append] at hst
    exact hst.elim (h.foreign n hn st) (hf n hn st)

/-- What the others do hands nothing in for the client. -/
theorem Relays.others (h : Relays c actuator P id first own os) (ha : Apart P first)
    (hp : Proper (os ++ [o])) (hb : ∀ st ∈ o.brings, P st) (hid : ∀ v ∈ o.asks, v.id ≠ id) :
    Relays c actuator P id first own (os ++ [o]) := by
  have hnothing : handing c id (after c actuator os) o = [] := by
    cases o with
    | moved actuator => rfl
    | stopped now => rfl
    | handled happening =>
      obtain ⟨policy, now, input⟩ := happening
      cases input with
      | vibrate v => exact if_neg (hid v rfl)
      | packet packet =>
        -- a packet for the client's vibration would be of its transmission
        apply if_neg
        intro hforwarded
        obtain ⟨v, hv, hvid, st, hst, x, hstx, hx⟩ := exists_asked_of_forwarded h.proper hforwarded
        rw [h.request v hv hvid] at hst
        cases hst
        exact ha packet (hb packet List.mem_cons_self) x hx hstx
      | _ => rfl
  have hconcat := h.concat hp (fun v hv he => absurd he (hid v hv)) ?_ ?_
  · rwa [hnothing, List.append_nil] at hconcat
  · intro v hv hne st hst
    obtain ⟨policy, now, rfl⟩ := Occurrence.eq_of_asks hv
    exact hb st (Option.mem_toList.2 hst)
  · intro n hn st hst
    exact hb st (mem_brings_of_handing hst)

/-- The client asks for its vibration. -/
theorem Relays.request_first (h : Relays c actuator P id first [] os) {policy : Policy} {now : Nat}
    {v : Vibration} (hp : Proper (os ++ [.handled ⟨policy, now, .vibrate v⟩])) (hid : v.id = id)
    (hv : v.effect = .stream first) :
    Relays c actuator P id first [first] (os ++ [.handled ⟨policy, now, .vibrate v⟩]) := by
  have hconcat := h.concat hp ?_ ?_ ?_
  · have hhanding : handing c id (after c actuator os) (.handled ⟨policy, now, .vibrate v⟩) =
        [first] := by
      rw [handing, if_pos hid, hv]
      rfl
    rwa [hhanding, List.nil_append] at hconcat
  · rintro _ ⟨⟩ -
    exact hv
  · rintro _ ⟨⟩ hne
    exact absurd hid hne
  · intro n hn st hst
    rw [handing, if_neg (hid.trans_ne hn.symm)] at hst
    cases hst

/-- A packet of the client is not forwarded to anybody else. -/
theorem Relays.eq_of_forwarded (h : Relays c actuator P id first own os) (ha : Apart P first)
    {packet : Stream} (hx : ∀ x, packet.sender? = some x → first.sender? = some x)
    {c' : Context σ} {n : Nat}
    (hf : ((after c actuator os).packet c' packet).1 = .forwarded n) : n = id := by
  obtain ⟨v, hv, rfl, st, hst, x, hstx, hpx⟩ := exists_asked_of_forwarded h.proper hf
  -- whoever else has been asked for came with a stream of another transmission
  by_contra hne
  exact ha st (h.requests v hv hne st hst) x hstx (hx x hpx)

/-- The client passes a packet on, which is handed in for its vibration or dropped. -/
theorem Relays.packet (h : Relays c actuator P id first own os) (ha : Apart P first)
    {packet : Stream} (hx : ∀ x, packet.sender? = some x → first.sender? = some x)
    (happening : Happening) (hi : happening.input = .packet packet) :
    Relays c actuator P id first
      (own ++ if ((after c actuator os).packet (c.during happening) packet).1 = .forwarded id
        then [packet] else [])
      (os ++ [.handled happening]) := by
  obtain ⟨policy, now, input⟩ := happening
  obtain rfl : input = .packet packet := hi
  refine h.concat (o := .handled ⟨policy, now, .packet packet⟩) ?_ ?_ ?_ ?_
  · exact h.proper.concat_of_none rfl
  · rintro _ ⟨⟩
  · rintro _ ⟨⟩
  · intro n hn st hst
    have hdropped : handing c n (after c actuator os) (.handled ⟨policy, now, .packet packet⟩) =
        [] := by
      apply if_neg
      intro hf
      exact hn (h.eq_of_forwarded ha hx hf)
    rw [hdropped] at hst
    cases hst

/-- **The client's streams are given in order**, as far as they are given. -/
theorem Relays.streamed_prefix_own (h : Relays c actuator P id first own os) :
    (after c actuator os).streamed id <+: own := by
  rw [← h.mine]
  exact streamed_prefix_handed c actuator h.proper id

/-- **Under other numbers only the others' streams are given.** -/
theorem Relays.foreign_of_streamed (h : Relays c actuator P id first own os) {n : Nat}
    (hn : n ≠ id) {st : Stream} (hst : st ∈ (after c actuator os).streamed n) : P st :=
  h.foreign n hn st ((streamed_prefix_handed c actuator h.proper n).subset hst)

end relays

end Scheduler

end Haptics
