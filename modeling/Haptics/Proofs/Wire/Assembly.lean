import Haptics.Proofs.Wire.Transmission

/-!
# What can be put together

Buffers of words may come from anywhere: they need not be packets, packets of several transmissions
may be mixed, announce different totals, overlap, come twice or be empty. `Transmission.assemble`
reads them one after another and gives up at the first that does not fit to those before, so which
fault it names depends on their order. Whether there is a fault does not: buffers are put together
exactly when they are *complete* (`Complete`), and that is said without any order.

* `belongs_of_assemble`: what can be put together is of one transmission.
* `complete_of_assemble`: it is complete.
* `assemble_eq_ok_iff`: the whole.
-/

namespace Haptics.Transmission

/-- **Buffers are the complete transmission of a set**: there are some, each is a packet of the
sender that announces as many patterns as the set has, and the patterns in all of them together,
each behind its index, are those of the set numbered from zero, in some order. -/
structure Complete (buffers : List (List Word)) (sender : SenderId) (set : PatternSet) : Prop where
  some_buffer : buffers ≠ []
  belongs : ∀ words ∈ buffers, Belongs sender set.patterns.length words
  patterns : (buffers.flatMap contents).Perm (Packet.numbered 0 set.patterns)

/-- A transmission is complete in whatever order its packets come. -/
theorem Complete.of_perm {shuffled buffers : List (List Word)} {sender : SenderId}
    {set : PatternSet} (hp : shuffled.Perm buffers) (h : Complete buffers sender set) :
    Complete shuffled sender set where
  some_buffer := by
    rintro rfl
    exact h.some_buffer hp.nil_eq.symm
  belongs words hw := h.belongs words (hp.mem_iff.1 hw)
  patterns := (hp.flatMap_right contents).trans h.patterns

/-! ## One transmission -/

section gathering

variable {sender : SenderId} {total : Nat} {words : List Word} {g g' : Gathered}

/-- A buffer that is taken is a packet of the transmission that is announced from then on. -/
theorem belongs_of_add (h : g.add words = .ok g') :
    ∃ sender total, g'.announced = some (sender, total) ∧ Belongs sender total words := by
  obtain ⟨packet, hd, h⟩ := bind_eq_ok_iff.1 h
  have hbelongs : Belongs packet.header.sender packet.header.total.toNat words :=
    ⟨packet, hd, rfl, rfl⟩
  cases hg : g.announced with
  | none =>
    simp only [hg, pure, Except.pure, Except.ok.injEq] at h
    exact ⟨_, _, by rw [← h], hbelongs⟩
  | some first =>
    obtain ⟨sender, total⟩ := first
    simp only [hg] at h
    split at h
    · cases h
    · next hs =>
      split at h
      · cases h
      · next ht =>
        rw [Decidable.not_not] at hs ht
        simp only [pure, Except.pure, Except.ok.injEq] at h
        rw [← hs, ← ht] at hbelongs
        exact ⟨sender, total, by rw [← h], hbelongs⟩

/-- What has been announced is not taken back. -/
theorem announced_of_add (h : g.add words = .ok g') (hg : g.announced = some (sender, total)) :
    g'.announced = some (sender, total) := by
  obtain ⟨packet, -, h⟩ := bind_eq_ok_iff.1 h
  simp only [hg] at h
  split at h
  · cases h
  · split at h
    · cases h
    · simp only [pure, Except.pure, Except.ok.injEq] at h
      rw [← h]

/-- Buffers that are taken behind others are packets of the transmission that those announced. -/
theorem belongs_of_foldlM {buffers : List (List Word)}
    (h : buffers.foldlM Gathered.add g = .ok g') (hg : g.announced = some (sender, total)) :
    ∀ words ∈ buffers, Belongs sender total words := by
  induction buffers generalizing g with
  | nil => exact fun words hw => absurd hw List.not_mem_nil
  | cons first rest ih =>
    rw [List.foldlM_cons] at h
    obtain ⟨g₁, hfirst, hrest⟩ := bind_eq_ok_iff.1 h
    have hg₁ := announced_of_add hfirst hg
    refine List.forall_mem_cons.2 ⟨?_, ih hrest hg₁⟩
    obtain ⟨sender', total', hannounced, hbelongs⟩ := belongs_of_add hfirst
    cases hannounced.symm.trans hg₁
    exact hbelongs

end gathering

section assemble

variable {buffers : List (List Word)} {sender : SenderId} {set : PatternSet}

/-- **What can be put together is of one transmission.** -/
theorem belongs_of_assemble {result : SenderId × PatternSet} (h : assemble buffers = .ok result) :
    buffers ≠ [] ∧ ∃ sender total, ∀ words ∈ buffers, Belongs sender total words := by
  obtain ⟨gathered, hgathered, -⟩ := bind_eq_ok_iff.1 h
  cases buffers with
  | nil => cases h
  | cons first rest =>
    refine ⟨List.cons_ne_nil _ _, ?_⟩
    rw [List.foldlM_cons] at hgathered
    obtain ⟨g₁, hfirst, hrest⟩ := bind_eq_ok_iff.1 hgathered
    obtain ⟨sender, total, hannounced, hbelongs⟩ := belongs_of_add hfirst
    exact ⟨sender, total, List.forall_mem_cons.2 ⟨hbelongs, belongs_of_foldlM hrest hannounced⟩⟩

/-- Patterns whose indices count up are the numbered ones. -/
theorem numbered_of_range {first : Nat} {patterns : List (Nat × Pattern)}
    (h : patterns.map (·.1) = List.range' first patterns.length) :
    Packet.numbered first (patterns.map (·.2)) = patterns := by
  induction patterns generalizing first with
  | nil => rfl
  | cons p rest ih =>
    rw [List.map_cons, List.length_cons, List.range'_succ, List.cons.injEq] at h
    rw [List.map_cons, Packet.numbered_cons, ih h.2, ← h.1]

/-- **What can be put together is complete.** -/
theorem complete_of_assemble (h : assemble buffers = .ok (sender, set)) :
    Complete buffers sender set := by
  obtain ⟨hne, sender', total, hbelongs⟩ := belongs_of_assemble h
  rw [assemble_eq hne hbelongs] at h
  split at h
  · cases h
  · next hlength =>
    rw [Decidable.not_not] at hlength
    obtain ⟨⟨⟩, hplaces, hresult⟩ := bind_eq_ok_iff.1 h
    cases hresult
    have hrange : (ordered buffers).map (·.1) = List.range' 0 (ordered buffers).length := by
      by_contra hno
      obtain ⟨cause, hc⟩ := checkPlaces_of_not_range hno
      cases hplaces.symm.trans hc
    refine ⟨hne, fun words hw => ?_, ?_⟩
    · rw [List.length_map, hlength]
      exact hbelongs words hw
    · rw [numbered_of_range hrange]
      exact ordered_perm.symm

/-- What is complete can be put together. -/
theorem assemble_of_complete (h : Complete buffers sender set) :
    assemble buffers = .ok (sender, set) :=
  assemble_of_perm h.some_buffer h.belongs rfl h.patterns

end assemble

/-- **Buffers are put together exactly when they are a complete transmission.** Whatever words come
in whatever buffers, the result is a sender and a set exactly when there are buffers, all of them
are packets of that sender that announce as many patterns as the set has, and the patterns in all of
them together are those of the set, each behind its own index. So the order of the buffers does not
matter: it makes no result another one, no result a failure, and no failure a result. -/
theorem assemble_eq_ok_iff (buffers : List (List Word)) :
    (∀ sender set, assemble buffers = .ok (sender, set) ↔ Complete buffers sender set) ∧
    ∀ shuffled : List (List Word), shuffled.Perm buffers →
      ∀ result, assemble shuffled = .ok result ↔ assemble buffers = .ok result := by
  have hiff (buffers : List (List Word)) (sender : SenderId) (set : PatternSet) :
      assemble buffers = .ok (sender, set) ↔ Complete buffers sender set :=
    ⟨complete_of_assemble, assemble_of_complete⟩
  refine ⟨hiff buffers, ?_⟩
  rintro shuffled hp ⟨sender, set⟩
  rw [hiff shuffled, hiff buffers]
  exact ⟨.of_perm hp.symm, .of_perm hp⟩

/-- A packet of the transmission `7:1` of a single tap that carries nothing. -/
def idlePacket : List Word := [packetTag, 2, 7, 1, 1]

/-- The packet of that transmission that carries the tap. -/
def tapPacket : List Word :=
  Packet.encode (header ⟨7, 1⟩ 1 1) 0 (taps 1).patterns

/-- Packets without patterns do no harm, wherever they stand and however often they come; without
the packet that carries the tap they are not complete. -/
theorem assemble_eq_ok_iff_idle :
    assemble [idlePacket, tapPacket, idlePacket] = .ok (⟨7, 1⟩, taps 1) ∧
      assemble [tapPacket, idlePacket, idlePacket] = .ok (⟨7, 1⟩, taps 1) ∧
      ∀ result, assemble [idlePacket, idlePacket] ≠ .ok result := by
  have hidle : Packet.decode idlePacket = .ok ⟨⟨.two, ⟨7, 1⟩, 1, 0⟩, []⟩ := by rfl
  have htap : Packet.decode tapPacket =
      .ok ⟨⟨.two, ⟨7, 1⟩, 1, 1⟩, Packet.numbered 0 (taps 1).patterns⟩ := by rfl
  have hcomplete : Complete [idlePacket, tapPacket, idlePacket] ⟨7, 1⟩ (taps 1) := by
    refine ⟨List.cons_ne_nil _ _, ?_, ?_⟩
    · simp only [List.mem_cons, List.not_mem_nil, or_false]
      rintro words (rfl | rfl | rfl)
      · exact ⟨_, hidle, rfl, rfl⟩
      · exact ⟨_, htap, rfl, rfl⟩
      · exact ⟨_, hidle, rfl, rfl⟩
    · simp [contents, hidle, htap]
  obtain ⟨hiff, horder⟩ := assemble_eq_ok_iff [idlePacket, tapPacket, idlePacket]
  have hok := (hiff _ _).2 hcomplete
  refine ⟨hok, (horder _ (List.Perm.swap _ _ _) _).2 hok, ?_⟩
  rintro ⟨sender, set⟩ hresult
  obtain ⟨-, hbelongs, hpatterns⟩ := ((assemble_eq_ok_iff [idlePacket, idlePacket]).1 _ _).1 hresult
  obtain ⟨packet, hd, -, htotal⟩ := hbelongs idlePacket List.mem_cons_self
  cases hidle.symm.trans hd
  have hlength := hpatterns.length_eq
  simp [contents, hidle, ← htotal] at hlength

end Haptics.Transmission
