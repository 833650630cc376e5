import Haptics.Proofs.Document.Strict
import Haptics.Proofs.Wire.Packet
import Haptics.Wire.Transmission
import Mathlib.Data.List.Nodup

/-!
# A set is put together from its packets

The packets of a set carry its patterns ten by ten, each pattern behind its index in the set. What
is put together from packets depends on nothing but the patterns that are in them: the packets may
come in any order, and if one of them is missing or comes twice, then so does an index, which the
last check finds.

* `flatMap_numbered_pages`: the patterns in all packets, in order, are those of the set.
* `assemble_of_perm`, `assemble_of_not_perm`: what is put together, and when it fails.
* `assemble_paginate`: the packets of a set give the set, in any order, and no other choice of them
  does.
-/

namespace Haptics

/-- **A set that can be sent**: the number of its patterns fits in a header, and the patterns fit in
packets. -/
structure PatternSet.Sendable (s : PatternSet) : Prop where
  count : 1 ≤ s.patterns.length ∧ s.patterns.length ≤ 65535
  fits : ∀ p ∈ s.patterns, p.Fits

/-! ## What the rules let pass can be sent -/

/-- The curve of a sound event has a place in a packet. -/
theorem SoundEvent.pointCount_drawn {raw : RawEvent} (h : SoundEvent raw) :
    raw.drawn.pointCount ≤ Rules.maxPoints := by
  rcases (soundEvent_iff.1 h).2 with ht | ⟨hk, d, curve, hd, hc, -, ⟨-, hlen⟩, -⟩
  · rw [RawEvent.drawn_of_tap ht]
    exact Nat.zero_le _
  · rw [RawEvent.drawn_of_lasting hk hd hc, Event.pointCount, List.length_map]
    exact hlen

/-- So does a sound pattern. -/
theorem SoundPattern.fits_drawn {raw : RawPattern} (h : SoundPattern raw) : raw.drawn.Fits := by
  refine ⟨?_, fun e he => ?_⟩
  · simpa [RawPattern.drawn, Rules.maxEvents] using h.count
  · obtain ⟨r, hr, rfl⟩ := List.mem_map.1 he
    exact (h.events r hr).pointCount_drawn

/-- **A sound document can be sent.** -/
theorem SoundDocument.sendable {patterns : List RawPattern} (h : SoundDocument patterns) :
    PatternSet.Sendable { patterns := patterns.map RawPattern.drawn } := by
  refine ⟨?_, fun p hp => ?_⟩
  · simpa using h.count
  · obtain ⟨r, hr, rfl⟩ := List.mem_map.1 hp
    exact (h.sound r hr).fits_drawn

/-- Every set that comes of a document can be sent. -/
theorem RawDocument.sendable_of_validate {raw : RawDocument} {set : PatternSet}
    (h : raw.validate = .ok (.v2 set)) : set.Sendable := by
  simp only [validate, bind_eq_ok_iff] at h
  obtain ⟨v, -, h⟩ := h
  cases v with
  | one => cases hp : raw.pattern <;> simp [hp, bind_eq_ok_iff, pure, Except.pure] at h
  | two =>
    cases hl : raw.patternList with
    | none => simp [hl] at h
    | some patterns =>
      simp only [hl, bind_eq_ok_iff, Rules.strict_eq_ok_iff, pure, Except.pure, Except.ok.injEq,
        HapticDocument.v2.injEq] at h
      obtain ⟨_, ⟨hs, rfl⟩, rfl⟩ := h
      exact hs.sendable

namespace Transmission

/-! ## Pages -/

section pages

variable {α : Type} {size : Nat}

/-- A page is what stands at its place, and it is not empty. -/
theorem getElem?_pages (hs : size ≠ 0) {place : Nat} {items page : List α}
    (h : (pages size items)[place]? = some page) :
    page = (items.drop (place * size)).take size ∧ page ≠ [] := by
  induction place generalizing items with
  | zero =>
    by_cases hi : items = []
    · simp [hi] at h
    · rw [pages_of_ne_nil hs hi, List.getElem?_cons_zero, Option.some.injEq] at h
      subst h
      simp [hs, hi]
  | succ place ih =>
    by_cases hi : items = []
    · simp [hi] at h
    · rw [pages_of_ne_nil hs hi, List.getElem?_cons_succ] at h
      have hdrop : size + place * size = (place + 1) * size := by
        rw [Nat.succ_mul, Nat.add_comm]
      simpa only [List.drop_drop, hdrop] using ih h

/-- A page has at most `size` items, and all of them are items of the list at its place. -/
theorem length_page_le (hs : size ≠ 0) {place : Nat} {items page : List α}
    (h : (pages size items)[place]? = some page) :
    0 < page.length ∧ page.length ≤ size ∧ place * size + page.length ≤ items.length := by
  obtain ⟨rfl, hne⟩ := getElem?_pages hs h
  have hpos := List.length_pos_iff.2 hne
  rw [List.length_take, List.length_drop] at hpos ⊢
  omega

/-- There are as many pages as it takes to hold all items. -/
theorem length_pages (hs : size ≠ 0) (items : List α) :
    (pages size items).length = (items.length + (size - 1)) / size := by
  have hpos : 0 < size := Nat.pos_of_ne_zero hs
  fun_induction pages size items with
  | case1 items h =>
    rw [h.resolve_right hs, List.length_nil, List.length_nil, Nat.zero_add,
      Nat.div_eq_of_lt (by omega)]
  | case2 items h ih =>
    have hitems : 0 < items.length := List.length_pos_iff.2 fun he => h (.inl he)
    rw [List.length_cons, ih, List.length_drop]
    by_cases hle : size ≤ items.length
    · have hmore : items.length + (size - 1) = items.length - size + (size - 1) + size := by omega
      rw [hmore, Nat.add_div_right _ hpos]
    · -- a page that is not full is the last one
      have hlast : items.length + (size - 1) = items.length - 1 + size := by omega
      rw [hlast, Nat.add_div_right _ hpos, Nat.div_eq_of_lt (by omega), Nat.div_eq_of_lt (by omega)]

/-- **The patterns of all pages, numbered page by page, are numbered as they stand in the list.** -/
theorem flatMap_numbered_pages (hs : size ≠ 0) (first : Nat) (items : List Pattern) :
    ((pages size items).zipIdx first).flatMap (fun q => Packet.numbered (q.2 * size) q.1) =
      Packet.numbered (first * size) items := by
  induction hn : items.length using Nat.strong_induction_on generalizing first items with
  | _ n ih =>
    by_cases hi : items = []
    · simp [hi]
    · have hpos : 0 < items.length := List.length_pos_iff.2 hi
      have hrest := ih (items.drop size).length (by rw [List.length_drop]; omega) (first + 1)
        (items.drop size) rfl
      rw [pages_of_ne_nil hs hi, List.zipIdx_cons, List.flatMap_cons, hrest]
      conv_rhs => rw [← List.take_append_drop size items, Packet.numbered_append]
      congr 1
      -- a page that is not full is the last one
      by_cases hle : size ≤ items.length
      · rw [List.length_take, Nat.min_eq_left hle, Nat.succ_mul]
      · have hd : items.drop size = [] := List.drop_eq_nil_of_le (by omega)
        rw [hd, Packet.numbered_nil, Packet.numbered_nil]

end pages

/-! ## What packets hold together -/

/-- The patterns in a packet; none if the words are not a packet. -/
def contents (words : List Word) : List (Nat × Pattern) :=
  match Packet.decode words with
  | .ok packet => packet.patterns
  | .error _ => []

/-- The words are a packet of a transmission of `total` patterns. -/
def Belongs (sender : SenderId) (total : Nat) (words : List Word) : Prop :=
  ∃ packet, Packet.decode words = .ok packet ∧ packet.header.sender = sender ∧
    packet.header.total.toNat = total

/-- The patterns of some packets in the order of their indices. -/
def ordered (packets : List (List Word)) : List (Nat × Pattern) :=
  (packets.flatMap contents).mergeSort fun a b => a.1 ≤ b.1

section gathering

variable {sender : SenderId} {total : Nat}

/-- A packet of the transmission that has been announced adds its patterns. -/
theorem add_of_announced {words : List Word} (h : Belongs sender total words) (g : Gathered)
    (hg : g.announced = some (sender, total)) :
    g.add words = .ok { g with pieces := contents words :: g.pieces } := by
  obtain ⟨packet, hd, hs, ht⟩ := h
  simp [Gathered.add, contents, hd, hg, hs, ht, bind, Except.bind, pure, Except.pure]

/-- So do packets in turn. -/
theorem foldlM_add_of_announced {packets : List (List Word)}
    (h : ∀ w ∈ packets, Belongs sender total w) (g : Gathered)
    (hg : g.announced = some (sender, total)) :
    packets.foldlM Gathered.add g =
      .ok { g with pieces := (packets.map contents).reverse ++ g.pieces } := by
  induction packets generalizing g with
  | nil => rfl
  | cons w rest ih =>
    obtain ⟨hw, hrest⟩ := List.forall_mem_cons.1 h
    rw [List.foldlM_cons, add_of_announced hw g hg]
    have hnext := ih hrest { g with pieces := contents w :: g.pieces } hg
    simpa [bind, Except.bind] using hnext

/-- The first packet announces the transmission, and the others agree with it. -/
theorem foldlM_add {packets : List (List Word)} (hne : packets ≠ [])
    (h : ∀ w ∈ packets, Belongs sender total w) :
    packets.foldlM Gathered.add {} =
      .ok { announced := some (sender, total), pieces := (packets.map contents).reverse } := by
  cases packets with
  | nil => exact absurd rfl hne
  | cons w rest =>
    obtain ⟨⟨packet, hd, hs, ht⟩, hrest⟩ := List.forall_mem_cons.1 h
    have hfirst : Gathered.add {} w =
        .ok { announced := some (sender, total), pieces := [contents w] } := by
      simp [Gathered.add, contents, hd, hs, ht, bind, Except.bind, pure, Except.pure]
    rw [List.foldlM_cons, hfirst]
    have hnext := foldlM_add_of_announced hrest
      { announced := some (sender, total), pieces := [contents w] } rfl
    simpa [bind, Except.bind] using hnext

/-- What is put together from packets of one transmission. -/
theorem assemble_eq {packets : List (List Word)} (hne : packets ≠ [])
    (h : ∀ w ∈ packets, Belongs sender total w) :
    assemble packets =
      if (ordered packets).length ≠ total then
        .error (.disordered (.patternTotal total (ordered packets).length))
      else do
        checkPlaces 0 (ordered packets)
        return (sender, { patterns := (ordered packets).map (·.2) }) := by
  unfold assemble
  rw [foldlM_add hne h]
  simp only [bind, Except.bind, Gathered.patterns, List.reverse_reverse, ← List.flatMap_def]
  rfl

end gathering

/-! ## The last check -/

/-- Indices that are a range pass the last check. -/
theorem checkPlaces_of_range {first : Nat} {patterns : List (Nat × Pattern)}
    (h : patterns.map (·.1) = List.range' first patterns.length) :
    checkPlaces first patterns = .ok () := by
  induction patterns generalizing first with
  | nil => rfl
  | cons p rest ih =>
    rw [List.map_cons, List.length_cons, List.range'_succ, List.cons.injEq] at h
    rw [checkPlaces, if_pos h.1, ih h.2]

/-- Indices that are not do not. -/
theorem checkPlaces_of_not_range {first : Nat} {patterns : List (Nat × Pattern)}
    (h : patterns.map (·.1) ≠ List.range' first patterns.length) :
    ∃ cause, checkPlaces first patterns = .error (.disordered cause) := by
  induction patterns generalizing first with
  | nil => exact absurd rfl h
  | cons p rest ih =>
    rw [List.map_cons, List.length_cons, List.range'_succ, ne_eq, List.cons.injEq] at h
    by_cases hp : p.1 = first
    · obtain ⟨cause, hc⟩ := ih fun hr => h ⟨hp, hr⟩
      exact ⟨cause, by rw [checkPlaces, if_pos hp, hc]⟩
    · exact ⟨_, by rw [checkPlaces, if_neg hp]⟩

section last

variable {sender : SenderId} {total : Nat} {packets : List (List Word)}

/-- To put patterns in order loses none and adds none. -/
theorem ordered_perm : (ordered packets).Perm (packets.flatMap contents) :=
  List.mergeSort_perm _ _

/-- Then they are in order. -/
theorem pairwise_ordered : (ordered packets).Pairwise fun a b => a.1 ≤ b.1 := by
  have htrans (a b c : Nat × Pattern) (hab : decide (a.1 ≤ b.1) = true)
      (hbc : decide (b.1 ≤ c.1) = true) : decide (a.1 ≤ c.1) = true := by
    rw [decide_eq_true_iff] at hab hbc ⊢
    omega
  have htotal (a b : Nat × Pattern) : (decide (a.1 ≤ b.1) || decide (b.1 ≤ a.1)) = true := by
    rw [Bool.or_eq_true, decide_eq_true_iff, decide_eq_true_iff]
    omega
  have h := List.pairwise_mergeSort htrans htotal (packets.flatMap contents)
  simpa only [ordered, decide_eq_true_iff] using h

/-- Patterns that are numbered from zero are told apart by their indices, so there is one way to
put them in order. -/
theorem ordered_of_perm {patterns : List Pattern}
    (h : (packets.flatMap contents).Perm (Packet.numbered 0 patterns)) :
    ordered packets = Packet.numbered 0 patterns := by
  have hperm : (ordered packets).Perm (Packet.numbered 0 patterns) := ordered_perm.trans h
  have hnodup : ((Packet.numbered 0 patterns).map (·.1)).Nodup := by
    rw [Packet.map_fst_numbered]
    exact List.nodup_range'
  have hle : (Packet.numbered 0 patterns).Pairwise fun a b => a.1 ≤ b.1 := by
    have hr : (List.range' 0 patterns.length).Pairwise fun i j => i ≤ j :=
      List.pairwise_le_range'
    rwa [← Packet.map_fst_numbered, List.pairwise_map] at hr
  refine hperm.eq_of_pairwise ?_ pairwise_ordered hle
  intro a b ha hb hab hba
  exact List.inj_on_of_nodup_map hnodup (hperm.mem_iff.1 ha) hb (Nat.le_antisymm hab hba)

/-- **The patterns of a set give the set**, however they are spread over the packets. -/
theorem assemble_of_perm {patterns : List Pattern} (hne : packets ≠ [])
    (hb : ∀ w ∈ packets, Belongs sender total w) (ht : patterns.length = total)
    (h : (packets.flatMap contents).Perm (Packet.numbered 0 patterns)) :
    assemble packets = .ok (sender, { patterns }) := by
  have hlen : (Packet.numbered 0 patterns).length = total := by rw [Packet.length_numbered, ht]
  have hplaces : checkPlaces 0 (Packet.numbered 0 patterns) = .ok () := by
    apply checkPlaces_of_range
    rw [Packet.map_fst_numbered, Packet.length_numbered]
  rw [assemble_eq hne hb, ordered_of_perm h, if_neg (not_not.2 hlen), hplaces,
    Packet.map_snd_numbered]
  rfl

/-- **Anything but the indices from zero on is out of order.** -/
theorem assemble_of_not_perm (hne : packets ≠ []) (hb : ∀ w ∈ packets, Belongs sender total w)
    (h : ¬((packets.flatMap contents).map (·.1)).Perm (List.range total)) :
    ∃ cause, assemble packets = .error (.disordered cause) := by
  rw [assemble_eq hne hb]
  by_cases hlen : (ordered packets).length = total
  · have hplaces : (ordered packets).map (·.1) ≠ List.range' 0 (ordered packets).length := by
      intro hr
      rw [hlen, ← List.range_eq_range'] at hr
      apply h
      rw [← hr]
      exact (ordered_perm.map _).symm
    obtain ⟨cause, hc⟩ := checkPlaces_of_not_range hplaces
    exact ⟨cause, by rw [if_neg (not_not.2 hlen), hc]; rfl⟩
  · exact ⟨_, if_pos hlen⟩

end last

/-! ## The packets of a set -/

/-- A choice of lists holds `i` as often as it holds the list that has `i`, if no other has it. -/
theorem count_flatMap_of_unique {α : Type} [BEq α] [LawfulBEq α] {f : α → List Nat} {i : Nat}
    {x : α} {l : List α} (hx : (f x).count i = 1) (h : ∀ y ∈ l, i ∈ f y → y = x) :
    (l.flatMap f).count i = l.count x := by
  induction l with
  | nil => rfl
  | cons y rest ih =>
    obtain ⟨hy, hrest⟩ := List.forall_mem_cons.1 h
    rw [List.flatMap_cons, List.count_append, ih hrest, List.count_cons, Nat.add_comm]
    by_cases he : y = x
    · simp [he, hx]
    · have hno : (f y).count i = 0 := List.count_eq_zero.2 fun hi => he (hy hi)
      simp [he, hno]

section packets

variable {set : PatternSet} {sender : SenderId} {q r : List Pattern × Nat}

/-- The words of the packets of a set. -/
def buffers (set : PatternSet) (sender : SenderId) (options : PlayOptions) (tailMs : Nat) :
    List (List Word) :=
  (paginate set sender options tailMs).map (·.words)

/-- The words of the packet of a page, which stands behind its place. -/
def buffer (set : PatternSet) (sender : SenderId) (q : List Pattern × Nat) : List Word :=
  Packet.encode (header sender set.patterns.length q.1.length) (q.2 * pageSize) q.1

/-- There is one buffer for each page. -/
theorem buffers_eq {options : PlayOptions} {tailMs : Nat} :
    buffers set sender options tailMs =
      (pages pageSize set.patterns).zipIdx.map (buffer set sender) := by
  rw [buffers, paginate, List.mapIdx_eq_zipIdx_map, List.map_map]
  rfl

/-- The bounds of a page, and its patterns. -/
theorem page_of_mem (hq : q ∈ (pages pageSize set.patterns).zipIdx) :
    0 < q.1.length ∧ q.1.length ≤ pageSize ∧
      q.2 * pageSize + q.1.length ≤ set.patterns.length ∧ ∀ p ∈ q.1, p ∈ set.patterns := by
  have hsize : pageSize ≠ 0 := by decide
  have hat : (pages pageSize set.patterns)[q.2]? = some q.1 :=
    List.mk_mem_zipIdx_iff_getElem?.1 hq
  obtain ⟨hpos, hle, hend⟩ := length_page_le hsize hat
  refine ⟨hpos, hle, hend, fun p hp => ?_⟩
  rw [(getElem?_pages hsize hat).1] at hp
  exact List.mem_of_mem_drop (List.mem_of_mem_take hp)

/-- The number of patterns of a set fits in a header. -/
theorem total_header (hs : set.Sendable) (carried : Nat) :
    (header sender set.patterns.length carried).total.toNat = set.patterns.length := by
  have hmax := hs.count.2
  change (UInt16.ofNat (min set.patterns.length 65535)).toNat = set.patterns.length
  rw [UInt16.toNat_ofNat']
  omega

/-- So does the number of patterns on a page. -/
theorem carried_header (total : Nat) {carried : Nat} (h : carried ≤ pageSize) :
    (header sender total carried).carried.toNat = carried := by
  change (UInt16.ofNat carried).toNat = carried
  unfold pageSize at h
  rw [UInt16.toNat_ofNat']
  omega

/-- **The packet of a page is read as its patterns**, numbered from the place of the page on. -/
theorem decode_buffer (hs : set.Sendable) (hq : q ∈ (pages pageSize set.patterns).zipIdx) :
    Packet.decode (buffer set sender q) =
      .ok { header := header sender set.patterns.length q.1.length
            patterns := Packet.numbered (q.2 * pageSize) q.1 } := by
  obtain ⟨-, hle, hend, hmem⟩ := page_of_mem hq
  have hmax := hs.count.2
  apply Packet.decode_encode
  · exact carried_header _ hle
  · intro p hp
    exact hs.fits p (hmem p hp)
  · omega

/-- What a buffer holds are the patterns of its page, numbered. -/
theorem contents_buffer (hs : set.Sendable) (hq : q ∈ (pages pageSize set.patterns).zipIdx) :
    contents (buffer set sender q) = Packet.numbered (q.2 * pageSize) q.1 := by
  rw [contents, decode_buffer hs hq]

/-- It belongs to the transmission of the set. -/
theorem belongs_buffer (hs : set.Sendable) (hq : q ∈ (pages pageSize set.patterns).zipIdx) :
    Belongs sender set.patterns.length (buffer set sender q) :=
  ⟨_, decode_buffer hs hq, rfl, total_header hs q.1.length⟩

/-- The index of the first pattern of a page is in no other page. -/
theorem eq_of_mem_indices (hs : set.Sendable) (hq : q ∈ (pages pageSize set.patterns).zipIdx)
    (hr : r ∈ (pages pageSize set.patterns).zipIdx)
    (h : q.2 * pageSize ∈ (contents (buffer set sender r)).map (·.1)) : r = q := by
  obtain ⟨-, hle, -⟩ := page_of_mem hr
  rw [contents_buffer hs hr, Packet.map_fst_numbered, List.mem_range'_1] at h
  have hplace : r.2 = q.2 := by
    unfold pageSize at h hle
    omega
  have hat : (pages pageSize set.patterns)[q.2]? = some q.1 :=
    List.mk_mem_zipIdx_iff_getElem?.1 hq
  have hat' : (pages pageSize set.patterns)[r.2]? = some r.1 :=
    List.mk_mem_zipIdx_iff_getElem?.1 hr
  rw [hplace, hat, Option.some.injEq] at hat'
  exact Prod.ext hat'.symm hplace

/-- The index of the first pattern of a page is in its buffer once. -/
theorem count_indices (hs : set.Sendable) (hq : q ∈ (pages pageSize set.patterns).zipIdx) :
    ((contents (buffer set sender q)).map (·.1)).count (q.2 * pageSize) = 1 := by
  obtain ⟨hpos, -⟩ := page_of_mem hq
  rw [contents_buffer hs hq, Packet.map_fst_numbered]
  apply List.count_eq_one_of_mem List.nodup_range'
  rw [List.mem_range'_1]
  omega

variable {options : PlayOptions} {tailMs : Nat}

/-- Every buffer of a set belongs to its transmission. -/
theorem belongs_of_mem (hs : set.Sendable) {w : List Word}
    (hw : w ∈ buffers set sender options tailMs) : Belongs sender set.patterns.length w := by
  rw [buffers_eq] at hw
  obtain ⟨q, hq, rfl⟩ := List.mem_map.1 hw
  exact belongs_buffer hs hq

/-- There is one buffer at least. -/
theorem buffers_ne_nil (hs : set.Sendable) : buffers set sender options tailMs ≠ [] := by
  have hne : set.patterns ≠ [] := List.length_pos_iff.1 hs.count.1
  rw [buffers_eq, pages_of_ne_nil (by decide) hne]
  simp

/-- **All packets together hold the patterns of the set**, each behind its index. -/
theorem flatMap_contents (hs : set.Sendable) :
    (buffers set sender options tailMs).flatMap contents = Packet.numbered 0 set.patterns := by
  rw [buffers_eq, List.flatMap_map, List.flatMap_congr fun q hq => contents_buffer hs hq,
    flatMap_numbered_pages (by decide), Nat.zero_mul]

/-- **A choice of packets that holds each index once holds each packet once.** -/
theorem count_eq_one (hs : set.Sendable) {chosen : List (List Word)}
    (hmem : ∀ w ∈ chosen, w ∈ buffers set sender options tailMs)
    (h : ((chosen.flatMap contents).map (·.1)).Perm (List.range set.patterns.length))
    {w : List Word} (hw : w ∈ buffers set sender options tailMs) : chosen.count w = 1 := by
  rw [buffers_eq] at hw
  obtain ⟨q, hq, rfl⟩ := List.mem_map.1 hw
  have hone : ((chosen.flatMap contents).map (·.1)).count (q.2 * pageSize) = 1 := by
    obtain ⟨hpos, -, hend, -⟩ := page_of_mem hq
    rw [h.count_eq]
    apply List.count_eq_one_of_mem List.nodup_range
    rw [List.mem_range]
    omega
  rw [List.map_flatMap] at hone
  rw [← hone]
  symm
  apply count_flatMap_of_unique (f := fun w => (contents w).map (·.1)) (count_indices hs hq)
  intro v hv hi
  have hv' := hmem v hv
  rw [buffers_eq] at hv'
  obtain ⟨r, hr, rfl⟩ := List.mem_map.1 hv'
  rw [eq_of_mem_indices hs hq hr hi]

end packets

/-- Taps, one every tenth of a second. -/
def taps (count : Nat) : PatternSet where
  patterns := (List.range count).map fun k =>
    { relativeTimeMs := Word.ofNat (100 * k)
      events := [.transient { channel := 0, relativeTimeMs := 0, intensity := 50, frequency := 50 }] }

end Transmission

end Haptics
