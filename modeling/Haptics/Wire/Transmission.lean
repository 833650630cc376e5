import Haptics.Wire.Options
import Haptics.Wire.Packet

/-!
# Transmissions

A set of patterns is sent as packets of up to ten patterns each. Every packet carries the number of
patterns in the whole set and the index of each of its own, so the set can be put together again
from its packets in any order (`Transmission.assemble`), and a packet that is missing, comes twice
or belongs to another set is noticed.
-/

namespace Haptics.Transmission

/-- The most patterns in a packet. -/
def pageSize : Nat := 10

/-- A list in pieces of a given size; the last piece may be shorter. -/
def pages (size : Nat) (items : List α) : List (List α) :=
  if _h : items = [] ∨ size = 0 then []
  else items.take size :: pages size (items.drop size)
termination_by items.length
decreasing_by
  have : 0 < items.length := List.length_pos_iff.2 fun e => _h (.inl e)
  have : size ≠ 0 := fun e => _h (.inr e)
  simp only [List.length_drop]; omega

@[simp] theorem pages_nil (size : Nat) : pages size ([] : List α) = [] := by
  rw [pages]; simp

/-- The first page and those behind it. -/
theorem pages_of_ne_nil {size : Nat} {items : List α} (hs : size ≠ 0) (hi : items ≠ []) :
    pages size items = items.take size :: pages size (items.drop size) := by
  rw [pages, dif_neg (by simp [hs, hi])]

/-- The pages together are the list. -/
theorem flatten_pages {size : Nat} (hs : size ≠ 0) (items : List α) :
    (pages size items).flatten = items := by
  fun_induction pages size items with
  | case1 items h => rcases h with h | h <;> simp_all
  | case2 items h ih => rw [List.flatten_cons, ih, List.take_append_drop]

/-- The header of a packet of `carried` patterns out of a set of `total`. -/
def header (sender : SenderId) (total carried : Nat) : PacketHeader :=
  { version := .two
    sender
    total := UInt16.ofNat (min total 65535)
    carried := UInt16.ofNat carried }

/-- The packets of a set, in order. Each announces the time that the whole set takes. -/
def paginate (set : PatternSet) (sender : SenderId) (options : PlayOptions) (tailMs : Nat) :
    List Stream :=
  let singleMs := set.playbackMs tailMs
  (pages pageSize set.patterns).mapIdx fun place page =>
    options.stream
      (Packet.encode (header sender set.patterns.length page.length) (place * pageSize) page)
      singleMs

/-! ## Putting a set together -/

/-- What the packets seen so far agree on, and their patterns. -/
structure Gathered where
  /-- The transmission and the number of its patterns, once a packet has been seen. -/
  announced : Option (SenderId × Nat) := none
  /-- The patterns of all packets, in pieces, latest packet first. -/
  pieces : List (List (Nat × Pattern)) := []

/-- Takes one more packet. -/
def Gathered.add (g : Gathered) (words : List Word) : Except Failure Gathered := do
  let packet ← Packet.decode words
  let sender := packet.header.sender
  let total := packet.header.total.toNat
  match g.announced with
  | none => return { announced := some (sender, total), pieces := [packet.patterns] }
  | some (transmission, expected) =>
    if transmission ≠ sender then .error (.disordered (.mixedSenders sender transmission))
    else if expected ≠ total then .error (.malformed (.totals total expected))
    else return { g with pieces := packet.patterns :: g.pieces }

/-- All patterns gathered, in the order of their packets. -/
def Gathered.patterns (g : Gathered) : List (Nat × Pattern) :=
  g.pieces.reverse.flatten

/-- Checks that the indices count up from `expected`. -/
def checkPlaces : Nat → List (Nat × Pattern) → Except Failure Unit
  | _, [] => .ok ()
  | expected, (index, _) :: rest =>
    if index = expected then checkPlaces (expected + 1) rest
    else .error (.disordered (.patternPlace index expected))

/-- The set and its transmission, from all its packets in any order. -/
def assemble (packets : List (List Word)) : Except Failure (SenderId × PatternSet) := do
  let gathered ← packets.foldlM Gathered.add {}
  match gathered.announced with
  | none => .error (.malformed .noPackets)
  | some (sender, total) =>
    let sorted := gathered.patterns.mergeSort fun a b => a.1 ≤ b.1
    if sorted.length ≠ total then
      .error (.disordered (.patternTotal total sorted.length))
    else do
      checkPlaces 0 sorted
      return (sender, { patterns := sorted.map (·.2) })

end Haptics.Transmission
