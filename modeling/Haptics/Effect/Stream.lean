import Haptics.Effect.Loop
import Haptics.Sender

/-!
# Streams

A stream is a buffer of words for the actuator together with how it is to be played. Whoever
handles a stream classifies it by a look at its first words:

* a buffer that starts with `2` is a *packet* of a document in the second format; its third and
  fourth words name the transmission (`Stream.sender?`) and its sixth is the index of its first
  pattern (`Stream.firstIndex?`);
* a packet whose first pattern is not pattern `0` continues a transmission that another packet has
  opened (`Stream.isContinuation`).
-/

namespace Haptics

/-- The word that opens a buffer of the first format. -/
def recordTag : Word := 3

/-- The word that opens a packet of the second format. -/
def packetTag : Word := 2

/-- The number of words in the header of a packet. -/
def packetHeaderLength : Nat := 5

/-- A buffer for the actuator and how to play it. -/
structure Stream where
  /-- The words of the buffer. -/
  words : List Word
  /-- How often it is played. -/
  loop : LoopCount := .once
  /-- The pause between two plays, in milliseconds. -/
  intervalMs : Word := 0
  /-- The amplitude, up to 255. -/
  amplitude : Word := 255
  /-- The frequency. -/
  frequency : Word := 0
  /-- How long it takes to play it out, where it ends by itself. -/
  hintMs : Option Nat := none
  deriving DecidableEq

namespace Stream

/-- Whether the buffer is a packet of the second format. -/
def isPacket (s : Stream) : Bool :=
  s.words.head? == some packetTag

/-- The transmission that a packet belongs to. -/
def sender? (s : Stream) : Option SenderId :=
  if s.isPacket then
    match s.words with
    | _ :: _ :: pid :: seq :: _ => some ⟨pid, seq⟩
    | _ => none
  else none

/-- The index of the first pattern in a packet. -/
def firstIndex? (s : Stream) : Option Word :=
  if s.isPacket then s.words[packetHeaderLength]? else none

/-- Whether the packet continues a transmission that another packet has opened. -/
def isContinuation (s : Stream) : Bool :=
  match s.firstIndex? with
  | some index => index != 0
  | none => false

end Stream

end Haptics
