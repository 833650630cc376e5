import Haptics.Wire.Records

/-!
# Packets of the second format

A version 2 document travels in packets. A packet is a header of five words and the patterns it
carries, each with its index in the whole document:

    header      [2, version, pid, seq, total + 65536 * carried]
    pattern     [index, start, events] ++ records
    transient   [type, 5, channel, start, intensity, frequency, duration]
    continuous  [type, 6 + 3 n, channel, start, intensity, frequency, duration, n]
                  ++ n × (time, intensity, frequency)

The second word of a record is the number of words behind it. `Packet.encode` writes a packet and
`Packet.decode` reads one; the reader refuses a packet that ends early or late, announces more than
sixteen events or points, or gives a record another length than its own.
-/

namespace Haptics

/-- The header of a packet. -/
structure PacketHeader where
  /-- The version of the document. -/
  version : Version
  /-- The transmission. -/
  sender : SenderId
  /-- How many patterns the whole document has. -/
  total : UInt16
  /-- How many patterns this packet carries. -/
  carried : UInt16
  deriving DecidableEq

/-- A packet that has been read: its header and its patterns with their indices. -/
structure Packet where
  /-- The header. -/
  header : PacketHeader
  /-- The patterns, each behind its index in the whole document. -/
  patterns : List (Nat × Pattern)
  deriving DecidableEq

namespace PacketHeader

/-- The two counts in one word: the total in the low half, the carried ones in the high half. -/
def countWord (h : PacketHeader) : Word :=
  Word.ofNat (h.total.toNat + 65536 * h.carried.toNat)

/-- The five words of a header. -/
def words (h : PacketHeader) : List Word :=
  [packetTag, h.version.word, h.sender.pid, h.sender.seq, h.countWord]

/-- Reads a header from the first five words. -/
def ofWords : List Word → Except Failure PacketHeader
  | format :: version :: pid :: seq :: counts :: _ =>
    if format ≠ packetTag then .error (.malformed (.formatVersion format))
    else do
      let version ← Version.ofInt version.toInt
      let bits := counts.toUInt32.toNat
      return {
        version
        sender := ⟨pid, seq⟩
        total := UInt16.ofNat (bits % 65536)
        carried := UInt16.ofNat (bits / 65536) }
  | _ => .error (.malformed .headerShort)

end PacketHeader

namespace Packet

/-! ## Writing -/

/-- The number of words in a record. -/
def recordLength : Event → Nat
  | .transient _ => 7
  | .continuous _ _ curve => 8 + 3 * curve.length

/-- The words that every record starts with. -/
def startWords (e : Event) : List Word :=
  [e.code, Word.ofNat (recordLength e - 2), Word.ofNat e.header.channel.toNat,
    e.header.relativeTimeMs, e.header.intensity, e.header.frequency, e.durationMs]

/-- The record of an event. -/
def record (e : Event) : List Word :=
  match e with
  | .transient _ => startWords e
  | .continuous _ _ curve =>
    startWords e ++ Word.ofNat curve.length :: Records.pointWords curve

/-- The words of a pattern under its index. -/
def patternWords (index : Nat) (p : Pattern) : List Word :=
  Word.ofNat index :: p.relativeTimeMs :: Word.ofNat p.events.length :: p.events.flatMap record

/-- The words of some patterns under indices that count up from `first`. -/
def bodyWords : Nat → List Pattern → List Word
  | _, [] => []
  | first, p :: rest => patternWords first p ++ bodyWords (first + 1) rest

/-- The words of a packet whose patterns count up from `first`. -/
def encode (h : PacketHeader) (first : Nat) (patterns : List Pattern) : List Word :=
  h.words ++ bodyWords first patterns

/-! ## Reading

Each reader below takes the words that are left and gives what it has read with the words that are
then left. `total` is the length of the whole packet, for the message when it ends early. -/

/-- The next word. -/
def next (total : Nat) : List Word → Except Failure (Word × List Word)
  | [] => .error (.malformed (.truncated total))
  | w :: rest => .ok (w, rest)

/-- The next points of a curve. -/
def readPoints (total : Nat) : Nat → List Word → Except Failure (List CurvePoint × List Word)
  | 0, words => .ok ([], words)
  | count + 1, words => do
    let (timeMs, words) ← next total words
    let (intensity, words) ← next total words
    let (frequency, words) ← next total words
    let (others, words) ← readPoints total count words
    return (⟨timeMs, intensity, frequency⟩ :: others, words)

/-- The rest of a record, behind the words that every record has. -/
def readRest (total : Nat) (code : Word) (header : EventHeader) (durationMs : Word)
    (words : List Word) : Except Failure (Event × List Word) :=
  if code = Event.transientCode then .ok (.transient header, words)
  else if code = Event.continuousCode then do
    let (count, words) ← next total words
    let count ← Records.pointCountOf count
    let (curve, words) ← readPoints total count words
    return (.continuous header durationMs curve, words)
  else .error (.malformed (.eventType code))

/-- The next event. -/
def readEvent (total : Nat) (words : List Word) : Except Failure (Event × List Word) := do
  let (code, words) ← next total words
  let (length, words) ← next total words
  let (channel, words) ← next total words
  let channel ← Records.channelOf channel
  let (relativeTimeMs, words) ← next total words
  let (intensity, words) ← next total words
  let (frequency, words) ← next total words
  let (durationMs, words) ← next total words
  let (event, words) ←
    readRest total code { channel, relativeTimeMs, intensity, frequency } durationMs words
  if length.toInt = (recordLength event - 2 : Nat) then return (event, words)
  else .error (.malformed (.eventLength length))

/-- The next events. -/
def readEvents (total : Nat) : Nat → List Word → Except Failure (List Event × List Word)
  | 0, words => .ok ([], words)
  | count + 1, words => do
    let (first, words) ← readEvent total words
    let (others, words) ← readEvents total count words
    return (first :: others, words)

/-- A number of events from its word. -/
def eventCountOf (w : Word) : Except Failure Nat :=
  if 0 ≤ w.toInt ∧ w.toInt ≤ Rules.maxEvents then .ok w.toInt.toNat
  else .error (.malformed (.eventCount w))

/-- An index from its word. -/
def indexOf (w : Word) : Except Failure Nat :=
  if 0 ≤ w.toInt then .ok w.toInt.toNat
  else .error (.malformed (.patternIndex w))

/-- The next pattern. Its index is looked at when all else has been read. -/
def readPattern (total : Nat) (words : List Word) :
    Except Failure ((Nat × Pattern) × List Word) := do
  let (index, words) ← next total words
  let (relativeTimeMs, words) ← next total words
  let (count, words) ← next total words
  let count ← eventCountOf count
  let (events, words) ← readEvents total count words
  let index ← indexOf index
  return ((index, { relativeTimeMs, events }), words)

/-- The next patterns, behind those that `done` holds in reverse. -/
def readPatterns (total : Nat) (done : List (Nat × Pattern)) :
    Nat → List Word → Except Failure (List (Nat × Pattern) × List Word)
  | 0, words => .ok (done.reverse, words)
  | count + 1, words =>
    match readPattern total words with
    | .ok (first, words) => readPatterns total (first :: done) count words
    | .error e => .error e

/-- Reads a packet. -/
def decode (words : List Word) : Except Failure Packet := do
  let header ← PacketHeader.ofWords words
  let (patterns, rest) ←
    readPatterns words.length [] header.carried.toNat (words.drop packetHeaderLength)
  if rest.isEmpty then return { header, patterns }
  else .error (.malformed (.trailingWords rest.length))

end Packet

end Haptics
