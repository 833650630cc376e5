import Haptics.Wire.Transmission

/-!
# From documents to streams

A version 1 document becomes one buffer of records. A version 2 document becomes the packets of a
transmission, all marked with the sender.
-/

namespace Haptics

/-- What a tap at the end adds to the length of a document, unless told otherwise. -/
def defaultTailMs : Nat := 80

/-- The streams of a document. -/
def HapticDocument.compile (document : HapticDocument) (options : PlayOptions) (sender : SenderId)
    (tailMs : Nat) : List Stream :=
  match document with
  | .v1 pattern => [options.stream (Records.encode pattern) (document.playbackMs tailMs)]
  | .v2 set => Transmission.paginate set sender options tailMs

/-- Every stream of a document is a buffer with words in it, which is played as the options say and
announces the time that the whole document takes. -/
theorem HapticDocument.stream_of_mem_compile {document : HapticDocument} {options : PlayOptions}
    {sender : SenderId} {tailMs : Nat} {s : Stream}
    (h : s ∈ document.compile options sender tailMs) :
    ∃ words, words ≠ [] ∧ s = options.stream words (document.playbackMs tailMs) := by
  cases document with
  | v1 pattern => exact ⟨Records.encode pattern, List.cons_ne_nil _ _, List.mem_singleton.1 h⟩
  | v2 set =>
    obtain ⟨place, hplace, rfl⟩ := List.mem_mapIdx.1 h
    exact ⟨_, List.cons_ne_nil _ _, rfl⟩

/-- The streams of the document that a text stands for. -/
def compileText (text : String) (options : PlayOptions) (sender : SenderId) :
    Except Failure (List Stream) := do
  let document ← HapticDocument.read text
  return document.compile options sender defaultTailMs

end Haptics
