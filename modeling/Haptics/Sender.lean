import Haptics.Word

/-!
# Senders

A document of many patterns travels in several packets. Every packet names the transmission it
belongs to by the process that sends it and a sequence number.
-/

namespace Haptics

/-- The transmission a packet belongs to. -/
structure SenderId where
  /-- The sending process. -/
  pid : Word
  /-- The number of the transmission within the process. -/
  seq : Word
  deriving DecidableEq

/-- The sender as text: process and sequence number, with a colon between. -/
def SenderId.text (s : SenderId) : String :=
  s.pid.decimal ++ ":" ++ s.seq.decimal

end Haptics
