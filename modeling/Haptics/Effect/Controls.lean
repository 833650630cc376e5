import Haptics.Failure

/-!
# Controls of a running stream

While a stream plays, its interval, amplitude and frequency can be changed. Each of the three
numbers is a word, and `-1` leaves the value as it is. All three at zero is the form that stops the
stream.
-/

namespace Haptics

/-- Interval, amplitude and frequency of a running stream. -/
structure Controls where
  /-- The pause between two plays, in milliseconds. -/
  intervalMs : Word
  /-- The amplitude, up to 255. -/
  amplitude : Word
  /-- The frequency. -/
  frequency : Word
  deriving DecidableEq

namespace Controls

/-- The word that leaves a value as it is. -/
def unchanged : Word := -1

/-- Checks the three numbers: interval, then frequency, then amplitude. -/
def check (intervalMs amplitude frequency : Word) : Except Failure Controls :=
  if intervalMs.toInt < -1 then .error (.outOfRange .interval)
  else if frequency.toInt < -1 then .error (.outOfRange .frequency)
  else if amplitude.toInt < -1 ∨ 255 < amplitude.toInt then .error (.outOfRange .amplitude)
  else .ok ⟨intervalMs, amplitude, frequency⟩

/-- The form that stops the stream. -/
def stop : Controls := ⟨0, 0, 0⟩

/-- Whether these are the controls that stop the stream. -/
def isStop (c : Controls) : Bool := c == stop

/-- The three words, in the order in which they are sent. -/
def words (c : Controls) : List Word := [c.intervalMs, c.amplitude, c.frequency]

/-- Reads controls from the first three words; further words are not looked at. -/
def ofWords : List Word → Except Failure Controls
  | intervalMs :: amplitude :: frequency :: _ => check intervalMs amplitude frequency
  | short => .error (.malformed (.controlWords short.length))

/-- Controls that pass the check come back from their words. -/
theorem ofWords_words {c : Controls} (h : check c.intervalMs c.amplitude c.frequency = .ok c) :
    ofWords c.words = .ok c := h

end Controls

end Haptics
