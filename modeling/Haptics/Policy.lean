import Haptics.External

/-!
# Policies

A policy answers the questions that are not the scheduler's to decide: may this client vibrate, does
the user want silence, does a vibration end when the screen goes dark, how loud may an external
source be, and may an always-on effect stay.

`Policy.ofRules` derives the other answers from the first two; `Policy.permissive` allows all;
`Settings.policy` follows the user's settings.
-/

namespace Haptics

/-- The answers that a scheduler asks for. -/
structure Policy where
  /-- Whether a client may vibrate. -/
  allows : (uid : Int) → (package : String) → Attributes → Bool
  /-- Whether the user wants silence for this. -/
  mutes : (uid : Int) → Attributes → Bool
  /-- Whether a vibration ends when the screen goes dark. -/
  endsOnScreenOff : (uid : Int) → Attributes → Bool
  /-- The scale of an external session. -/
  externalScale : ExternalRequest → ExternalScale
  /-- Whether an always-on effect may stay. -/
  allowsAlwaysOn : (uid : Int) → (package : String) → Attributes → Bool

namespace Policy

/-- The user that the system itself runs as. -/
def systemUid : Int := 1000

/-- A dark screen ends everything but what the system asked for and what a user relies on. -/
def screenOffRule (uid : Int) (attributes : Attributes) : Bool :=
  if uid = systemUid then false
  else
    match attributes.usage with
    | .accessibility | .physicalEmulation | .hardwareFeedback => false
    | _ => true

/-- The policy that follows from who may vibrate and what is to be silent: an external source of a
client that may not vibrate is muted, and an always-on effect stays while its client may vibrate and
is not to be silent. -/
def ofRules (allows : Int → String → Attributes → Bool) (mutes : Int → Attributes → Bool) :
    Policy where
  allows := allows
  mutes := mutes
  endsOnScreenOff := screenOffRule
  externalScale r := if allows r.uid r.package r.attributes then .none else .mute
  allowsAlwaysOn uid package attributes :=
    allows uid package attributes && !mutes uid attributes

/-- Everything is allowed and nothing is to be silent. -/
def permissive : Policy :=
  ofRules (fun _ _ _ => true) (fun _ _ => false)

/-- Everything is allowed, and external sessions have a fixed scale. -/
def withExternalScale (scale : ExternalScale) : Policy :=
  { permissive with externalScale := fun _ => scale }

end Policy

/-- The user's settings. -/
structure Settings where
  /-- The usages that are to be silent. -/
  muted : List Usage := []
  /-- The users whose clients may not vibrate. -/
  denied : List Int := []
  deriving DecidableEq

namespace Settings

/-- Silences a usage. -/
def mute (s : Settings) (usage : Usage) : Settings :=
  { s with muted := s.muted.insert usage }

/-- Lets a usage be heard again. -/
def unmute (s : Settings) (usage : Usage) : Settings :=
  { s with muted := s.muted.filter (· ≠ usage) }

/-- Forbids a user's clients to vibrate. -/
def deny (s : Settings) (uid : Int) : Settings :=
  { s with denied := s.denied.insert uid }

/-- Allows a user's clients to vibrate again. -/
def allow (s : Settings) (uid : Int) : Settings :=
  { s with denied := s.denied.filter (· ≠ uid) }

/-- Whether a request is to be silent: its usage is, and it does not bypass the settings. -/
def isMuted (s : Settings) (attributes : Attributes) : Bool :=
  !attributes.has Attributes.bypassInterruptions && s.muted.contains attributes.usage

/-- The policy that follows the settings: a client may vibrate if its user is not denied and the
request is not to be silent. -/
def policy (s : Settings) : Policy :=
  .ofRules (fun uid _ attributes => !s.denied.contains uid && !s.isMuted attributes)
    fun _ attributes => s.isMuted attributes

end Settings

end Haptics
