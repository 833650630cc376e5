import Haptics.Actuator.Order
import Haptics.Policy
import Haptics.Table

/-!
# Always-on effects

A client can leave effects with an actuator, one per channel, which it plays whenever the channel's
trigger fires. The registry keeps what each client has asked for under its number, and brings the
actuator in line with it and with the policy: effects that the policy allows are enabled, the others
are disabled.

The registry gives its orders through a function `issue : Order → τ → Except Failure Nat × τ`, so it
works with anything that takes orders, and any of them may fail. It changes only when all orders of
a request have been taken. After a failure the new channels of the request are disabled again; a
channel where even that fails stays in the registry, so that a later request still reaches it.
-/

namespace Haptics

/-- What a client asks for: effects for some channels, or nothing to take all of them away. -/
structure AlwaysOnRequest where
  /-- The number of the entry. -/
  id : Int
  /-- The user the client runs as. -/
  uid : Int
  /-- The client's package. -/
  package : String
  /-- Usage and flags. -/
  attributes : Attributes := {}
  /-- The effect of each channel. -/
  effects : Option (Table UInt8 Prebaked)
  deriving DecidableEq

/-- An entry of the registry. -/
structure AlwaysOnEntry where
  /-- The user the client runs as. -/
  uid : Int
  /-- The client's package. -/
  package : String
  /-- Usage and flags. -/
  attributes : Attributes
  /-- The effect of each channel. -/
  effects : Table UInt8 Prebaked
  /-- Whether the policy allowed the effects when they were last looked at. -/
  enabled : Bool
  deriving DecidableEq

/-- What is shown of an entry. -/
structure AlwaysOnInfo where
  /-- The number of the entry. -/
  id : Int
  /-- The user the client runs as. -/
  uid : Int
  /-- The client's package. -/
  package : String
  /-- The channels. -/
  channels : List UInt8
  /-- Whether the policy allowed the effects when they were last looked at. -/
  enabled : Bool
  deriving DecidableEq

/-- All entries under their numbers. -/
abbrev AlwaysOn := Table Int AlwaysOnEntry

namespace AlwaysOn

variable {τ : Type} (issue : Order → τ → Except Failure Nat × τ)

/-- Gives orders one after another until one fails. -/
def issueAll : List Order → τ → Except Failure Unit × τ
  | [], t => (.ok (), t)
  | o :: rest, t =>
    match issue o t with
    | (.ok _, t) => issueAll rest t
    | (.error e, t) => (.error e, t)

@[simp] theorem issueAll_nil (t : τ) : issueAll issue [] t = (.ok (), t) := rfl

theorem issueAll_cons_of_ok {o : Order} {t t' : τ} {n : Nat} (h : issue o t = (.ok n, t'))
    (rest : List Order) : issueAll issue (o :: rest) t = issueAll issue rest t' := by
  simp only [issueAll, h]

theorem issueAll_cons_of_error {o : Order} {t t' : τ} {e : Failure}
    (h : issue o t = (.error e, t')) (rest : List Order) :
    issueAll issue (o :: rest) t = (.error e, t') := by
  simp only [issueAll, h]

/-- The orders that take channels away from an entry. -/
def disableOrders (id : Int) (channels : List UInt8) : List Order :=
  channels.map fun channel => .alwaysOnDisable channel id

/-- The orders that bring an actuator in line with an entry. -/
def syncOrders (id : Int) (effects : Table UInt8 Prebaked) (allowed : Bool) : List Order :=
  if allowed then effects.map fun entry => .alwaysOnEnable entry.1 id entry.2
  else disableOrders id effects.keys

/-- Whether the policy allows an entry. -/
def isAllowed (policy : Policy) (e : AlwaysOnEntry) : Bool :=
  policy.allowsAlwaysOn e.uid e.package e.attributes

/-- Brings the actuator in line with an entry. If all orders were taken, the entry notes what the
policy said. -/
def sync (policy : Policy) (id : Int) (e : AlwaysOnEntry) (t : τ) :
    Except Failure AlwaysOnEntry × τ :=
  match issueAll issue (syncOrders id e.effects (isAllowed policy e)) t with
  | (.ok (), t) => (.ok { e with enabled := isAllowed policy e }, t)
  | (.error failure, t) => (.error failure, t)

/-- Adds a channel to an entry, which is made from `failed` if there is none. -/
def track (registry : AlwaysOn) (id : Int) (failed : AlwaysOnEntry) (channel : UInt8)
    (effect : Prebaked) : AlwaysOn :=
  let entry := (registry.get? id).getD { failed with effects := [], enabled := false }
  registry.insert id { entry with effects := entry.effects.insert channel effect }

/-- Takes back the channels of a request that failed, unless the entry had them before. A channel
that cannot be disabled is kept track of. -/
def rollback (id : Int) (failed : AlwaysOnEntry) :
    Table UInt8 Prebaked → AlwaysOn → τ → AlwaysOn × τ
  | [], registry, t => (registry, t)
  | (channel, effect) :: rest, registry, t =>
    if (registry.get? id).any fun e => e.effects.has channel then rollback id failed rest registry t
    else
      match issue (.alwaysOnDisable channel id) t with
      | (.ok _, t) => rollback id failed rest registry t
      | (.error _, t) => rollback id failed rest (track registry id failed channel effect) t

/-- Takes all effects of an entry away. -/
def clear (registry : AlwaysOn) (id : Int) (t : τ) : Except Failure Unit × AlwaysOn × τ :=
  match registry.get? id with
  | none => (.ok (), registry, t)
  | some previous =>
    match issueAll issue (disableOrders id previous.effects.keys) t with
    | (.ok (), t) => (.ok (), registry.erase id, t)
    | (.error e, t) => (.error e, registry, t)

/-- The channels that an entry has and `effects` does not. -/
def dropped (registry : AlwaysOn) (id : Int) (effects : Table UInt8 Prebaked) : List UInt8 :=
  match registry.get? id with
  | none => []
  | some previous => previous.effects.keys.filter fun channel => !effects.has channel

/-- Puts an entry in place: first the channels that it no longer has are disabled, then its effects
are enabled, or disabled if the policy says so. -/
def set (policy : Policy) (registry : AlwaysOn) (id : Int) (entry : AlwaysOnEntry) (t : τ) :
    Except Failure Unit × AlwaysOn × τ :=
  match issueAll issue (disableOrders id (dropped registry id entry.effects)) t with
  | (.error e, t) => (.error e, registry, t)
  | (.ok (), t) =>
    match sync issue policy id entry t with
    | (.ok entry, t) => (.ok (), registry.insert id entry, t)
    | (.error e, t) =>
      let (registry, t) := rollback issue id entry entry.effects registry t
      (.error e, registry, t)

/-- Carries out a request. -/
def apply (policy : Policy) (registry : AlwaysOn) (r : AlwaysOnRequest) (t : τ) :
    Except Failure Unit × AlwaysOn × τ :=
  match r.effects with
  | none => clear issue registry r.id t
  | some effects =>
    set issue policy registry r.id
      { uid := r.uid, package := r.package, attributes := r.attributes, effects,
        enabled := false } t

/-- Brings the actuator in line with every entry. An entry that fails stays as it is and does not
keep the others from being looked at; the answer is the first failure. -/
def refresh (policy : Policy) : AlwaysOn → τ → Except Failure Unit × AlwaysOn × τ
  | [], t => (.ok (), [], t)
  | (id, entry) :: rest, t =>
    match sync issue policy id entry t with
    | (.ok entry, t) =>
      let (result, rest, t) := refresh policy rest t
      (result, (id, entry) :: rest, t)
    | (.error e, t) =>
      let (_, rest, t) := refresh policy rest t
      (.error e, (id, entry) :: rest, t)

/-- What is shown of the registry, in the order of its numbers. -/
def info (registry : AlwaysOn) : List AlwaysOnInfo :=
  registry.map fun (id, e) =>
    { id, uid := e.uid, package := e.package, channels := e.effects.keys, enabled := e.enabled }

end AlwaysOn

end Haptics
