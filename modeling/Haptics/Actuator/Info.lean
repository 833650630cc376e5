/-!
# What an actuator says about itself

An actuator reports a version, in three bytes, and the capabilities it has, as bits. Which documents
it can play follows from its major version: below `0x16` none, at `0x16` the first version of the
format, and from `0x17` on both.
-/

namespace Haptics

/-- Version and capabilities of an actuator. -/
structure ActuatorInfo where
  /-- Client, major and minor version, a byte each. -/
  version : UInt32
  /-- The capabilities, a bit each. -/
  capabilities : UInt32
  deriving DecidableEq

/-- Something that not every actuator can do. -/
inductive Capability where
  | amplitudeControl
  | externalControl
  | alwaysOnControl
  | compiledPatterns
  | envelope
  deriving DecidableEq

/-- The bit of a capability. -/
def Capability.bit : Capability → UInt32
  | amplitudeControl => 1
  | externalControl => 2
  | alwaysOnControl => 4
  | compiledPatterns => 8
  | envelope => 16

namespace ActuatorInfo

/-- All capabilities. -/
def allCapabilities : UInt32 := 0x1F

/-- The report of an actuator with the given version bytes. -/
def ofParts (client major minor : UInt8) (capabilities : UInt32) : ActuatorInfo :=
  { version := (client.toUInt32 <<< 16) ||| (major.toUInt32 <<< 8) ||| minor.toUInt32
    capabilities }

/-- The byte of the client. -/
def client (i : ActuatorInfo) : UInt8 := (i.version >>> 16).toUInt8

/-- The byte of the major version. -/
def major (i : ActuatorInfo) : UInt8 := (i.version >>> 8).toUInt8

/-- The byte of the minor version. -/
def minor (i : ActuatorInfo) : UInt8 := i.version.toUInt8

/-- Whether all bits of `mask` are among the capabilities. -/
def hasAll (i : ActuatorInfo) (mask : UInt32) : Bool :=
  i.capabilities &&& mask == mask

/-- Whether the actuator has a capability. -/
def can (i : ActuatorInfo) (c : Capability) : Bool :=
  i.hasAll c.bit

/-- Whether the actuator plays documents of the given version. -/
def playsVersion (i : ActuatorInfo) (version : Int) : Bool :=
  if i.major < 0x16 then false
  else if i.major = 0x16 then version = 1
  else version = 1 ∨ version = 2

end ActuatorInfo

end Haptics
