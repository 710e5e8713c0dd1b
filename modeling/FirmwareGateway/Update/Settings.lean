import FirmwareGateway.Wire.Envelope

namespace FirmwareGateway
namespace Update

/-!
# Settings of an update

Times are in milliseconds.
-/

/-- Whether a node has to accept an update before chunks are served. -/
inductive AckPolicy
  | assume
  | require
  deriving DecidableEq, Repr

/-- How one image is sent to one node. -/
structure Settings where
  node : Option UInt16 := none
  service : UInt16 := 4123
  vendor : UInt16 := 0
  firmware : UInt16 := 0x0402
  target : UInt8 := 0
  hardware : UInt8 := 1
  secure : Bool := true
  requestTimeout : Nat := 30000
  ackTimeout : Nat := 5000
  reportInterval : Nat := 50
  ackPolicy : AckPolicy := .assume
  activate : Bool := false
  deriving DecidableEq, Repr

namespace Settings

/-- The flags of every envelope of the update. -/
def flags (settings : Settings) : Wire.Flags :=
  .of .controller settings.secure

/-- What makes no sense in the settings, if anything does. -/
def fault? (settings : Settings) : Option ConfigurationFault :=
  if settings.requestTimeout = 0 then some .requestTimeout
  else if settings.ackPolicy = .require ∧ settings.ackTimeout = 0 then some .ackTimeout
  else none

/-- Refuses settings that make no sense. -/
def validate (settings : Settings) : Except Error Unit :=
  match settings.fault? with
  | some fault => .error (.configuration fault)
  | none => .ok ()

end Settings

end Update
end FirmwareGateway
