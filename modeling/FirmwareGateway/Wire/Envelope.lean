import FirmwareGateway.Wire.Layout

namespace FirmwareGateway
namespace Wire

/-!
# Envelopes

Every command between a controller and a node travels in an envelope: two octets
that mark it, two octets of flags, a sequence number, the endpoints at both sides,
and the command itself.  The flags depend on the role of the sender and on whether
the command is to be sent with security.

A node behind a bridge is reached through the bridge, which hands it the envelope
that follows its number.
-/

/-- The layout of an envelope. -/
def envelopeLayout : Layout where
  name := "envelope"
  lead := [0x23, 0x02]
  fields :=
    [⟨"flags0", .word .u8⟩, ⟨"flags1", .word .u8⟩, ⟨"sequence_no", .word .u8⟩,
     ⟨"source_endpoint", .word .u8⟩, ⟨"dest_endpoint", .word .u8⟩, ⟨"payload", .tail⟩]

/-- Who fills an envelope. -/
inductive Role
  | controller
  | relay
  deriving DecidableEq, Repr

/-- The two octets of flags. -/
structure Flags where
  first : UInt8
  second : UInt8
  deriving DecidableEq, Repr

namespace Flags

/-- The bit of the second octet that asks for security. -/
def secureBit : UInt8 := 0x10

/-- The flags that a sender sets. -/
def of (role : Role) (secure : Bool) : Flags where
  first := match role with
    | .controller => 0x00
    | .relay => 0x80
  second := 0x40 ||| (if secure then secureBit else 0)

/-- Whether the flags ask for security. -/
def isSecure (flags : Flags) : Bool :=
  flags.second &&& secureBit != 0

end Flags

/-- A command in its envelope. -/
structure Envelope where
  flags : Flags
  sequence : UInt8
  source : UInt8
  destination : UInt8
  payload : Bytes
  deriving DecidableEq, Repr

namespace Envelope

/-- What the fields of an envelope hold. -/
def values (envelope : Envelope) : List Value :=
  [.int envelope.flags.first.toUInt32, .int envelope.flags.second.toUInt32,
   .int envelope.sequence.toUInt32, .int envelope.source.toUInt32,
   .int envelope.destination.toUInt32, .bytes envelope.payload]

/-- The octets of an envelope. -/
def encode (envelope : Envelope) : Except Error Bytes :=
  envelopeLayout.encode envelope.values

/-- An envelope between the endpoints numbered zero. -/
def around (payload : Bytes) (sequence : UInt8) (flags : Flags) : Envelope :=
  ⟨flags, sequence, 0, 0, payload⟩

/-- Reads an envelope; anything else is none. -/
def decode? (raw : Bytes) : Option Envelope :=
  match envelopeLayout.decode raw with
  | .ok [.int first, .int second, .int sequence, .int source, .int destination, .bytes payload] =>
    some ⟨⟨first.toUInt8, second.toUInt8⟩, sequence.toUInt8, source.toUInt8,
      destination.toUInt8, payload⟩
  | _ => none

end Envelope

/-! ## Packets for a node behind a bridge -/

/-- The layout of a packet for a node: the number of the node, low octet first, and
an envelope. -/
def forwardLayout : Layout where
  name := "node forward"
  lead := [0x10]
  fields := [⟨"node_id", .word .u16le⟩, ⟨"envelope", .tail⟩]

/-- The octets of a packet for a node. -/
def encodeForward (node : UInt16) (envelope : Bytes) : Except Error Bytes :=
  forwardLayout.encode [.int node.toUInt32, .bytes envelope]

end Wire
end FirmwareGateway
