import FirmwareGateway.Relay.Target

namespace FirmwareGateway
namespace Relay

/-!
# Records

A relay sends records: the channel, the type, the length of the payload and the
payload.  One header record opens a relay, data records carry the file, and a data
record without payload marks the end of it.
-/

/-- The layout of a record. -/
def recordLayout : Wire.Layout where
  name := "relay record"
  lead := []
  fields :=
    [⟨"channel", .word .u8⟩, ⟨"record_type", .word .u8⟩, ⟨"length", .word .u16le⟩,
     ⟨"payload", .tail⟩]

/-- What a record carries. -/
inductive RecordType
  | data
  | header
  deriving DecidableEq, Repr

namespace RecordType

/-- The octet that stands for a type. -/
def tag : RecordType → UInt8
  | .data => 0x00
  | .header => 0x01

/-- The type that an octet stands for. -/
def ofTag (tag : UInt8) : Except Error RecordType :=
  if tag = 0x00 then .ok .data
  else if tag = 0x01 then .ok .header
  else .error (.protocol (.recordType tag))

theorem ofTag_tag (type : RecordType) : ofTag type.tag = .ok type := by
  cases type <;> rfl

end RecordType

/-- A record. -/
structure Record where
  channel : Channel
  type : RecordType
  payload : Bytes
  deriving DecidableEq, Repr

namespace Record

/-- The record that opens a relay. -/
def header (channel : Channel) (metadata : Bytes) : Record := ⟨channel, .header, metadata⟩

/-- A record with a part of the file. -/
def data (channel : Channel) (payload : Bytes) : Record := ⟨channel, .data, payload⟩

/-- The record that marks the end of the file. -/
def ending (channel : Channel) : Record := data channel []

/-- Whether a record marks the end of the file. -/
def isEnding (record : Record) : Bool :=
  record.type == .data && record.payload.isEmpty

/-- What the fields of a record hold. -/
def values (record : Record) : List Wire.Value :=
  [.int record.channel.tag.toUInt32, .int record.type.tag.toUInt32,
   .int (UInt32.ofNat record.payload.length), .bytes record.payload]

/-- How far writing a record comes: its payload may be too long for its length. -/
def write (record : Record) : Wire.Attempt :=
  recordLayout.write record.values

/-- The octets of a record. -/
def encode (record : Record) : Except Error Bytes :=
  record.write.result

end Record

end Relay
end FirmwareGateway
