import FirmwareGateway.Wire.Envelope
import FirmwareGateway.Checksum

namespace FirmwareGateway
namespace Wire

/-!
# Commands of a firmware update

Besides reports, which have a module of their own, five commands occur: two
questions to a node, and the three commands that name a firmware by its vendor,
its number and the checksum of its image.
-/

/-- The octet that marks the commands of firmware updates. -/
def firmwareClass : UInt8 := 0x7a

/-- The number of the command with which a node asks for chunks. -/
def updateGetCommand : UInt8 := 0x05

/-- The number of the command with which a node answers an announcement. -/
def requestReportCommand : UInt8 := 0x04

/-- The layout of the question for firmware metadata. -/
def metadataGetLayout : Layout where
  name := "firmware md get"
  lead := [firmwareClass, 0x01]
  fields := []

/-- The layout of the question for the version of the application. -/
def versionGetLayout : Layout where
  name := "version get"
  lead := [0x86, 0x11]
  fields := []

/-- The layout of an update get that names a firmware. -/
def updateGetLayout : Layout where
  name := "firmware update get"
  lead := [firmwareClass, updateGetCommand]
  fields :=
    [⟨"vendor_id", .word .u16be⟩, ⟨"firmware_id", .word .u16be⟩, ⟨"checksum", .word .u16be⟩]

/-- The layout of the command that activates an image. -/
def activeSetLayout : Layout where
  name := "firmware active set"
  lead := [firmwareClass, 0x08]
  fields :=
    [⟨"vendor_id", .word .u16be⟩, ⟨"firmware_id", .word .u16be⟩, ⟨"checksum", .word .u16be⟩,
     ⟨"target", .word .u8⟩, ⟨"hw_version", .word .u8⟩]

/-- The layout of the announcement of an update. -/
def requestGetLayout : Layout where
  name := "firmware update request get"
  lead := [firmwareClass, 0x03]
  fields :=
    [⟨"vendor_id", .word .u16be⟩, ⟨"firmware_id", .word .u16be⟩, ⟨"checksum", .word .u16be⟩,
     ⟨"target", .word .u8⟩, ⟨"fragment_size", .word .u16be⟩, ⟨"activation", .word .u8⟩,
     ⟨"hw_version", .word .u8⟩]

/-- A command that a controller sends. -/
inductive Command
  | metadataGet
  | versionGet
  | updateGet (vendor firmware checksum : UInt16)
  | activeSet (vendor firmware checksum : UInt16) (target hardware : UInt8)
  | requestGet (vendor firmware checksum : UInt16) (target : UInt8)
  deriving DecidableEq, Repr

namespace Command

/-- The layout of a command. -/
def layout : Command → Layout
  | .metadataGet => metadataGetLayout
  | .versionGet => versionGetLayout
  | .updateGet .. => updateGetLayout
  | .activeSet .. => activeSetLayout
  | .requestGet .. => requestGetLayout

/-- What the fields of a command hold.  An announcement gives the size of chunks
as that of its fragments, asks for no activation, and is for hardware version 1. -/
def values : Command → List Value
  | .metadataGet => []
  | .versionGet => []
  | .updateGet vendor firmware checksum =>
    [.int vendor.toUInt32, .int firmware.toUInt32, .int checksum.toUInt32]
  | .activeSet vendor firmware checksum target hardware =>
    [.int vendor.toUInt32, .int firmware.toUInt32, .int checksum.toUInt32,
     .int target.toUInt32, .int hardware.toUInt32]
  | .requestGet vendor firmware checksum target =>
    [.int vendor.toUInt32, .int firmware.toUInt32, .int checksum.toUInt32,
     .int target.toUInt32, .int (UInt32.ofNat Image.chunkSize), .int 0, .int 1]

/-- The octets of a command. -/
def encode (command : Command) : Except Error Bytes :=
  command.layout.encode command.values

end Command

/-- Whether `marker` stands somewhere in an octet string. -/
def occurs (marker : Bytes) : Bytes → Bool
  | [] => marker.isEmpty
  | octet :: rest => marker.isPrefixOf (octet :: rest) || occurs marker rest

/-- Whether a datagram is an envelope with a node's answer to an announcement. -/
def isRequestReport (raw : Bytes) : Bool :=
  match Envelope.decode? raw with
  | some envelope => occurs [firmwareClass, requestReportCommand] envelope.payload
  | none => false

end Wire
end FirmwareGateway
