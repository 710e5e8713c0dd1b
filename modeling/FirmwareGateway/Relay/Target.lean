import FirmwareGateway.Digest
import FirmwareGateway.Wire.Layout

namespace FirmwareGateway
namespace Relay

/-!
# Targets of a relay

A file is relayed to the bridge itself, to the co-processor behind it, or to a
node of the mesh.  The target chooses the channel of every record and what the
receiver is told about the file before it arrives: nothing, its size and digest,
or these and the number of the node.
-/

/-- The channel that a record is for. -/
inductive Channel
  | bridge
  | coprocessor
  | node
  deriving DecidableEq, Repr

namespace Channel

/-- The octet that stands for a channel. -/
def tag : Channel → UInt8
  | .bridge => 0x20
  | .coprocessor => 0x30
  | .node => 0x40

/-- The channel that an octet stands for. -/
def ofTag (tag : UInt8) : Except Error Channel :=
  if tag = 0x20 then .ok .bridge
  else if tag = 0x30 then .ok .coprocessor
  else if tag = 0x40 then .ok .node
  else .error (.protocol (.channelTag tag))

theorem ofTag_tag (channel : Channel) : ofTag channel.tag = .ok channel := by
  cases channel <;> rfl

end Channel

/-- The size of a file and its digest of sixteen octets. -/
structure FileInfo where
  size : Nat
  digest : Bytes
  digest_length : digest.length = 16
  deriving DecidableEq, Repr

/-- The size and digest of a file with the given content. -/
def FileInfo.of (content : Bytes) : FileInfo :=
  ⟨content.length, Digest.ofBytes content, Digest.length_ofBytes content⟩

/-- What a coprocessor is told about a file. -/
def coprocessorLayout : Wire.Layout where
  name := "ncp relay metadata"
  lead := []
  fields := [⟨"file_size", .word .u32le⟩, ⟨"digest", .fixed 16⟩]

/-- What a node is told about a file. -/
def nodeLayout : Wire.Layout where
  name := "node relay metadata"
  lead := []
  fields := [⟨"file_size", .word .u32le⟩, ⟨"node_id", .word .u16be⟩, ⟨"digest", .fixed 16⟩]

/-- Where a file is relayed to. -/
inductive Target
  | bridge
  | coprocessor
  | node (id : UInt16)
  deriving DecidableEq, Repr

namespace Target

/-- The channel of the records for a target. -/
def channel : Target → Channel
  | .bridge => .bridge
  | .coprocessor => .coprocessor
  | .node _ => .node

/-- The name of a target. -/
def name : Target → String
  | .bridge => "bridge"
  | .coprocessor => "ncp"
  | .node id => s!"node {id.toNat}"

/-- The largest size that can be announced. -/
def maxFileSize : Nat := 0xffffffff

/-- What the receiver is told about the file.  A file too large to be announced is
refused for every target. -/
def metadata (target : Target) (info : FileInfo) : Except Error Bytes :=
  if info.size > maxFileSize then
    .error (.fieldOverflow "file_size" (UInt32.ofNat maxFileSize))
  else
    let size := UInt32.ofNat info.size
    match target with
    | .bridge => .ok []
    | .coprocessor => coprocessorLayout.encode [.int size, .bytes info.digest]
    | .node id => nodeLayout.encode [.int size, .int id.toUInt32, .bytes info.digest]

end Target

end Relay
end FirmwareGateway
