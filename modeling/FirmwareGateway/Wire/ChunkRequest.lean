import FirmwareGateway.Wire.Command

namespace FirmwareGateway
namespace Wire

/-!
# Requests for chunks

A node asks for a run of chunks by the number of the first and by how many it
wants.  Only the last five octets of a datagram count, whatever stands before
them.  A request for no chunks asks for nothing; it also stands for the request
that did not come.
-/

/-- The layout of the last five octets of a request. -/
def chunkRequestLayout : Layout where
  name := "chunk request trailer"
  lead := []
  fields :=
    [⟨"class", .word .u8⟩, ⟨"command", .word .u8⟩, ⟨"size", .word .u8⟩, ⟨"index", .word .u16be⟩]

/-- A run of chunks that a node wants. -/
structure ChunkRequest where
  index : UInt16
  size : UInt8
  deriving DecidableEq, Repr

namespace ChunkRequest

/-- The request that asks for nothing. -/
def nothing : ChunkRequest := ⟨0, 0⟩

/-- Whether a request asks for nothing. -/
def isNothing (request : ChunkRequest) : Bool :=
  request.size == 0

/-- The number of the first chunk wanted. -/
def first (request : ChunkRequest) : Nat := request.index.toNat

/-- The number behind that of the last chunk wanted. -/
def stop (request : ChunkRequest) : Nat := request.index.toNat + request.size.toNat

/-- The numbers of the chunks wanted, in order. -/
def numbers (request : ChunkRequest) : List Nat :=
  List.range' request.first request.size.toNat

/-- The last `count` octets of a string that has as many. -/
def ending (count : Nat) (raw : Bytes) : Option Bytes :=
  if raw.length < count then none else some (raw.drop (raw.length - count))

/-- Reads a request from the end of a datagram; anything else is none. -/
def read? (raw : Bytes) : Option ChunkRequest :=
  match (ending chunkRequestLayout.fixedLength raw).map chunkRequestLayout.decode with
  | some (.ok [.int family, .int command, .int size, .int index]) =>
    if family = firmwareClass.toUInt32 ∧ command = updateGetCommand.toUInt32 then
      some ⟨index.toUInt16, size.toUInt8⟩
    else none
  | _ => none

end ChunkRequest

end Wire
end FirmwareGateway
