import FirmwareGateway.Wire.Layout

namespace FirmwareGateway
namespace Relay

/-!
# Pulls

The receiver of a relay paces it by pulls of three octets: a record type, which is
not looked at, and how many octets it wants.  Pulls are read from the front of a
buffer that holds what has come so far; one that is not yet whole stays there.
-/

/-- The layout of a pull. -/
def pullLayout : Wire.Layout where
  name := "relay pull request"
  lead := []
  fields := [⟨"record_type", .word .u8⟩, ⟨"length", .word .u16le⟩]

/-- A request for the next octets of the file. -/
structure Pull where
  type : UInt8
  length : UInt16
  deriving DecidableEq, Repr

namespace Pull

/-- The octets of a pull. -/
def size : Nat := pullLayout.fixedLength

/-- The pull whose fields hold the given values. -/
def ofValues? : List Wire.Value → Option Pull
  | [.int type, .int length] => some ⟨type.toUInt8, length.toUInt16⟩
  | _ => none

/-- Takes a pull from the front of a buffer, if a whole one is there, and leaves
what is behind it. -/
def decode (buffer : Bytes) : Except Error (Option Pull) × Bytes :=
  if (buffer.take size).length < size then (.ok none, buffer)
  else
    match pullLayout.decode (buffer.take size) with
    | .error fault => (.error fault, buffer)
    | .ok values => (.ok (ofValues? values), buffer.drop size)

/-- Takes a pull from the front of a buffer to which nothing more will come. -/
def decodeAtEnd (buffer : Bytes) : Except Error (Option Pull) × Bytes :=
  match decode buffer with
  | (.ok none, rest) =>
    if rest.isEmpty then (.ok none, rest) else (.error (.peerClosed size rest.length), rest)
  | decoded => decoded

/-- A pull taken from a buffer shortens it. -/
theorem decode_shorter {buffer rest : Bytes} {pull : Pull}
    (decoded : decode buffer = (.ok (some pull), rest)) : rest.length < buffer.length := by
  by_cases short : (buffer.take size).length < size
  · rw [decode, if_pos short] at decoded
    cases decoded
  · rw [decode, if_neg short] at decoded
    cases read : pullLayout.decode (buffer.take size) with
    | error fault =>
      rw [read] at decoded
      cases decoded
    | ok values =>
      rw [read] at decoded
      have behind : buffer.drop size = rest := congrArg Prod.snd decoded
      have positive : size = 3 := rfl
      rw [List.length_take] at short
      rw [← behind, List.length_drop]
      omega

end Pull

end Relay
end FirmwareGateway
