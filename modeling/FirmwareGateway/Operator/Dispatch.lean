import FirmwareGateway.Bridge.Floor
import FirmwareGateway.Operator.Action
import FirmwareGateway.Wire.Envelope

namespace FirmwareGateway
namespace Operator

/-!
# Carrying out actions

An action becomes at most one job for one connection.  Whatever can fail without
the connection comes first: the file is read and the envelope is made before the
client is looked up.  A client is chosen in two looks at the registry, the list and
then the handle at the address found there, and between them anything may happen to
the registry.
-/

open Bridge (Handle Registry Job Answer)

/-- What an action comes to before any connection has done something: the list of
clients, or a job for a client. -/
inductive Plan
  | clients (addresses : List SocketAddress)
  | submit (handle : Handle) (job : Job)
  deriving DecidableEq, Repr

/-- What an action came to. -/
inductive Output
  | clients (addresses : List SocketAddress)
  | relayed (client : SocketAddress) (summary : Relay.Summary)
  | forwarded (client : SocketAddress) (octets : Nat)
  deriving DecidableEq, Repr

/-- The sequence number of every forwarded envelope. -/
def forwardSequence : UInt8 := 1

/-- The address at a place of a list, counted from one. -/
def addressAt (snapshot : List SocketAddress) (client : UInt64) : Option SocketAddress :=
  match client.toNat with
  | 0 => none
  | place + 1 => snapshot[place]?

/-- The handle of the client that has the given place in `snapshot`, as `registry`
has it now. -/
def select (snapshot : List SocketAddress) (registry : Registry Handle) (client : UInt64) :
    Except Error Handle :=
  match addressAt snapshot client with
  | none => .error (.clientIndex client)
  | some address =>
    match registry.resolve address with
    | none => .error (.unknownClient address)
    | some handle => .ok handle

/-- The packet that forwards a command to a node. -/
def forwardPacket (node : UInt16) (payload : Bytes) (secure : Bool) : Except Error Bytes := do
  let envelope ← (Wire.Envelope.around payload forwardSequence (.of .relay secure)).encode
  Wire.encodeForward node envelope

/-- What an action comes to, the list of clients being `snapshot` when it is looked
at and the registry being `registry` when the client is looked up. -/
def plan (files : Files) (snapshot : List SocketAddress) (registry : Registry Handle) :
    Action → Except Error Plan
  | .list => .ok (.clients snapshot)
  | .relay client target path => do
    let file ← Relay.FirmwareFile.read files path
    let handle ← select snapshot registry client
    return .submit handle (.relay target file.info (.ofBytes file.content))
  | .forward client node payload secure => do
    let packet ← forwardPacket node payload secure
    let handle ← select snapshot registry client
    return .submit handle (.send packet)

/-- How many octets a job sends as they are. -/
def sentBy : Job → Nat
  | .send octets => octets.length
  | _ => 0

/-- What the answer to a job means for the action.  An action waits for what its job
came to; that a connection is closing is no such answer, and the caller is told that
the connection is gone. -/
def conclude (handle : Handle) (job : Job) : Answer → Except Error Output
  | .relayed summary => .ok (.relayed handle.address summary)
  | .sent => .ok (.forwarded handle.address (sentBy job))
  | .closed => .error (.connectionClosed handle.address)
  | .failed fault => .error fault

/-! ## On the console -/

/-- The lines that tell an operator what an action came to. -/
def Output.lines : Output → List String
  | .clients [] => ["no clients connected"]
  | .clients addresses =>
    addresses.zipIdx.map fun (address, place) => s!"{place + 1}: {address.text}"
  | .relayed client summary =>
    [s!"relayed {summary.bytesSent} bytes in {summary.dataRecords} records to {client.text}"]
  | .forwarded client octets => [s!"forwarded {octets} bytes to {client.text}"]

end Operator
end FirmwareGateway
