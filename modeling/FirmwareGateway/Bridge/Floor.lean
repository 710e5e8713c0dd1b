import FirmwareGateway.Bridge.Connection
import FirmwareGateway.Bridge.Registry

namespace FirmwareGateway
namespace Bridge

/-!
# The bridge server's floor

The floor holds every connection that was accepted, in the order of acceptance,
and the registry of those that can be reached.  A connection is registered when it
is accepted and takes its own registration away when it leaves; a later connection
from the same address has its own and keeps it.
-/

/-- Where clients connect, how many jobs may wait for one of them, and how many
octets of status text are read at once. -/
structure Settings where
  listen : SocketAddress := .v4 0 8000
  queueDepth : Nat := 8
  bufferSize : Nat := 1024
  deriving DecidableEq, Repr

/-- Refuses settings that make no sense. -/
def Settings.validate (settings : Settings) : Except Error Unit :=
  if settings.queueDepth = 0 then .error (.configuration .queueDepth)
  else if settings.bufferSize = 0 then .error (.configuration .receiveBuffer)
  else .ok ()

/-- What a registry holds of a connection: its identity and its place on the floor. -/
structure Handle where
  id : Nat
  address : SocketAddress
  place : Nat
  deriving DecidableEq, Repr

/-- All connections and the registry. -/
structure Floor where
  registry : Registry Handle
  connections : List Connection
  deriving DecidableEq, Repr

namespace Floor

/-- A floor without connections. -/
def empty : Floor := ⟨.empty, []⟩

/-- Accepts a connection and registers it. -/
def accept (floor : Floor) (connection : Connection) : Floor :=
  let handle : Handle := ⟨connection.id, connection.address, floor.connections.length⟩
  ⟨(floor.registry.register connection.address handle).2, floor.connections ++ [connection]⟩

/-- The registry after a connection did something. -/
def deregister (registry : Registry Handle) (connection : Connection) (effects : List Effect) :
    Registry Handle :=
  if effects.contains .left then
    (registry.unregisterIf connection.address fun handle => handle.id == connection.id).2
  else registry

/-- What an event does to the connection at a place. -/
def step (floor : Floor) (place : Nat) (event : Event) : Floor × List Effect :=
  match floor.connections[place]? with
  | none => (floor, [])
  | some connection =>
    let (next, effects) := connection.step event
    (⟨deregister floor.registry connection effects, floor.connections.set place next⟩, effects)

end Floor

end Bridge
end FirmwareGateway
