import FirmwareGateway.Bridge.Connection

namespace FirmwareGateway
namespace Bridge

/-!
# Connections over pipes

A peer in the same process writes into a pipe and can drop its end of it.  A
connection on a pipe goes on as follows.  When it is idle it takes up a job if one
is in its queue; otherwise it reads what the peer wrote, as much as its buffer holds
at a time.  When it relays it reads all there is.  When there is nothing to read and
the peer has dropped its end, reading finds the end of the stream.  Only a
connection that can do none of this lets waiting submissions into its queue, and
then as many as there is room for.
-/

/-- The peer's end of a connection: what it wrote that was not read yet, and whether
it was dropped. -/
structure Pipe where
  pending : Bytes
  dropped : Bool
  deriving DecidableEq, Repr

/-- How many waiting submissions there is room for. -/
def admissible (connection : Connection) : Nat :=
  min connection.waiting.length (connection.depth - connection.queue.length)

/-- What reading yields, `most` octets at most, and what it leaves in the pipe. -/
def readFrom (pipe : Pipe) (most : Nat) : Option (Relay.Read × Pipe) :=
  if pipe.pending.isEmpty then
    if pipe.dropped then some (.octets [], pipe) else none
  else some (.octets (pipe.pending.take most), { pipe with pending := pipe.pending.drop most })

/-- The events with which a connection goes on, none when it cannot, and the pipe
after them. -/
def nextEvents (connection : Connection) (pipe : Pipe) : List Event × Pipe :=
  let entering := List.replicate (admissible connection) Event.enter
  match connection.phase with
  | .ended => ([], pipe)
  | .idle =>
    if connection.queue.isEmpty then
      match readFrom pipe connection.bufferSize with
      | some (read, pipe) => ([.read read], pipe)
      | none => (entering, pipe)
    else ([.take], pipe)
  | .relaying _ _ =>
    match readFrom pipe pipe.pending.length with
    | some (read, pipe) => ([.read read], pipe)
    | none => (entering, pipe)

end Bridge
end FirmwareGateway
