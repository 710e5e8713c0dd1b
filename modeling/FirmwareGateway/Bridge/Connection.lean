import FirmwareGateway.Relay.Session

namespace FirmwareGateway
namespace Bridge

/-!
# Connections

A connection reads status text from its peer and carries out the jobs submitted
for it, one after the other in the order in which they entered its queue.  While a
relay runs, everything the peer sends belongs to the relay.  The queue has a fixed
depth; a submission that finds it full waits until there is room.

A connection lives through events and answers each with effects.  When an event
happens is not for the connection to say: any order of events is possible, and an
event that makes no sense in the present phase changes nothing.  A connection that
has ended answers every submission with a refusal.
-/

/-- Work for a connection. -/
inductive Job
  | relay (target : Relay.Target) (info : Relay.FileInfo) (source : Relay.Source)
  | send (bytes : Bytes)
  | close
  deriving DecidableEq, Repr

/-- A job and the ticket under which its answer is given. -/
structure Submission where
  ticket : Nat
  job : Job
  deriving DecidableEq, Repr

/-- What a submission is answered: what its job came to, or why it failed. -/
inductive Answer
  | relayed (summary : Relay.Summary)
  | sent
  | closed
  | failed (fault : Error)
  deriving DecidableEq, Repr

/-- What a connection is doing. -/
inductive Phase
  | idle
  | relaying (ticket : Nat) (session : Relay.Session)
  | ended
  deriving DecidableEq, Repr

/-- One end of a connection with a client. -/
structure Connection where
  id : Nat
  address : SocketAddress
  depth : Nat
  bufferSize : Nat
  sink : Relay.Sink
  phase : Phase
  queue : List Submission
  waiting : List Submission
  deriving DecidableEq, Repr

/-- What can happen to a connection: a job is submitted, the first submission that
waits enters the queue, the first job in the queue is taken up, reading from the
peer yields something, or the peer stops taking what is written. -/
inductive Event
  | submit (submission : Submission)
  | enter
  | take
  | read (read : Relay.Read)
  | deaf
  deriving DecidableEq, Repr

/-- What a connection does: it reads a pull, writes, notes status text, answers a
submission, or leaves. -/
inductive Effect
  | pulled (pull : Relay.Pull)
  | wrote (bytes : Bytes)
  | noted (text : Bytes)
  | answered (ticket : Nat) (answer : Answer)
  | left
  deriving DecidableEq, Repr

/-- The effect of a move that a relay makes. -/
def Effect.ofMove : Relay.Move → Effect
  | .pulled pull => .pulled pull
  | .wrote bytes => .wrote bytes

/-- Notes status text, if there is any. -/
def note (text : Bytes) : List Effect :=
  if text.isEmpty then [] else [.noted text]

namespace Connection

/-- A connection that was just accepted.  There is always room for one job in the
queue and for one octet in the buffer. -/
def opened (id : Nat) (address : SocketAddress) (queueDepth bufferSize : Nat) : Connection where
  id := id
  address := address
  depth := max queueDepth 1
  bufferSize := max bufferSize 1
  sink := .endless
  phase := .idle
  queue := []
  waiting := []

/-- Whether a connection has ended. -/
def hasEnded (connection : Connection) : Bool :=
  match connection.phase with
  | .ended => true
  | _ => false

/-- The answer to a job that will not be carried out. -/
def refusal (connection : Connection) (submission : Submission) : Effect :=
  .answered submission.ticket (.failed (.connectionClosed connection.address))

/-- Ends a connection.  Jobs in the queue are refused, except that closing was
answered when it entered; submissions that wait are refused. -/
def leave (connection : Connection) : Connection × List Effect :=
  let unanswered := connection.queue.filter fun submission => submission.job != .close
  ({ connection with phase := .ended, queue := [], waiting := [] },
    (unanswered ++ connection.waiting).map connection.refusal ++ [.left])

/-- Whether the stream can no longer be used after a job failed so. -/
def isFatal : Error → Bool
  | .peerClosed .. => true
  | .io _ => true
  | _ => false

/-- Takes up the outcome of a relay.  Status text behind the last pull is noted.  A
failure that leaves the stream in the middle of a record ends the connection. -/
def settle (connection : Connection) (ticket : Nat) :
    Relay.Outcome → Connection × List Effect
  | .finished summary remainder =>
    ({ connection with phase := .idle },
      note remainder ++ [.answered ticket (.relayed summary)])
  | .failed fault =>
    if isFatal fault then
      let (connection, effects) := connection.leave
      (connection, .answered ticket (.failed fault) :: effects)
    else ({ connection with phase := .idle }, [.answered ticket (.failed fault)])

/-- Takes up a turn of a relay. -/
def follow (connection : Connection) (ticket : Nat) (turn : Relay.Turn) :
    Connection × List Effect :=
  let moved := turn.moves.map Effect.ofMove
  let connection := { connection with sink := turn.sink }
  match turn.stage with
  | .waiting session => ({ connection with phase := .relaying ticket session }, moved)
  | .ended outcome =>
    let (connection, effects) := connection.settle ticket outcome
    (connection, moved ++ effects)

/-- Writes octets.  Nothing is written when there are none. -/
def write (connection : Connection) (ticket : Nat) (bytes : Bytes) : Connection × List Effect :=
  if bytes.isEmpty then (connection, [.answered ticket .sent])
  else
    match connection.sink.write with
    | .ok sink =>
      ({ connection with sink := sink }, [.wrote bytes, .answered ticket .sent])
    | .error fault =>
      let (connection, effects) := connection.leave
      (connection, .answered ticket (.failed fault) :: effects)

/-- Carries out a job, or begins to. -/
def execute (connection : Connection) (submission : Submission) : Connection × List Effect :=
  match submission.job with
  | .relay target info source =>
    connection.follow submission.ticket (Relay.start target info source connection.sink)
  | .send bytes => connection.write submission.ticket bytes
  | .close => connection.leave

/-- Takes up what reading yields. -/
def receive (connection : Connection) (read : Relay.Read) : Connection × List Effect :=
  match connection.phase, read with
  | .ended, _ => (connection, [])
  | .idle, .octets [] => connection.leave
  | .idle, .fault _ => connection.leave
  | .idle, .octets (octet :: octets) => (connection, [.noted (octet :: octets)])
  | .relaying ticket session, .octets [] => connection.settle ticket session.closed
  | .relaying ticket _, .fault fault => connection.settle ticket (.failed (.io fault))
  | .relaying ticket session, .octets (octet :: octets) =>
    connection.follow ticket (session.feed connection.sink (octet :: octets))

/-- Lets the first submission that waits into the queue, if there is room.  Closing
is answered as soon as it enters. -/
def enter (connection : Connection) : Connection × List Effect :=
  match connection.waiting with
  | [] => (connection, [])
  | submission :: waiting =>
    if connection.queue.length < connection.depth then
      ({ connection with queue := connection.queue ++ [submission], waiting := waiting },
        if submission.job = .close then [.answered submission.ticket .closed] else [])
    else (connection, [])

/-- Takes up the first job in the queue, if nothing else is being done. -/
def takeUp (connection : Connection) : Connection × List Effect :=
  match connection.phase, connection.queue with
  | .idle, submission :: queue => { connection with queue := queue }.execute submission
  | _, _ => (connection, [])

/-- What an event does to a connection. -/
def step (connection : Connection) : Event → Connection × List Effect
  | .submit submission =>
    if connection.hasEnded then (connection, [connection.refusal submission])
    else ({ connection with waiting := connection.waiting ++ [submission] }, [])
  | .enter => connection.enter
  | .take => connection.takeUp
  | .read read => connection.receive read
  | .deaf => ({ connection with sink := .broken }, [])

/-- What some events do to a connection, one after the other. -/
def run (connection : Connection) : List Event → Connection × List Effect
  | [] => (connection, [])
  | event :: later =>
    let (next, effects) := connection.step event
    let (last, more) := next.run later
    (last, effects ++ more)

end Connection

end Bridge
end FirmwareGateway
