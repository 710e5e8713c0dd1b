import FirmwareGateway.Relay.Pull
import FirmwareGateway.Relay.Record
import FirmwareGateway.Relay.Source

namespace FirmwareGateway
namespace Relay

/-!
# Relay sessions

A session opens with a header record.  Every pull is answered with one data
record, which holds as much of what was pulled as the file still has.  The answer
to the first pull that the file cannot fill is followed by an ending record; if
the file has nothing left, the ending record is the whole answer.  What the peer
sent behind its last pull is handed back.

A session can be carried on whenever more has come from the peer.  `Turn` says
what happened meanwhile and where the session then stands.  Every record is
written at once, so it goes out whole or not at all.
-/

/-- Where records are written.  After `room` more writes, if that is a number, every
write fails. -/
structure Sink where
  room : Option Nat
  fault : IoFault
  deriving DecidableEq, Repr

namespace Sink

/-- Takes every write. -/
def endless : Sink := ⟨none, .brokenPipe⟩

/-- Takes no write, since nobody reads. -/
def broken : Sink := ⟨some 0, .brokenPipe⟩

/-- The sink after one more write. -/
def write (sink : Sink) : Except Error Sink :=
  match sink.room with
  | none => .ok sink
  | some 0 => .error (.io sink.fault)
  | some (room + 1) => .ok { sink with room := some room }

end Sink

/-- What a session sent: data records with anything in them or asked for by a pull
of nothing, and octets of the file. -/
structure Summary where
  dataRecords : Nat
  bytesSent : Nat
  deriving DecidableEq, Repr

/-- How a session ended. -/
inductive Outcome
  | finished (summary : Summary) (remainder : Bytes)
  | failed (fault : Error)
  deriving DecidableEq, Repr

/-- A session between two pulls: what is left of the file, what came of a pull that
is not yet whole, and what was sent. -/
structure Session where
  channel : Channel
  source : Source
  buffer : Bytes
  summary : Summary
  deriving DecidableEq, Repr

/-- What a session does to its stream. -/
inductive Move
  | pulled (pull : Pull)
  | wrote (bytes : Bytes)
  deriving DecidableEq, Repr

/-- Where a session stands: it waits for more from its peer, or it is over. -/
inductive Stage
  | waiting (session : Session)
  | ended (outcome : Outcome)
  deriving DecidableEq, Repr

/-- What happened, and how things stand. -/
structure Turn where
  moves : List Move
  sink : Sink
  stage : Stage
  deriving DecidableEq, Repr

/-- What was written in some moves. -/
def written (moves : List Move) : Bytes :=
  moves.flatMap fun
    | .pulled _ => []
    | .wrote bytes => bytes

namespace Turn

/-- A turn that ends in failure. -/
def failed (sink : Sink) (fault : Error) : Turn :=
  ⟨[], sink, .ended (.failed fault)⟩

/-- Goes on from where a turn left a session, if the session is not over. -/
def andThen (turn : Turn) (next : Session → Sink → Turn) : Turn :=
  match turn.stage with
  | .waiting session =>
    let later := next session turn.sink
    ⟨turn.moves ++ later.moves, later.sink, later.stage⟩
  | .ended _ => turn

/-- A turn behind an earlier move. -/
def behind (move : Move) (turn : Turn) : Turn :=
  { turn with moves := move :: turn.moves }

end Turn

namespace Session

/-- Writes a record. -/
def write (session : Session) (sink : Sink) (record : Record) : Turn :=
  match record.encode with
  | .error fault => .failed sink fault
  | .ok bytes =>
    match sink.write with
    | .error fault => .failed sink fault
    | .ok sink => ⟨[.wrote bytes], sink, .waiting session⟩

/-- Writes the ending record and hands back what came behind the last pull. -/
def finish (session : Session) (sink : Sink) (remainder : Bytes) : Turn :=
  (session.write sink (.ending session.channel)).andThen fun session sink =>
    ⟨[], sink, .ended (.finished session.summary remainder)⟩

/-- Counts a data record. -/
def count (session : Session) (chunk : Bytes) : Session :=
  { session with
    summary := ⟨session.summary.dataRecords + 1, session.summary.bytesSent + chunk.length⟩ }

/-- Answers a pull; `rest` is what came behind it. -/
def answer (session : Session) (sink : Sink) (pull : Pull) (rest : Bytes) : Turn :=
  match session.source.take pull.length.toNat with
  | .error fault => .failed sink fault
  | .ok (chunk, source) =>
    let session := { session with source := source }
    let short := decide (chunk.length < pull.length.toNat)
    if short && chunk.isEmpty then session.finish sink rest
    else
      ((session.count chunk).write sink (.data session.channel chunk)).andThen fun session sink =>
        if short then session.finish sink rest else ⟨[], sink, .waiting session⟩

/-- Answers the whole pulls at the front of some octets and keeps the rest. -/
def serve (session : Session) (sink : Sink) (octets : Bytes) : Turn :=
  match _decoded : Pull.decode octets with
  | (.error fault, _) => .failed sink fault
  | (.ok none, rest) => ⟨[], sink, .waiting { session with buffer := rest }⟩
  | (.ok (some pull), rest) =>
    ((session.answer sink pull rest).andThen fun session sink =>
      session.serve sink rest).behind (.pulled pull)
  termination_by octets.length
  decreasing_by exact Pull.decode_shorter _decoded

/-- Carries a session on with what has come from the peer. -/
def feed (session : Session) (sink : Sink) (octets : Bytes) : Turn :=
  session.serve sink (session.buffer ++ octets)

/-- How a session ends when the peer sends no more. -/
def closed (session : Session) : Outcome :=
  .failed (.peerClosed Pull.size session.buffer.length)

end Session

/-- Opens a session: announces the file and waits for pulls. -/
def start (target : Target) (info : FileInfo) (source : Source) (sink : Sink) : Turn :=
  match target.metadata info with
  | .error fault => .failed sink fault
  | .ok metadata =>
    let session : Session := ⟨target.channel, source, [], ⟨0, 0⟩⟩
    session.write sink (.header target.channel metadata)

/-! ## Whole sessions -/

/-- What reading from the peer yields: octets, of which none mean that the peer
sends no more, or a failure. -/
inductive Read
  | octets (bytes : Bytes)
  | fault (fault : IoFault)
  deriving DecidableEq, Repr

/-- A session from its opening to its end: what happened, how it ended, and what
was not read any more. -/
structure Exchange where
  moves : List Move
  outcome : Outcome
  unread : List Read
  deriving DecidableEq, Repr

/-- Carries a session on to its end. -/
def conclude : Turn → List Read → Exchange
  | ⟨moves, _, .ended outcome⟩, reads => ⟨moves, outcome, reads⟩
  | ⟨moves, _, .waiting session⟩, [] => ⟨moves, session.closed, []⟩
  | ⟨moves, _, .waiting session⟩, .octets [] :: later => ⟨moves, session.closed, later⟩
  | ⟨moves, _, .waiting _⟩, .fault fault :: later => ⟨moves, .failed (.io fault), later⟩
  | ⟨moves, sink, .waiting session⟩, .octets (octet :: octets) :: later =>
    let turn := session.feed sink (octet :: octets)
    conclude { turn with moves := moves ++ turn.moves } later

/-- A whole session over what the peer sends. -/
def run (target : Target) (info : FileInfo) (source : Source) (sink : Sink) (reads : List Read) :
    Exchange :=
  conclude (start target info source sink) reads

/-- Relays a file; nothing is written if it cannot be read. -/
def runFile (files : Files) (path : String) (target : Target) (sink : Sink) (reads : List Read) :
    Exchange :=
  match FirmwareFile.read files path with
  | .error fault => ⟨[], .failed fault, reads⟩
  | .ok file => run target file.info (.ofBytes file.content) sink reads

end Relay
end FirmwareGateway
