import FirmwareGateway.Bridge.Pipe
import FirmwareGateway.Operator.Dispatch

namespace FirmwareGateway
namespace Operator

/-!
# A gateway on the bench

On the bench every connection has a peer at the other end of a pipe in memory, and
the operator's actions and the peers' writes come one by one.  After each of them
everything runs until nothing can go on, and then it is seen what happened.
-/

open Bridge (Handle Floor Connection Event Effect Submission Job Answer Pipe nextEvents)

/-- Who is told the answer to a job: an action, for which the job was made, or a
direct call. -/
inductive Caller
  | action (handle : Handle) (job : Job)
  | direct
  deriving DecidableEq, Repr

/-- What a job came to. -/
inductive Completion
  | output (output : Output)
  | done
  | failed (fault : Error)
  deriving DecidableEq, Repr

/-- What the answer to a job means to its caller. -/
def Caller.complete : Caller → Answer → Completion
  | .action handle job, answer =>
    match conclude handle job answer with
    | .ok output => .output output
    | .error fault => .failed fault
  | .direct, .failed fault => .failed fault
  | .direct, _ => .done

/-- A gateway with its peers. -/
structure Bench where
  files : Files
  floor : Floor
  pipes : List Pipe
  peers : List (String × Nat)
  held : List (String × Handle)
  jobs : List (Nat × Caller)
  ticket : Nat
  deriving DecidableEq, Repr

/-- What is done to a gateway on the bench. -/
inductive Command
  | connect (peer : String) (address : SocketAddress) (id queueDepth bufferSize : Nat)
  | line (text : String)
  | act (action : Action)
  | hold (address : SocketAddress) (name : String)
  | send (handle : String) (bytes : Bytes)
  | close (handle : String)
  | write (peer : String) (bytes : Bytes) (thenDrop : Bool)
  | drop (peer : String)
  deriving DecidableEq, Repr

/-- What a command says at once. -/
inductive Reply
  | nothing
  | refused (fault : Error)
  | absent
  | present (handle : Handle)
  | written
  | pipeClosed
  deriving DecidableEq, Repr

/-- What is seen after a command: its reply, the jobs that ended and those that have
not, what reached the peers, which peers see the end of their stream, the status
lines, and the clients. -/
structure Sight where
  reply : Reply
  finished : List (Nat × Completion)
  pending : List Nat
  received : List (String × Bytes)
  ended : List String
  status : List String
  clients : List SocketAddress
  deriving DecidableEq, Repr

/-- A bench and what has been seen of the command being carried out. -/
structure Running where
  bench : Bench
  reply : Reply
  finished : List (Nat × Completion)
  effects : List (Nat × Effect)

/-- The line that notes status text from a client. -/
def statusLine (address : SocketAddress) (text : Bytes) : String :=
  s!"Received from {address.text} len {text.length}: {Text.lossyText text}"

namespace Running

/-- Nothing seen yet. -/
def begin (bench : Bench) : Running := ⟨bench, .nothing, [], []⟩

/-- Lets an event happen to the connection at a place. -/
def happen (running : Running) (place : Nat) (event : Event) : Running :=
  let (floor, effects) := running.bench.floor.step place event
  { running with
    bench := { running.bench with floor := floor }
    effects := running.effects ++ effects.map (place, ·) }

/-- Changes the pipe at a place. -/
def setPipe (running : Running) (place : Nat) (pipe : Pipe) : Running :=
  { running with bench := { running.bench with pipes := running.bench.pipes.set place pipe } }

/-- Lets the connection at a place go on, at most as many times as `rounds` says. -/
def goOn (place : Nat) : Nat → Running → Running
  | 0, running => running
  | rounds + 1, running =>
    match running.bench.floor.connections[place]?, running.bench.pipes[place]? with
    | some connection, some pipe =>
      match nextEvents connection pipe with
      | ([], _) => running
      | (events, pipe) =>
        goOn place rounds (events.foldl (·.happen place ·) (running.setPipe place pipe))
    | _, _ => running

/-- A bound on how often a connection can go on: every time it reads an octet,
takes up a job, lets a submission enter, or ends. -/
def roundsAt (running : Running) (place : Nat) : Nat :=
  match running.bench.floor.connections[place]?, running.bench.pipes[place]? with
  | some connection, some pipe =>
    pipe.pending.length + connection.queue.length + 2 * connection.waiting.length + 1
  | _, _ => 0

/-- Lets every connection go on as far as it can. -/
def settle (running : Running) : Running :=
  (List.range running.bench.floor.connections.length).foldl
    (fun running place => goOn place (running.roundsAt place) running) running

/-- Submits a job under the ticket of the command. -/
def submit (running : Running) (caller : Caller) (handle : Handle) (job : Job) : Running :=
  let ticket := running.bench.ticket
  let jobs := running.bench.jobs ++ [(ticket, caller)]
  { running with bench := { running.bench with jobs := jobs } }.happen handle.place
    (.submit ⟨ticket, job⟩)

/-- Ends the job of the command before it reaches a connection. -/
def finish (running : Running) (completion : Completion) : Running :=
  { running with finished := running.finished ++ [(running.bench.ticket, completion)] }

/-- Begins an action. -/
def act (running : Running) (action : Action) : Running :=
  let registry := running.bench.floor.registry
  match plan running.bench.files registry.list registry action with
  | .error fault => running.finish (.failed fault)
  | .ok (.clients addresses) => running.finish (.output (.clients addresses))
  | .ok (.submit handle job) => running.submit (.action handle job) handle job

/-- Drops a peer's end of its connection. -/
def dropPeer (running : Running) (peer : String) : Running :=
  match running.bench.peers.lookup peer with
  | none => running
  | some place =>
    let peers := running.bench.peers.filter fun held => held.1 != peer
    let running := { running with bench := { running.bench with peers := peers } }
    match running.bench.pipes[place]? with
    | none => running
    | some pipe => (running.setPipe place { pipe with dropped := true }).happen place .deaf

/-- Lets a peer write. -/
def write (running : Running) (peer : String) (bytes : Bytes) : Running :=
  match running.bench.peers.lookup peer with
  | none => { running with reply := .pipeClosed }
  | some place =>
    match running.bench.floor.connections[place]?, running.bench.pipes[place]? with
    | some connection, some pipe =>
      if connection.hasEnded && !bytes.isEmpty then { running with reply := .pipeClosed }
      else
        { running with reply := .written }.setPipe place
          { pipe with pending := pipe.pending ++ bytes }
    | _, _ => { running with reply := .pipeClosed }

/-- Accepts a connection with a peer at its other end. -/
def connect (running : Running) (peer : String) (connection : Connection) : Running :=
  let bench := (running.dropPeer peer).bench
  { running with bench := { bench with
      floor := bench.floor.accept connection
      pipes := bench.pipes ++ [⟨[], false⟩]
      peers := bench.peers ++ [(peer, bench.floor.connections.length)] } }

/-- Looks a client up and keeps its handle under a name. -/
def hold (running : Running) (address : SocketAddress) (name : String) : Running :=
  match running.bench.floor.registry.resolve address with
  | none => { running with reply := .absent }
  | some handle =>
    let held := (name, handle) :: running.bench.held
    { running with bench := { running.bench with held := held }, reply := .present handle }

/-- Submits a job to the connection of a handle that is kept. -/
def callDirectly (running : Running) (name : String) (job : Job) : Running :=
  match running.bench.held.lookup name with
  | none => running
  | some handle => running.submit .direct handle job

/-- Carries out a command, up to where connections go on. -/
def obey (running : Running) : Command → Running
  | .connect peer address id queueDepth bufferSize =>
    running.connect peer (.opened id address queueDepth bufferSize)
  | .line text =>
    match Action.parse text with
    | .error fault => { running with reply := .refused fault }
    | .ok action => running.act action
  | .act action => running.act action
  | .hold address name => running.hold address name
  | .send handle bytes => running.callDirectly handle (.send bytes)
  | .close handle => running.callDirectly handle .close
  | .write peer bytes thenDrop =>
    let running := running.write peer bytes
    if thenDrop then running.dropPeer peer else running
  | .drop peer => running.dropPeer peer

end Running

/-! ## What is seen -/

/-- Everything written on the connection at a place. -/
def writtenAt (place : Nat) (effects : List (Nat × Effect)) : Bytes :=
  effects.flatMap fun
    | (here, .wrote bytes) => if here = place then bytes else []
    | _ => []

/-- The jobs that were answered. -/
def completions (jobs : List (Nat × Caller)) (effects : List (Nat × Effect)) :
    List (Nat × Completion) :=
  effects.filterMap fun
    | (_, .answered ticket answer) =>
      (jobs.lookup ticket).map fun caller => (ticket, caller.complete answer)
    | _ => none

/-- The status lines that were noted. -/
def statusLines (connections : List Connection) (effects : List (Nat × Effect)) : List String :=
  effects.filterMap fun
    | (place, .noted text) => connections[place]?.map fun c => statusLine c.address text
    | _ => none

namespace Bench

/-- A gateway without clients. -/
def empty (files : Files) : Bench := ⟨files, .empty, [], [], [], [], 0⟩

/-- The names of the peers whose connection has ended, in order. -/
def endedPeers (bench : Bench) : List String :=
  let ended := bench.peers.filter fun (_, place) =>
    (bench.floor.connections[place]?.map Connection.hasEnded).getD false
  (ended.map Prod.fst).mergeSort fun a b => decide (a ≤ b)

/-- Carries out a command and lets everything go on as far as it can. -/
def perform (bench : Bench) (command : Command) : Sight × Bench :=
  let running := ((Running.begin bench).obey command).settle
  let bench := running.bench
  let finished := running.finished ++ completions bench.jobs running.effects
  let jobs := bench.jobs.filter fun job => !(finished.any fun ended => ended.1 == job.1)
  let received := bench.peers.map fun (peer, place) => (peer, writtenAt place running.effects)
  let sight : Sight := {
    reply := running.reply
    finished := finished
    pending := jobs.map Prod.fst
    received := received.filter fun (_, bytes) => !bytes.isEmpty
    ended := bench.endedPeers
    status := statusLines bench.floor.connections running.effects
    clients := bench.floor.registry.list }
  (sight, { bench with jobs := jobs, ticket := bench.ticket + 1 })

/-- Carries out commands one by one. -/
def performAll (bench : Bench) : List Command → List Sight
  | [] => []
  | command :: rest =>
    let (sight, bench) := bench.perform command
    sight :: performAll bench rest

end Bench

end Operator
end FirmwareGateway
