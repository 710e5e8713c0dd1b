import FirmwareGateway.Operator.Bench
import FirmwareGateway.Proofs.Bridge.Carried
import FirmwareGateway.Proofs.Bridge.Intake
import FirmwareGateway.Proofs.Bridge.Registration
import FirmwareGateway.Proofs.Operator.Selection
import FirmwareGateway.Proofs.Relay.Survey
import FirmwareGateway.Proofs.Wire.Octets

namespace FirmwareGateway

/-!
# What an action does to the connections

What can fail without a connection fails before a connection is touched: first the file, then
the number of the client.  An action that comes to nothing, and one that lists the clients, leave
everything as it is.  A command that is forwarded is one job for one connection, and what that
job writes reads back as the node and as the command in its envelope.
-/

namespace Wire

/-- The octets of a packet for a node, written out. -/
def forwardOctets (node : UInt16) (inner : Bytes) : Bytes :=
  [0x10] ++ Bytes.littleEndian 2 node.toNat ++ inner

theorem encodeForward_eq (node : UInt16) (inner : Bytes) :
    encodeForward node inner = .ok (forwardOctets node inner) := by
  have fits : node.toUInt32.toNat < Nat.pow 256 Word.u16le.width := by
    rw [UInt16.toNat_toUInt32]
    exact node.toNat_lt
  apply Layout.encode_eq_ok
  simp only [Layout.write, forwardLayout, Layout.writeFields,
    Layout.writeField_word _ _ _ _ fits, Word.write, UInt16.toNat_toUInt32, List.isEmpty_nil,
    Layout.writeField_tail, List.length_cons, List.length_nil, if_true, forwardOctets,
    List.append_nil, List.append_assoc]
  rfl

end Wire

theorem Files.io_of_read {files : Files} {path : String} {fault : Error}
    (failed : files.read path = .error fault) : ∃ cause, fault = .io cause := by
  rw [read] at failed
  cases located : files.find path with
  | error cause =>
    rw [located] at failed
    cases failed
    exact ⟨cause, rfl⟩
  | ok place =>
    rw [located] at failed
    cases place with
    | file content => cases failed
    | directory here =>
      cases failed
      exact ⟨.isDirectory, rfl⟩

namespace Operator

open Bridge (Handle Registry Connection Event Job Submission Answer submittedIn outputOf)

/-! ## What an action is planned to be -/

/-- The octets of a command on its way to a node, written out. -/
def packet (node : UInt16) (payload : Bytes) (secure : Bool) : Bytes :=
  Wire.forwardOctets node
    (Wire.Envelope.around payload forwardSequence (.of .relay secure)).octets

theorem forwardPacket_eq (node : UInt16) (payload : Bytes) (secure : Bool) :
    forwardPacket node payload secure = .ok (packet node payload secure) := by
  rw [forwardPacket, Wire.Envelope.encode_eq]
  exact Wire.encodeForward_eq _ _

/-- What a packet holds: a node, and a command in an envelope of the relay. -/
structure Carries (packet : Bytes) (node : UInt16) (payload : Bytes) (secure : Bool) : Prop where
  length : packet.length = 10 + payload.length
  read : ∃ inner, Wire.forwardLayout.decode packet = .ok [.int node.toUInt32, .bytes inner] ∧
    Wire.Envelope.decode? inner = some ⟨.of .relay secure, 1, 0, 0, payload⟩

theorem carries_packet (node : UInt16) (payload : Bytes) (secure : Bool) :
    Carries (packet node payload secure) node payload secure where
  length := by
    simp only [packet, Wire.forwardOctets, Wire.Envelope.octets, Wire.Envelope.around,
      List.length_append, List.length_cons, List.length_nil, Bytes.length_littleEndian]
    omega
  read := ⟨_, Wire.Layout.decode_of_encode (Wire.encodeForward_eq _ _),
    Wire.Envelope.decode?_octets _⟩

section
variable {files : Files} {snapshot : List SocketAddress} {registry : Registry Handle}
  {client : UInt64}

theorem plan_relay_of_unread {target : Relay.Target} {path : String} {fault : Error}
    (failed : files.read path = .error fault) :
    plan files snapshot registry (.relay client target path) = .error fault := by
  rw [plan, Relay.FirmwareFile.read_eq, failed]
  rfl

theorem plan_relay_of_read {target : Relay.Target} {path : String} {content : Bytes}
    (found : files.read path = .ok content) :
    plan files snapshot registry (.relay client target path) =
      (select snapshot registry client).map fun handle =>
        .submit handle (.relay target (.of content) (.ofBytes content)) := by
  rw [plan, Relay.FirmwareFile.read_eq, found]
  rfl

theorem plan_forward (node : UInt16) (payload : Bytes) (secure : Bool) :
    plan files snapshot registry (.forward client node payload secure) =
      (select snapshot registry client).map fun handle =>
        .submit handle (.send (packet node payload secure)) := by
  rw [plan, forwardPacket_eq]
  rfl

end

/-! ## What beginning it changes -/

/-- An action came to something at once, and nothing else has happened. -/
structure Untouched (running after : Running) (completion : Completion) : Prop where
  bench : after.bench = running.bench
  effects : after.effects = running.effects
  finished : after.finished = running.finished ++ [(running.bench.ticket, completion)]

/-- A job was submitted to the connection of a handle, and nothing else has happened. -/
structure Submits (running after : Running) (handle : Handle) (job : Job) : Prop where
  registry : after.bench.floor.registry = running.bench.floor.registry
  others : ∀ place, place ≠ handle.place →
    after.bench.floor.connections[place]? = running.bench.floor.connections[place]?
  here : ∀ connection, running.bench.floor.connections[handle.place]? = some connection →
    after.bench.floor.connections[handle.place]? =
        some (connection.step (.submit ⟨running.bench.ticket, job⟩)).1 ∧
      after.effects = running.effects ++
        (connection.step (.submit ⟨running.bench.ticket, job⟩)).2.map (handle.place, ·)
  finished : after.finished = running.finished

/-- A submission is put to wait or refused, and neither makes a connection leave. -/
theorem left_not_mem_submit (connection : Connection) (submission : Submission) :
    .left ∉ (connection.step (.submit submission)).2 := by
  rw [Connection.step]
  cases connection.hasEnded with
  | true =>
    intro left
    cases List.mem_singleton.mp left
  | false => exact List.not_mem_nil

section
variable {running : Running} {action : Action}

theorem untouched_of_error {fault : Error}
    (failed : plan running.bench.files running.bench.floor.registry.list
      running.bench.floor.registry action = .error fault) :
    Untouched running (running.act action) (.failed fault) := by
  simp only [Running.act, failed]
  exact ⟨rfl, rfl, rfl⟩

theorem untouched_of_list (running : Running) :
    Untouched running (running.act .list)
      (.output (.clients running.bench.floor.registry.list)) :=
  ⟨rfl, rfl, rfl⟩

theorem submits_submit (running : Running) (caller : Caller) (handle : Handle) (job : Job) :
    Submits running (running.submit caller handle job) handle job := by
  have floor : (running.submit caller handle job).bench.floor = (running.bench.floor.step
      handle.place (.submit ⟨running.bench.ticket, job⟩)).1 := rfl
  have effects : (running.submit caller handle job).effects = running.effects ++
      (running.bench.floor.step handle.place (.submit ⟨running.bench.ticket, job⟩)).2.map
        (handle.place, ·) := rfl
  cases found : running.bench.floor.connections[handle.place]? with
  | none =>
    simp only [Bridge.Floor.step, found] at floor effects
    constructor
    case registry => rw [floor]
    case others =>
      intro place different
      rw [floor]
    case here =>
      intro connection present
      cases found.symm.trans present
    case finished => rfl
  | some connection =>
    constructor
    case registry =>
      rw [floor, Bridge.Floor.step_eq found]
      exact Bridge.Floor.deregister_of_stays (left_not_mem_submit connection _)
    case others =>
      intro place different
      rw [floor, Bridge.Floor.other_found found _ different.symm]
    case here =>
      intro here present
      cases found.symm.trans present
      rw [floor, effects, Bridge.Floor.next_found found]
      simp only [Bridge.Floor.step, found, and_self]
    case finished => rfl

theorem submits_of_plan {handle : Handle} {job : Job}
    (planned : plan running.bench.files running.bench.floor.registry.list
      running.bench.floor.registry action = .ok (.submit handle job)) :
    Submits running (running.act action) handle job := by
  simp only [Running.act, planned]
  exact submits_submit running _ handle job

end

/-! ## What comes of a packet -/

/-- Octets that were submitted under a ticket of their own, and whose answer completes the action,
were written at once, and as many are reported. -/
theorem forwarded_of_answered {start : Connection} {events : List Event} {ticket : Nat}
    {octets : Bytes} {answer : Answer} {handle : Handle} {output : Output}
    (idle : start.phase = .idle) (queue : start.queue = []) (waiting : start.waiting = [])
    (own : ∀ submission ∈ submittedIn events, submission.ticket = ticket →
      submission.job = .send octets)
    (nonempty : octets ≠ []) (answered : .answered ticket answer ∈ (start.run events).2)
    (completes : (Caller.action handle (.send octets)).complete answer = .output output) :
    output = .forwarded handle.address octets.length ∧
      octets ∈ outputOf (start.run events).2 := by
  have unfailed : ∀ fault, answer ≠ .failed fault := by
    rintro fault rfl
    cases completes
  have unclosed : answer ≠ .closed := by
    rintro rfl
    cases completes
  rcases Connection.carried_of_answered idle queue waiting answered unclosed unfailed with
    ⟨execution, carried, same, came⟩
  have job := own execution.submission carried.submitted same
  have some : ¬ octets.isEmpty = true := mt List.isEmpty_iff.mp nonempty
  have written := carried.written
  simp only [Bridge.Execution.answer?, job, if_neg some] at came
  simp only [Bridge.Execution.output, job, if_neg some] at written
  cases wrote : execution.sink.write with
  | ok sink =>
    simp only [wrote, Option.some.injEq] at came written
    subst came
    cases completes
    exact ⟨rfl, written.subset List.mem_cons_self⟩
  | error fault =>
    simp only [wrote, Option.some.injEq] at came
    exact absurd came.symm (unfailed fault)

/-- What can fail without a connection fails first.  A file that is not read fails a relay
whatever the client is.  If the file is read, or a command is to be forwarded, a number that
stands for no client is what fails.  An action that fails so, and one that lists the clients,
changes nothing.  A command for a client that is there is submitted to its connection as one
packet, and to no other connection.  If that comes to something, the packet was written at once,
and its length is reported. -/
theorem fails_untouched_or_forwards :
    (∀ (files : Files) (path : String) (fault : Error), files.read path = .error fault →
      (∃ cause, fault = .io cause) ∧
      ∀ snapshot registry client target,
        plan files snapshot registry (.relay client target path) = .error fault) ∧
    (∀ (files : Files) (snapshot : List SocketAddress) (registry : Registry Handle)
      (client : UInt64), client = 0 ∨ snapshot.length < client.toNat →
      (∀ target path content, files.read path = .ok content →
        plan files snapshot registry (.relay client target path) = .error (.clientIndex client)) ∧
      ∀ node payload secure,
        plan files snapshot registry (.forward client node payload secure) =
          .error (.clientIndex client)) ∧
    ∀ running : Running,
      let files := running.bench.files
      let registry := running.bench.floor.registry
      (∀ action fault, plan files registry.list registry action = .error fault →
        Untouched running (running.act action) (.failed fault)) ∧
      Untouched running (running.act .list) (.output (.clients registry.list)) ∧
      ∀ client node payload secure handle, select registry.list registry client = .ok handle →
        let job : Job := .send (packet node payload secure)
        let submitted : Event := .submit ⟨running.bench.ticket, job⟩
        let after := running.act (.forward client node payload secure)
        Carries (packet node payload secure) node payload secure ∧
        Submits running after handle job ∧
        ∀ (start : Connection) (earlier later : List Event) (answer : Answer) (output : Output),
          start.phase = .idle → start.queue = [] → start.waiting = [] →
          running.bench.floor.connections[handle.place]? = some (start.run earlier).1 →
          (∀ submission ∈ submittedIn (earlier ++ later),
            submission.ticket ≠ running.bench.ticket) →
          after.bench.floor.connections[handle.place]? =
              some (start.run (earlier ++ [submitted])).1 ∧
          (.answered running.bench.ticket answer ∈
              (start.run (earlier ++ [submitted] ++ later)).2 →
            (Caller.action handle job).complete answer = .output output →
            output = .forwarded handle.address (10 + payload.length) ∧
              packet node payload secure ∈
                outputOf (start.run (earlier ++ [submitted] ++ later)).2) := by
  refine ⟨?_, ?_, ?_⟩
  · intro files path fault failed
    exact ⟨Files.io_of_read failed, fun _ _ _ _ => plan_relay_of_unread failed⟩
  · intro files snapshot registry client nobody
    have refused : select snapshot registry client = .error (.clientIndex client) :=
      select_eq_clientIndex_iff.mpr nobody
    constructor
    · intro target path content found
      rw [plan_relay_of_read found, refused]
      rfl
    · intro node payload secure
      rw [plan_forward, refused]
      rfl
  · intro running files registry
    refine ⟨fun _ _ => untouched_of_error, untouched_of_list running, ?_⟩
    intro client node payload secure handle selected job submitted after
    have carries := carries_packet node payload secure
    have submits : Submits running after handle job := by
      apply submits_of_plan
      rw [plan_forward, selected]
      rfl
    refine ⟨carries, submits, ?_⟩
    intro start earlier later answer output idle queue waiting found fresh
    constructor
    · rw [(submits.here _ found).1, Connection.run_concat]
    · intro answered completes
      have own : ∀ submission ∈ submittedIn (earlier ++ [submitted] ++ later),
          submission.ticket = running.bench.ticket → submission.job = job := by
        intro submission among same
        rw [Bridge.submittedIn_append] at fresh
        rw [Bridge.submittedIn_append, Bridge.submittedIn_append] at among
        rcases List.mem_append.mp among with among | after
        · rcases List.mem_append.mp among with before | now
          · exact absurd same (fresh submission (List.mem_append_left _ before))
          · cases List.mem_singleton.mp now
            rfl
        · exact absurd same (fresh submission (List.mem_append_right _ after))
      have nonempty : packet node payload secure ≠ [] := by
        rw [← List.length_pos_iff, carries.length]
        omega
      rw [← carries.length]
      exact forwarded_of_answered idle queue waiting own nonempty answered completes

/-- A gateway with one client, whose seventh command is to come. -/
def oneClient : Running :=
  .begin { Bench.empty ⟨[]⟩ with
    floor := Bridge.Floor.empty.accept (.opened 1 (.v4 10 40000) 4 16)
    ticket := 7 }

/-- A file without a name is not there, and neither is a second client.  A command for the first
is forwarded while another job is submitted behind it. -/
theorem fails_untouched_or_forwards_one_client :
    Untouched oneClient (oneClient.act (.relay 9 .bridge "")) (.failed (.io .notFound)) ∧
      Untouched oneClient (oneClient.act (.forward 2 5 [0x25, 1, 0] true))
        (.failed (.clientIndex 2)) ∧
      Submits oneClient (oneClient.act (.forward 1 5 [0x25, 1, 0] true)) ⟨1, .v4 10 40000, 0⟩
        (.send [0x10, 5, 0, 0x23, 2, 0x80, 0x50, 1, 0, 0, 0x25, 1, 0]) ∧
      [0x10, 5, 0, 0x23, 2, 0x80, 0x50, 1, 0, 0, 0x25, 1, 0] ∈
        outputOf ((Connection.opened 1 (.v4 10 40000) 4 16).run
          [.submit ⟨7, .send [0x10, 5, 0, 0x23, 2, 0x80, 0x50, 1, 0, 0, 0x25, 1, 0]⟩,
            .submit ⟨8, .close⟩, .enter, .take]).2 := by
  rcases fails_untouched_or_forwards with ⟨unread, nobody, acts⟩
  have missing : oneClient.bench.files.read "" = .error (.io .notFound) := rfl
  have second := (nobody oneClient.bench.files oneClient.bench.floor.registry.list
    oneClient.bench.floor.registry 2 (Or.inr (by decide))).2 5 [0x25, 1, 0] true
  rcases acts oneClient with ⟨refuses, -, forwards⟩
  rcases forwards 1 5 [0x25, 1, 0] true ⟨1, .v4 10 40000, 0⟩ rfl with ⟨-, submits, answers⟩
  have written := (answers (.opened 1 (.v4 10 40000) 4 16) []
    [.submit ⟨8, .close⟩, .enter, .take] .sent (.forwarded (.v4 10 40000) 13) rfl rfl rfl rfl
    (by decide)).2 (by decide +kernel) rfl
  exact ⟨refuses _ _ ((unread _ _ _ missing).2 _ _ _ _), refuses _ _ second, submits, written.2⟩

end Operator
end FirmwareGateway
