import FirmwareGateway.Operator.Dispatch
import FirmwareGateway.Proofs.Bridge.Carried
import FirmwareGateway.Proofs.Relay.Finishing
import FirmwareGateway.Proofs.Relay.Survey

namespace FirmwareGateway
namespace Operator

/-!
# Files that are relayed

A file is relayed over a stream of its own, or as the action of an operator over a
connection that has other work as well.  Either way a relay that finishes has announced
the size and the digest of what it delivered, and delivered the file.  Both do the same:
what they write and count is decided by the file, the target and what the peer sends,
not by the pieces in which that comes nor by the work around it.
-/

open Bridge (Handle Registry Job Answer Connection Event Submission submittedIn readIn outputOf)
open Relay (Target Sink Read Summary)

/-- Relaying a file over a stream of its own finishes and writes the given records. -/
structure Relays (files : Files) (path : String) (target : Target) (sink : Sink)
    (reads : List Read) (summary : Summary) (records : List Bytes) : Prop where
  finished : ∃ remainder,
    (Relay.runFile files path target sink reads).outcome = .finished summary remainder
  wrote : Relay.writes (Relay.runFile files path target sink reads).moves = records

section
variable {files : Files} {path : String} {content : Bytes} {target : Target}

namespace Relays

variable {sink : Sink} {reads : List Read} {summary : Summary} {records : List Bytes}

theorem delivers (relays : Relays files path target sink reads summary records)
    (found : files.read path = .ok content) :
    ∃ header data, Relay.Delivers target content records.flatten summary header data := by
  rcases relays with ⟨⟨remainder, finished⟩, rfl⟩
  rw [Relay.runFile_eq found] at finished ⊢
  exact Relay.delivers_of_finished finished

theorem again (relays : Relays files path target sink reads summary records)
    (found : files.read path = .ok content) {other : Sink} {others : List Read}
    (begins : Relay.delivered reads <+: Relay.delivered others)
    (takes : other.Takes records.length) :
    Relays files path target other others summary records := by
  rcases relays with ⟨⟨remainder, finished⟩, rfl⟩
  rw [Relay.runFile_eq found] at finished takes ⊢
  rcases Relay.run_again finished begins takes with ⟨rest, unread, ran⟩
  constructor
  · exact ⟨rest, by rw [Relay.runFile_eq found, ran]⟩
  · rw [Relay.runFile_eq found, ran]

end Relays

theorem job_of_plan (found : files.read path = .ok content) {client : UInt64}
    {snapshot : List SocketAddress} {registry : Registry Handle} {handle : Handle} {job : Job}
    (planned : plan files snapshot registry (.relay client target path) =
      .ok (.submit handle job)) :
    job = .relay target (.of content) (.ofBytes content) := by
  simp only [plan, Relay.FirmwareFile.read_eq, found, Except.map, bind, Except.bind] at planned
  cases selected : select snapshot registry client with
  | error fault =>
    rw [selected] at planned
    cases planned
  | ok chosen =>
    rw [selected] at planned
    cases planned
    rfl

/-- What came of a planned relay on a connection is what comes of relaying the file to a
peer that sends what the connection read from some time on. -/
theorem relays_of_answered (found : files.read path = .ok content) {handle : Handle}
    {start : Connection} {events : List Event} {ticket : Nat} {answer : Answer} {output : Output}
    (idle : start.phase = .idle) (queue : start.queue = []) (waiting : start.waiting = [])
    (own : ∀ submission ∈ submittedIn events, submission.ticket = ticket →
      submission.job = .relay target (.of content) (.ofBytes content))
    (answered : .answered ticket answer ∈ (start.run events).2)
    (concluded : conclude handle (.relay target (.of content) (.ofBytes content)) answer =
      .ok output) :
    ∃ summary stream records, output = .relayed handle.address summary ∧
      stream <:+ readIn events ∧
      Relays files path target .endless stream summary records ∧
      records <:+: outputOf (start.run events).2 := by
  have unfailed : ∀ fault, answer ≠ .failed fault := by
    rintro fault rfl
    cases concluded
  rcases Connection.finished_of_answered idle queue waiting own answered unfailed with
    ⟨summary, remainder, sink, reads, rfl, finished, ⟨earlier, later, split⟩, wrote⟩
  have alone : Relays files path target sink reads summary (Relay.writes
      (Relay.run target (.of content) (.ofBytes content) sink reads).moves) :=
    ⟨⟨remainder, by rw [Relay.runFile_eq found, finished]⟩, by rw [Relay.runFile_eq found]⟩
  have stream : reads ++ later <:+ readIn events := ⟨earlier, by rw [← split, List.append_assoc]⟩
  cases concluded
  exact ⟨summary, reads ++ later, _, rfl, stream,
    alone.again found (Relay.delivered_prefix reads later) nofun, wrote⟩

/-- A connection that takes up a planned relay finishes it, if relaying the file to a peer
that sends what the connection then reads finishes. -/
theorem answered_of_relays (found : files.read path = .ok content) {connection : Connection}
    {queue : List Submission} {events : List Event} {ticket : Nat} {summary : Summary}
    {records : List Bytes} (idle : connection.phase = .idle)
    (first : connection.queue =
      ⟨ticket, .relay target (.of content) (.ofBytes content)⟩ :: queue)
    (listening : .deaf ∉ events)
    (relays : Relays files path target connection.sink (readIn events) summary records) :
    .answered ticket (.relayed summary) ∈ (connection.run (.take :: events)).2 ∧
      records <+: outputOf (connection.run (.take :: events)).2 := by
  rcases relays with ⟨⟨remainder, finished⟩, rfl⟩
  rw [Relay.runFile_eq found] at finished ⊢
  exact Connection.answered_of_finished idle first listening finished

end

/-- The file that is announced is the file that is delivered, and both ways to relay it
are one.  A relay that finishes delivers the file, in the sense of `Relay.Delivers`, and
does the same for every peer that sends the same and perhaps more.  When a relay that an
operator planned comes to something on a connection, it is what comes of relaying the file
to a peer that sends what the connection read from some time on.  And a connection that
takes up the planned job finishes it if relaying the file finishes over what is then
read. -/
theorem announced_file_is_delivered {files : Files} {path : String} {content : Bytes}
    (found : files.read path = .ok content) (target : Target) :
    (∀ (sink : Sink) (reads : List Read) (summary : Summary) (records : List Bytes),
      Relays files path target sink reads summary records →
      (∃ header data, Relay.Delivers target content records.flatten summary header data) ∧
        ∀ (other : Sink) (others : List Read),
          Relay.delivered reads <+: Relay.delivered others → other.Takes records.length →
          Relays files path target other others summary records) ∧
    ∀ (client : UInt64) (snapshot : List SocketAddress) (registry : Registry Handle)
      (handle : Handle) (job : Job),
      plan files snapshot registry (.relay client target path) = .ok (.submit handle job) →
      (∀ (start : Connection) (events : List Event) (ticket : Nat) (answer : Answer)
        (output : Output), start.phase = .idle → start.queue = [] → start.waiting = [] →
        (∀ submission ∈ submittedIn events, submission.ticket = ticket → submission.job = job) →
        .answered ticket answer ∈ (start.run events).2 →
        conclude handle job answer = .ok output →
        ∃ summary stream records, output = .relayed handle.address summary ∧
          stream <:+ readIn events ∧
          Relays files path target .endless stream summary records ∧
          records <:+: outputOf (start.run events).2) ∧
      ∀ (connection : Connection) (queue : List Submission) (events : List Event) (ticket : Nat)
        (summary : Summary) (records : List Bytes), connection.phase = .idle →
        connection.queue = ⟨ticket, job⟩ :: queue → .deaf ∉ events →
        Relays files path target connection.sink (readIn events) summary records →
        .answered ticket (.relayed summary) ∈ (connection.run (.take :: events)).2 ∧
          records <+: outputOf (connection.run (.take :: events)).2 := by
  constructor
  · intro sink reads summary records relays
    exact ⟨relays.delivers found, fun other others => relays.again found⟩
  · intro client snapshot registry handle job planned
    cases job_of_plan found planned
    constructor
    · intro start events ticket answer output idle queue waiting
      exact relays_of_answered found idle queue waiting
    · intro connection queue events ticket summary records
      exact answered_of_relays found

/-- A file of three octets. -/
def threeOctets : Files := ⟨[("f", [1, 2, 3])]⟩

theorem steps_threeOctets : Files.steps "f" = ["f"] := by
  rw [Files.steps, String.splitOn, if_neg (by decide), String.splitOnAux,
    if_neg (by decide +kernel)]
  dsimp only
  rw [if_neg (by decide +kernel), String.splitOnAux, if_pos (by decide +kernel)]
  decide +kernel

theorem read_threeOctets : threeOctets.read "f" = .ok [1, 2, 3] := by
  have origin : Files.origin "f" = [] := by decide +kernel
  have next : Files.advance [] "f" = ["f"] := rfl
  have located : Files.locate "f" = ["f"] := by
    rw [Files.locate, steps_threeOctets, origin]
    rfl
  have present : threeOctets.lookup ["f"] = some (.file [1, 2, 3]) := by
    simp only [Files.lookup, threeOctets, List.find?, located, decide_true]
  have reached : threeOctets.find "f" = .ok (.file [1, 2, 3]) := by
    rw [Files.find, if_neg (by decide +kernel), if_neg (by decide +kernel),
      if_neg (by decide +kernel), steps_threeOctets, origin, Files.follow,
      if_neg (by decide +kernel), next, present]
    rfl
  rw [Files.read, reached]

/-- Pulls of two octets, of none and of five, in pieces, and status text. -/
def threePulls : List Read := [[0, 2], [0, 0, 0, 0], [0, 5, 0, 111]].map .octets

/-- The records of such a relay to a node. -/
def threeRecords : List Bytes :=
  [[64, 1, 22, 0, 3, 0, 0, 0, 0, 9, 82, 137, 223, 115, 125, 245, 115, 38, 252, 221, 34, 89, 122,
      251, 31, 172],
    [64, 0, 2, 0, 1, 2], [64, 0, 0, 0], [64, 0, 1, 0, 3], [64, 0, 0, 0]]

/-- The job of such a relay. -/
def threeJob : Job := .relay (.node 9) (.of [1, 2, 3]) (.ofBytes [1, 2, 3])

theorem announced_file_is_delivered_three_octets :
    threeOctets.read "f" = .ok [1, 2, 3] ∧
      Relays threeOctets "f" (.node 9) .endless threePulls ⟨3, 3⟩ threeRecords ∧
      (∃ header data,
        Relay.Delivers (.node 9) [1, 2, 3] threeRecords.flatten ⟨3, 3⟩ header data) ∧
      plan threeOctets [.v4 10 40000]
          (Bridge.Floor.empty.accept (.opened 1 (.v4 10 40000) 4 16)).registry
          (.relay 1 (.node 9) "f") =
        .ok (.submit ⟨1, .v4 10 40000, 0⟩ threeJob) ∧
      (∃ summary stream records,
        Output.relayed (.v4 10 40000) ⟨3, 3⟩ = .relayed (.v4 10 40000) summary ∧
          stream <:+ threePulls ∧
          Relays threeOctets "f" (.node 9) .endless stream summary records ∧
          records <:+: outputOf ((Connection.opened 1 (.v4 10 40000) 4 16).run
            (.submit ⟨0, threeJob⟩ :: .enter :: .take :: threePulls.map .read)).2) ∧
      threeRecords <+: outputOf (({ Connection.opened 1 (.v4 10 40000) 4 16 with
        queue := [⟨0, threeJob⟩] } : Connection).run (.take :: threePulls.map .read)).2 := by
  have found := read_threeOctets
  have relays : Relays threeOctets "f" (.node 9) .endless threePulls ⟨3, 3⟩ threeRecords := by
    constructor
    · rw [Relay.runFile_eq found]
      exact ⟨[111], by decide +kernel⟩
    · rw [Relay.runFile_eq found]
      decide +kernel
  have planned : plan threeOctets [.v4 10 40000]
      (Bridge.Floor.empty.accept (.opened 1 (.v4 10 40000) 4 16)).registry
      (.relay 1 (.node 9) "f") = .ok (.submit ⟨1, .v4 10 40000, 0⟩ threeJob) := by
    rw [plan, Relay.FirmwareFile.read_eq, found]
    rfl
  have answered : .answered 0 (.relayed ⟨3, 3⟩) ∈ ((Connection.opened 1 (.v4 10 40000) 4 16).run
      (.submit ⟨0, threeJob⟩ :: .enter :: .take :: threePulls.map .read)).2 := by
    decide +kernel
  rcases announced_file_is_delivered found (.node 9) with ⟨alone, shared⟩
  rcases shared _ _ _ _ _ planned with ⟨came, finishes⟩
  have own : ∀ submission ∈ submittedIn
      (.submit ⟨0, threeJob⟩ :: .enter :: .take :: threePulls.map .read),
      submission.ticket = 0 → submission.job = threeJob := by
    intro submission member _
    cases List.mem_singleton.mp member
    rfl
  exact ⟨found, relays, (alone _ _ _ _ relays).1, planned,
    came _ _ _ _ _ rfl rfl rfl own answered rfl,
    (finishes _ _ _ _ _ _ rfl rfl (by decide) relays).2⟩

end Operator
end FirmwareGateway
