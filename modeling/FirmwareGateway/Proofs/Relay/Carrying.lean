import FirmwareGateway.Proofs.Relay.Endings

namespace FirmwareGateway
namespace Relay

/-!
# Sessions carried on read by read

A session that shares its stream with other work is not run in one go.  It is opened,
it hears one read after the other, and in between only its state is kept.  A session
that waits has come as far as a whole session comes over the same reads, and this does
not depend on where the sink would give out later.
-/

namespace Session

/-- What one read from the peer does to a session. -/
def hear (session : Session) (sink : Sink) : Read → Turn
  | .octets [] => ⟨[], sink, .ended session.closed⟩
  | .octets (octet :: octets) => session.feed sink (octet :: octets)
  | .fault fault => .failed sink (.io fault)

end Session

theorem conclude_hear (moves : List Move) (sink : Sink) (session : Session) (read : Read)
    (later : List Read) :
    conclude ⟨moves, sink, .waiting session⟩ (read :: later) =
      conclude ((session.hear sink read).after moves) later := by
  rcases read with (_ | ⟨octet, octets⟩) | fault
  · rw [Session.hear, Turn.after, List.append_nil]
    cases later <;> rfl
  · rfl
  · rw [Session.hear, Turn.failed, Turn.after, List.append_nil]
    cases later <;> rfl

theorem conclude_ended {turn : Turn} {outcome : Outcome} (stopped : turn.stage = .ended outcome)
    (later : List Read) : conclude turn later = ⟨turn.moves, outcome, later⟩ := by
  rcases turn with ⟨moves, sink, stage⟩
  cases stopped
  cases later <;> rfl

/-! ## Every write takes one from the room of the sink -/

/-- A turn that began with the given sink took as much room as it wrote. -/
def Turn.Spends (turn : Turn) (sink : Sink) : Prop :=
  sink = turn.sink.ahead (writes turn.moves).length

theorem Turn.spends_of_still {sink : Sink} {stage : Stage} : Turn.Spends ⟨[], sink, stage⟩ sink :=
  sink.ahead_zero.symm

namespace Session

theorem AnswerEnds.spends {session : Session} {pull : Pull} {remainder : Bytes} {sink : Sink}
    {turn : Turn} (ends : session.AnswerEnds pull remainder sink turn) : turn.Spends sink := by
  cases ends with
  | filled sink enough => rfl
  | finished sink summary faultless overdrawn =>
    rw [Turn.Spends, writes_records, List.length_map]
  | unread fault faulty overdrawn => exact Turn.spends_of_still
  | refused sent unsent fault records more readable =>
    rw [Turn.Spends, writes_records, List.length_map, Sink.ahead, Option.map_some, Nat.zero_add]

theorem ServeEnds.spends {session : Session} {octets : Bytes} {sink : Sink} {turn : Turn}
    (ends : session.ServeEnds octets sink turn) : turn.Spends sink := by
  cases ends with
  | waits served sink pulls within =>
    rw [Turn.Spends, writes_replies, List.length_map, length_filled]
  | stops served last more sink turn outcome pulls within ends stopped =>
    have spent : sink = turn.sink.ahead (writes turn.moves).length := ends.spends
    rw [Turn.Spends, Turn.after, writes_append, writes_append, writes_replies, List.length_append,
      List.length_append, List.length_map, length_filled, writes_pulled]
    change _ = turn.sink.ahead (served.length + 0 + _)
    rw [Nat.add_zero, Nat.add_comm, ← Sink.ahead_ahead, ← spent]

theorem hear_spends (session : Session) (sink : Sink) (read : Read) :
    (session.hear sink read).Spends sink := by
  rcases read with (_ | ⟨octet, octets⟩) | fault
  · exact Turn.spends_of_still
  · exact (session.serve_ends sink (session.buffer ++ octet :: octets)).spends
  · exact Turn.spends_of_still

/-- A session that waits behind a read would do so with any sink that takes as much. -/
theorem hear_elsewhere {session next : Session} {sink : Sink} {read : Read}
    (waits : (session.hear sink read).stage = .waiting next) (other : Sink) :
    session.hear (other.ahead (writes (session.hear sink read).moves).length) read =
      ⟨(session.hear sink read).moves, other, .waiting next⟩ := by
  rcases read with (_ | ⟨octet, octets⟩) | fault
  · cases waits
  · have ends := session.serve_ends sink (session.buffer ++ octet :: octets)
    simp only [hear, feed] at waits ⊢
    generalize session.serve sink (session.buffer ++ octet :: octets) = turn at waits ends ⊢
    cases ends with
    | waits served sink pulls within =>
      cases waits
      rw [writes_replies, List.length_map, length_filled]
      exact session.serve_through pulls within other
    | stops served last more sink turn outcome pulls within ends stopped =>
      cases stopped.symm.trans waits
  · cases waits

end Session

/-! ## From the opening on -/

section
variable {target : Target} {info : FileInfo} {source : Source}

/-- A session either fails before anything is written or announces the file. -/
theorem start_failed_or_announced (target : Target) (info : FileInfo) (source : Source)
    (sink : Sink) :
    (∃ fault, start target info source sink = .failed sink fault) ∨
      info.size ≤ Target.maxFileSize ∧ ∃ later : Sink, sink = later.ahead 1 ∧
        start target info source sink =
          ⟨[.wrote (target.opening info).octets], later, .waiting (.opened target source)⟩ := by
  by_cases announceable : info.size ≤ Target.maxFileSize
  · rw [start_eq source announceable]
    rcases sink.full_or_ahead with ⟨fault, rfl⟩ | ⟨later, rfl⟩
    · left
      exact ⟨.io fault, Session.write_full _ fault (length_opening_le target info)⟩
    · right
      exact ⟨announceable, later, rfl, Session.write_ahead _ later (length_opening_le target info)⟩
  · left
    refine ⟨overflow, ?_⟩
    have refused : target.metadata info = .error overflow :=
      if_pos (Nat.lt_of_not_le announceable)
    simp only [start, refused]

theorem start_spends (target : Target) (info : FileInfo) (source : Source) (sink : Sink) :
    (start target info source sink).Spends sink := by
  rcases start_failed_or_announced target info source sink with
    ⟨fault, failed⟩ | ⟨-, later, rfl, announced⟩
  · rw [failed]
    exact Turn.spends_of_still
  · rw [announced]
    rfl

theorem run_of_start_ended {sink : Sink} {outcome : Outcome}
    (stopped : (start target info source sink).stage = .ended outcome) (later : List Read) :
    run target info source sink later =
      ⟨(start target info source sink).moves, outcome, later⟩ :=
  conclude_ended stopped later

/-- A session that waits behind some reads, having made some moves. -/
def Underway (target : Target) (info : FileInfo) (source : Source) (reads : List Read)
    (moves : List Move) (session : Session) : Prop :=
  ∀ (sink : Sink) (later : List Read),
    run target info source (sink.ahead (writes moves).length) (reads ++ later) =
      conclude ⟨moves, sink, .waiting session⟩ later

theorem underway_start {sink : Sink} {session : Session}
    (waits : (start target info source sink).stage = .waiting session) :
    Underway target info source [] (start target info source sink).moves session := by
  rcases start_failed_or_announced target info source sink with
    ⟨fault, failed⟩ | ⟨announceable, left, rfl, announced⟩
  · rw [failed] at waits
    cases waits
  · rw [announced] at waits ⊢
    cases waits
    intro other later
    change run target info source (other.ahead 1) later = _
    rw [run, start_eq source announceable,
      Session.write_ahead _ other (length_opening_le target info)]

namespace Underway

variable {reads : List Read} {moves : List Move} {session : Session}

theorem hear (underway : Underway target info source reads moves session) {sink : Sink}
    {read : Read} {next : Session} (waits : (session.hear sink read).stage = .waiting next) :
    Underway target info source (reads ++ [read]) (moves ++ (session.hear sink read).moves)
      next := by
  intro other later
  rw [writes_append, List.length_append, Nat.add_comm, ← Sink.ahead_ahead, List.append_assoc,
    underway, List.cons_append, conclude_hear, Session.hear_elsewhere waits other]
  rfl

theorem hear_ended (underway : Underway target info source reads moves session) {sink : Sink}
    {read : Read} {outcome : Outcome}
    (stopped : (session.hear sink read).stage = .ended outcome) (later : List Read) :
    run target info source (sink.ahead (writes moves).length) (reads ++ [read] ++ later) =
      ⟨moves ++ (session.hear sink read).moves, outcome, later⟩ := by
  have ended : ((session.hear sink read).after moves).stage = .ended outcome := stopped
  rw [List.append_assoc, underway, List.cons_append, conclude_hear]
  exact conclude_ended ended later

/-- A session that waits takes up whatever is read next. -/
theorem unread (underway : Underway target info source reads moves session) (sink : Sink)
    (read : Read) :
    (run target info source (sink.ahead (writes moves).length) (reads ++ [read])).unread = [] := by
  rw [underway, conclude_hear]
  rcases (session.hear sink read).after moves with ⟨moves, left, waiting | outcome⟩ <;> rfl

theorem moves_eq (underway : Underway target info source reads moves session) (sink : Sink) :
    (run target info source (sink.ahead (writes moves).length) reads).moves = moves := by
  have ran := underway sink []
  rw [List.append_nil] at ran
  rw [ran]
  rfl

end Underway

end

end Relay
end FirmwareGateway
