import FirmwareGateway.Proofs.Relay.Carrying

namespace FirmwareGateway
namespace Relay

/-!
# What a session takes of its stream

A session takes its stream as pulls of three octets, in order.  Of what it has read, the
rest is in its buffer while it waits, and it hands the rest back when it has finished.
Only a session that fails loses octets, and then they are the last that it has read.
-/

namespace Pull

/-- A pull as it stands in the stream. -/
def octets (pull : Pull) : Bytes :=
  pull.type :: Bytes.littleEndian 2 pull.length.toNat

theorem octets_ofOctets (type low high : UInt8) :
    (ofOctets type low high).octets = [type, low, high] := by
  have small : Bytes.fromLittleEndian [low, high] < 256 ^ 2 :=
    Bytes.fromLittleEndian_lt [low, high]
  have length : (ofOctets type low high).length.toNat = Bytes.fromLittleEndian [low, high] :=
    UInt16.toNat_ofNat_of_lt' (Nat.lt_of_lt_of_le small (by decide))
  rw [octets, length]
  exact congrArg (type :: ·) (Bytes.littleEndian_fromLittleEndian [low, high])

/-- The first pulls of a stream and what stands behind them are the stream. -/
theorem flatMap_octets_append_drop {octets : Bytes} {first later : List Pull}
    (pulls : stream octets = first ++ later) :
    first.flatMap Pull.octets ++ octets.drop (3 * first.length) = octets := by
  induction first generalizing octets with
  | nil => rfl
  | cons pull first ih =>
    rcases stream_eq_cons pulls with ⟨type, low, high, rest, rfl, rfl, read⟩
    rw [List.flatMap_cons, octets_ofOctets, List.length_cons, Nat.mul_succ, List.append_assoc]
    exact congrArg ([type, low, high] ++ ·) (ih read)

end Pull

/-- What of the octets that it has read a session did not take: it still has them, or
hands them back. -/
def Stage.rest : Stage → Bytes
  | .waiting session => session.buffer
  | .ended (.finished _ remainder) => remainder
  | .ended (.failed _) => []

/-- The outcome of a session that is over. -/
def Stage.outcome? : Stage → Option Outcome
  | .waiting _ => none
  | .ended outcome => some outcome

/-- What reading yields to whoever reads. -/
def Read.content : Read → Bytes
  | .octets bytes => bytes
  | .fault _ => []

/-- The failures in the middle of a session: reading or writing fails, or the peer is
gone. -/
inductive Severs : Error → Prop
  | io (fault : IoFault) : Severs (.io fault)
  | peerClosed (need got : Nat) : Severs (.peerClosed need got)

/-- Some octets are those that a turn took as pulls and the rest, except that a session
which fails loses some. -/
def Turn.Conserves (turn : Turn) (octets : Bytes) : Prop :=
  ∃ lost, octets = (taken turn.moves).flatMap Pull.octets ++ turn.stage.rest ++ lost ∧
    (lost ≠ [] → ∃ fault, turn.stage = .ended (.failed fault) ∧ Severs fault)

namespace Turn

/-- A session that fails may lose anything. -/
theorem conserves_of_failed {moves : List Move} {sink : Sink} {fault : Error} {octets lost : Bytes}
    (severs : Severs fault) (split : (taken moves).flatMap Pull.octets ++ lost = octets) :
    Turn.Conserves ⟨moves, sink, .ended (.failed fault)⟩ octets := by
  refine ⟨lost, ?_, fun _ => ⟨fault, rfl, severs⟩⟩
  rw [Stage.rest, List.append_nil, split]

/-- Nothing is lost where the octets are those that were taken and the rest. -/
theorem conserves_of_rest {turn : Turn} {octets : Bytes}
    (split : (taken turn.moves).flatMap Pull.octets ++ turn.stage.rest = octets) :
    turn.Conserves octets :=
  ⟨[], by rw [List.append_nil, split], fun some => absurd rfl some⟩

end Turn

namespace Session

/-- An answer takes no pull, and hands back what stands behind its own if it finishes the
session. -/
theorem AnswerEnds.rest {session : Session} {pull : Pull} {remainder : Bytes} {sink : Sink}
    {turn : Turn} {outcome : Outcome} (ends : session.AnswerEnds pull remainder sink turn)
    (stopped : turn.stage = .ended outcome) :
    taken turn.moves = [] ∧
      (turn.stage.rest = remainder ∨ ∃ fault, turn.stage = .ended (.failed (.io fault))) := by
  cases ends with
  | filled sink enough => cases stopped
  | finished sink summary faultless overdrawn => exact ⟨taken_records _, Or.inl rfl⟩
  | unread fault faulty overdrawn => exact ⟨rfl, Or.inr ⟨_, rfl⟩⟩
  | refused sent unsent fault records more readable =>
    exact ⟨taken_records _, Or.inr ⟨fault, rfl⟩⟩

theorem conserves_serve (session : Session) (sink : Sink) (octets : Bytes) :
    (session.serve sink octets).Conserves octets := by
  have ends := session.serve_ends sink octets
  generalize session.serve sink octets = turn at ends ⊢
  cases ends with
  | waits served sink pulls within =>
    have whole : Pull.stream octets = served ++ [] := by rw [pulls, List.append_nil]
    apply Turn.conserves_of_rest
    rw [taken_replies]
    exact Pull.flatMap_octets_append_drop whole
  | stops served last more sink turn outcome pulls within ends stopped =>
    have split : (served ++ [last]).flatMap Pull.octets ++ octets.drop (3 * (served.length + 1)) =
        octets := by
      have first : Pull.stream octets = (served ++ [last]) ++ more := by
        rw [pulls, List.append_assoc]
        rfl
      have whole := Pull.flatMap_octets_append_drop first
      rwa [List.length_append] at whole
    rcases ends.rest stopped with ⟨none, rest⟩
    have pulled : taken (turn.after
        (replies session.channel session.source.content served ++ [.pulled last])).moves =
          served ++ [last] := by
      rw [Turn.after, taken_append, taken_append, taken_replies, none, List.append_nil]
      rfl
    rw [← pulled] at split
    rcases turn with ⟨moves, left, stage⟩
    rcases rest with handed | ⟨fault, failed⟩
    · apply Turn.conserves_of_rest
      rw [← handed] at split
      exact split
    · cases failed
      exact Turn.conserves_of_failed (.io fault) split

/-- What a session held and what it read are what it took and what is left. -/
theorem conserves_hear (session : Session) (sink : Sink) (read : Read) :
    (session.hear sink read).Conserves (session.buffer ++ read.content) := by
  rcases read with (_ | ⟨octet, octets⟩) | fault
  · rw [Read.content, List.append_nil]
    exact Turn.conserves_of_failed (.peerClosed _ _) (List.nil_append session.buffer)
  · exact session.conserves_serve sink (session.buffer ++ octet :: octets)
  · rw [Read.content, List.append_nil]
    exact Turn.conserves_of_failed (.io fault) (List.nil_append session.buffer)

/-- A session that waits behind a read has less than a pull. -/
theorem short_of_hear {session next : Session} {sink : Sink} {read : Read}
    (waits : (session.hear sink read).stage = .waiting next) :
    next.buffer.length < Pull.size := by
  rcases read with (_ | ⟨octet, octets⟩) | fault
  · cases waits
  · exact short_of_serve_waiting waits
  · cases waits

end Session

theorem conserves_start (target : Target) (info : FileInfo) (source : Source) (sink : Sink) :
    (start target info source sink).Conserves [] := by
  apply Turn.conserves_of_rest
  rcases start_failed_or_announced target info source sink with
    ⟨fault, failed⟩ | ⟨-, later, rfl, announced⟩
  · rw [failed]
    rfl
  · rw [announced]
    rfl

/-- A session that was just opened has read nothing. -/
theorem buffer_of_start {target : Target} {info : FileInfo} {source : Source} {sink : Sink}
    {session : Session} (waits : (start target info source sink).stage = .waiting session) :
    session.buffer = [] := by
  rcases start_failed_or_announced target info source sink with
    ⟨fault, failed⟩ | ⟨-, later, rfl, announced⟩
  · rw [failed] at waits
    cases waits
  · rw [announced] at waits
    cases waits
    rfl

end Relay
end FirmwareGateway
