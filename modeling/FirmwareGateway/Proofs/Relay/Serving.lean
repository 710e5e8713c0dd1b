import FirmwareGateway.Proofs.Relay.Framing

namespace FirmwareGateway
namespace Relay

/-!
# Serving a stream in pieces

A session is carried on with whatever has come from its peer, so what it does must
not depend on where the stream was cut.  Serving two strings one behind the other is
serving their concatenation: what is left of the first, one or two octets of a pull,
waits in the buffer for the second.  A session that is over takes no more, and what
would have come behind its last pull goes to the remainder or stays unread.
-/

/-! ## Turns -/

namespace Turn

/-- A turn behind earlier moves. -/
def after (moves : List Move) (turn : Turn) : Turn :=
  { turn with moves := moves ++ turn.moves }

/-- A turn that leaves the session another buffer. -/
def keeping (buffer : Bytes) (turn : Turn) : Turn :=
  match turn.stage with
  | .waiting session => { turn with stage := .waiting { session with buffer := buffer } }
  | .ended _ => turn

/-- A turn that hands back more octets, if it hands any back. -/
def handing (more : Bytes) (turn : Turn) : Turn :=
  match turn.stage with
  | .ended (.finished summary remainder) =>
    { turn with stage := .ended (.finished summary (remainder ++ more)) }
  | _ => turn

/-- What becomes of a turn when more octets follow those it has seen. -/
def followedBy (more : Bytes) (turn : Turn) : Turn :=
  match turn.stage with
  | .waiting session => (session.feed turn.sink more).after turn.moves
  | .ended _ => turn.handing more

theorem after_nil (turn : Turn) : turn.after [] = turn :=
  rfl

theorem followedBy_after (more : Bytes) (moves : List Move) (turn : Turn) :
    (turn.after moves).followedBy more = (turn.followedBy more).after moves := by
  rcases turn with ⟨done, sink, stage⟩
  rcases stage with session | ⟨summary, remainder⟩ | fault
  · simp only [after, followedBy, List.append_assoc]
  · rfl
  · rfl

theorem andThen_waiting (moves : List Move) (sink : Sink) (session : Session)
    (next : Session → Sink → Turn) :
    (Turn.mk moves sink (.waiting session)).andThen next = (next session sink).after moves :=
  rfl

/-- What follows a turn may ignore the buffer that the turn leaves. -/
theorem andThen_keeping {buffer : Bytes} {next : Session → Sink → Turn}
    (ignores : ∀ session sink, next { session with buffer := buffer } sink = next session sink)
    (turn : Turn) : (turn.keeping buffer).andThen next = turn.andThen next := by
  rcases turn with ⟨moves, sink, stage⟩
  cases stage with
  | waiting session =>
    simp only [keeping, andThen_waiting]
    rw [ignores]
  | ended outcome => rfl

/-- What follows a turn may hand the turn's buffer on. -/
theorem keeping_andThen {buffer : Bytes} {next : Session → Sink → Turn}
    (commutes : ∀ session sink,
      next { session with buffer := buffer } sink = (next session sink).keeping buffer)
    (turn : Turn) : (turn.keeping buffer).andThen next = (turn.andThen next).keeping buffer := by
  rcases turn with ⟨moves, sink, stage⟩
  cases stage with
  | ended outcome => rfl
  | waiting session =>
    simp only [keeping, andThen_waiting]
    rw [commutes]
    rcases next session sink with ⟨later, sink, stage⟩
    cases stage <;> rfl

/-- What follows a turn may hand back more. -/
theorem handing_andThen {more : Bytes} {next handed : Session → Sink → Turn}
    (hands : ∀ session sink, handed session sink = (next session sink).handing more)
    {turn : Turn}
    (waits : ∀ outcome, turn.stage = .ended outcome → ∃ fault, outcome = .failed fault) :
    turn.andThen handed = (turn.andThen next).handing more := by
  rcases turn with ⟨moves, sink, stage⟩
  cases stage with
  | ended outcome =>
    rcases waits outcome rfl with ⟨fault, rfl⟩
    rfl
  | waiting session =>
    simp only [andThen_waiting, hands]
    rcases next session sink with ⟨later, sink, stage⟩
    rcases stage with session | ⟨summary, remainder⟩ | fault <;> rfl

end Turn

namespace Session

/-! ## The buffer plays no part while pulls are answered -/

theorem write_keeping (session : Session) (buffer : Bytes) (sink : Sink) (record : Record) :
    ({ session with buffer := buffer }).write sink record =
      (session.write sink record).keeping buffer := by
  simp only [write]
  cases record.encode with
  | error fault => rfl
  | ok bytes => cases sink.write <;> rfl

theorem finish_keeping (session : Session) (buffer : Bytes) (sink : Sink) (remainder : Bytes) :
    ({ session with buffer := buffer }).finish sink remainder =
      (session.finish sink remainder).keeping buffer := by
  simp only [finish, write_keeping]
  apply Turn.keeping_andThen
  intro session sink
  rfl

theorem answer_keeping (session : Session) (buffer : Bytes) (sink : Sink) (pull : Pull)
    (rest : Bytes) :
    ({ session with buffer := buffer }).answer sink pull rest =
      (session.answer sink pull rest).keeping buffer := by
  simp only [answer]
  cases session.source.take pull.length.toNat with
  | error fault => rfl
  | ok taken =>
    rcases taken with ⟨chunk, source⟩
    by_cases nothing : (decide (chunk.length < pull.length.toNat) && chunk.isEmpty) = true
    · simp only [if_pos nothing]
      exact finish_keeping { session with source := source } buffer sink rest
    · simp only [if_neg nothing]
      rw [← Turn.keeping_andThen]
      · rw [← write_keeping]
        rfl
      · intro session sink
        by_cases short : decide (chunk.length < pull.length.toNat) = true
        · simp only [if_pos short]
          exact finish_keeping session buffer sink rest
        · simp only [if_neg short]
          rfl

/-! ## One step of serving -/

theorem serve_short (session : Session) (sink : Sink) {octets : Bytes}
    (short : octets.length < Pull.size) :
    session.serve sink octets = ⟨[], sink, .waiting { session with buffer := octets }⟩ := by
  fun_cases serve session sink octets with
  | case1 fault rest decoded => cases (Pull.decode_short short).symm.trans decoded
  | case2 rest decoded =>
    cases (Pull.decode_short short).symm.trans decoded
    rfl
  | case3 pull rest decoded => cases (Pull.decode_short short).symm.trans decoded

theorem serve_octets (session : Session) (sink : Sink) (type low high : UInt8) (rest : Bytes) :
    session.serve sink (type :: low :: high :: rest) =
      ((session.answer sink (.ofOctets type low high) rest).andThen fun session sink =>
        session.serve sink rest).after [.pulled (.ofOctets type low high)] := by
  have whole := Pull.decode_octets type low high rest
  fun_cases serve session sink (type :: low :: high :: rest) with
  | case1 fault behind decoded => cases whole.symm.trans decoded
  | case2 behind decoded => cases whole.symm.trans decoded
  | case3 pull behind decoded =>
    cases whole.symm.trans decoded
    rfl

/-- Serving never looks at the buffer it finds. -/
theorem serve_keeping (session : Session) (buffer : Bytes) (sink : Sink) (octets : Bytes) :
    ({ session with buffer := buffer }).serve sink octets = session.serve sink octets := by
  induction size : octets.length using Nat.strongRecOn generalizing session sink octets with
  | ind length ih =>
    rcases Pull.short_or_octets octets with short | ⟨type, low, high, rest, rfl⟩
    · rw [serve_short _ sink short, serve_short _ sink short]
    · rw [serve_octets, serve_octets, answer_keeping, Turn.andThen_keeping]
      intro session sink
      apply ih rest.length _ session sink rest rfl
      rw [← size]
      exact Nat.lt_add_of_pos_right (by decide : 0 < 3)

/-! ## Cutting the stream -/

theorem write_ended {session : Session} {sink : Sink} {record : Record} {outcome : Outcome}
    (ended : (session.write sink record).stage = .ended outcome) :
    ∃ fault, outcome = .failed fault := by
  simp only [write] at ended
  cases encoded : record.encode with
  | error fault =>
    simp only [encoded, Turn.failed, Stage.ended.injEq] at ended
    exact ⟨fault, ended.symm⟩
  | ok bytes =>
    cases wrote : sink.write with
    | error fault =>
      simp only [encoded, wrote, Turn.failed, Stage.ended.injEq] at ended
      exact ⟨fault, ended.symm⟩
    | ok sink => simp only [encoded, wrote, reduceCtorEq] at ended

theorem finish_append (session : Session) (sink : Sink) (remainder more : Bytes) :
    session.finish sink (remainder ++ more) = (session.finish sink remainder).handing more := by
  simp only [finish]
  apply Turn.handing_andThen
  · intro session sink
    rfl
  · intro outcome ended
    exact write_ended ended

/-- What stands behind a pull plays no part in the answer, except that it is handed
back when the answer is the last. -/
theorem answer_append (session : Session) (sink : Sink) (pull : Pull) (rest more : Bytes) :
    session.answer sink pull (rest ++ more) = (session.answer sink pull rest).handing more := by
  simp only [answer]
  cases session.source.take pull.length.toNat with
  | error fault => rfl
  | ok taken =>
    rcases taken with ⟨chunk, source⟩
    by_cases nothing : (decide (chunk.length < pull.length.toNat) && chunk.isEmpty) = true
    · simp only [if_pos nothing]
      exact finish_append _ sink rest more
    · simp only [if_neg nothing]
      apply Turn.handing_andThen
      · intro session sink
        by_cases short : decide (chunk.length < pull.length.toNat) = true
        · simp only [if_pos short]
          exact finish_append session sink rest more
        · simp only [if_neg short]
          rfl
      · intro outcome ended
        exact write_ended ended

/-- Serving two strings is serving the first and then feeding the second. -/
theorem serve_append (session : Session) (sink : Sink) (octets more : Bytes) :
    session.serve sink (octets ++ more) = (session.serve sink octets).followedBy more := by
  induction size : octets.length using Nat.strongRecOn generalizing session sink octets with
  | ind length ih =>
    rcases Pull.short_or_octets octets with short | ⟨type, low, high, rest, rfl⟩
    · rw [serve_short session sink short]
      simp only [Turn.followedBy, feed, serve_keeping, Turn.after_nil]
    · have shorter : rest.length < length := by
        rw [← size]
        exact Nat.lt_add_of_pos_right (by decide : 0 < 3)
      simp only [List.cons_append]
      rw [serve_octets, serve_octets, answer_append, Turn.followedBy_after]
      congr 1
      rcases session.answer sink (.ofOctets type low high) rest with ⟨moves, sink, stage⟩
      rcases stage with session | ⟨summary, remainder⟩ | fault
      · simp only [Turn.handing, Turn.andThen_waiting, Turn.followedBy_after]
        rw [ih rest.length shorter session sink rest rfl]
      · rfl
      · rfl

theorem feed_append (session : Session) (sink : Sink) (octets more : Bytes) :
    session.feed sink (octets ++ more) = (session.feed sink octets).followedBy more := by
  simp only [feed]
  rw [← List.append_assoc, serve_append]

/-- A session that waits holds less than a pull. -/
theorem short_of_serve_waiting {session waiting : Session} {sink : Sink} {octets : Bytes}
    (waits : (session.serve sink octets).stage = .waiting waiting) :
    waiting.buffer.length < Pull.size := by
  induction size : octets.length using Nat.strongRecOn generalizing session sink octets with
  | ind length ih =>
    rcases Pull.short_or_octets octets with short | ⟨type, low, high, rest, rfl⟩
    · rw [serve_short session sink short] at waits
      simp only [Stage.waiting.injEq] at waits
      rw [← waits]
      exact short
    · rw [serve_octets] at waits
      generalize session.answer sink (.ofOctets type low high) rest = turn at waits
      rcases turn with ⟨moves, sink, stage⟩
      cases stage with
      | ended outcome => cases waits
      | waiting session =>
        refine ih rest.length ?_ waits rfl
        rw [← size]
        exact Nat.lt_add_of_pos_right (by decide : 0 < 3)

end Session

/-- A session that ends while a stream is served whole ends in the same way when the
stream comes in pieces.  Of the octets behind the last pull, some are handed back and
the pieces that nobody asked for stay unread. -/
theorem conclude_pieces {session : Session} {sink last : Sink} {pieces : List Bytes}
    {done : List Move} {summary : Summary} {remainder : Bytes}
    (short : session.buffer.length < Pull.size) (nonempty : ∀ piece ∈ pieces, piece ≠ [])
    (whole : session.feed sink pieces.flatten = ⟨done, last, .ended (.finished summary remainder)⟩)
    (moves : List Move) (later : List Read) :
    ∃ read unread kept, pieces = read ++ unread ∧ remainder = kept ++ unread.flatten ∧
      conclude ⟨moves, sink, .waiting session⟩ (pieces.map .octets ++ later) =
        ⟨moves ++ done, .finished summary kept, unread.map .octets ++ later⟩ := by
  induction pieces generalizing session sink moves done with
  | nil =>
    simp only [List.flatten_nil, Session.feed, List.append_nil] at whole
    rw [Session.serve_short session sink short] at whole
    cases whole
  | cons piece pieces ih =>
    rcases List.exists_cons_of_ne_nil (nonempty piece List.mem_cons_self) with ⟨octet, octets, rfl⟩
    have waits : ∀ next, (session.feed sink (octet :: octets)).stage = .waiting next →
        next.buffer.length < Pull.size := fun _ stage => Session.short_of_serve_waiting stage
    rw [List.flatten_cons, Session.feed_append] at whole
    simp only [List.map_cons, List.cons_append, conclude]
    generalize session.feed sink (octet :: octets) = turn at whole waits ⊢
    rcases turn with ⟨first, between, stage⟩
    rcases stage with next | ⟨total, kept⟩ | fault
    · simp only [Turn.followedBy] at whole
      generalize fed : next.feed between pieces.flatten = turn at whole
      rcases turn with ⟨rest, end', stage⟩
      cases whole
      have others : ∀ each ∈ pieces, each ≠ [] := by
        intro each member
        exact nonempty each (List.mem_cons_of_mem _ member)
      rcases ih (waits next rfl) others fed (moves ++ first) with
        ⟨read, unread, kept, split, back, concluded⟩
      refine ⟨(octet :: octets) :: read, unread, kept, ?_, back, ?_⟩
      · rw [split, List.cons_append]
      · rw [concluded, List.append_assoc]
    · cases whole
      refine ⟨[octet :: octets], pieces, kept, rfl, rfl, ?_⟩
      simp only [conclude]
    · cases whole

end Relay
end FirmwareGateway
