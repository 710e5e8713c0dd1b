import FirmwareGateway.Proofs.Relay.Finishing
import FirmwareGateway.Proofs.Relay.Intake

namespace FirmwareGateway
namespace Relay

/-!
# How a session leaves its stream

A session that has finished leaves its stream behind an ending record.  One that fails
either has not touched the stream, because the file is too large to be announced, or the
stream itself gave out: the peer is gone, or reading or writing failed.  There is no
other failure.
-/

section
variable {target : Target} {info : FileInfo} {source : Source} {sink : Sink} {reads : List Read}

/-- Whatever a session fails with behind its announcement, its stream or its file failed. -/
theorem Cause.severs {exchange : Exchange} {sent : List Record} {fault : Error}
    (cause : Cause info source sink reads exchange sent fault)
    (announceable : info.size ≤ Target.maxFileSize) : Severs fault := by
  cases cause with
  | unannounced large still unread => exact absurd large (Nat.not_lt.mpr announceable)
  | closed => exact .peerClosed _ _
  | unreadable => exact .io _
  | unwritable => exact .io _
  | unsourced => exact .io _

/-- A session fails before it touches its stream, or its stream is severed. -/
theorem unannounced_or_severed {fault : Error}
    (failed : (run target info source sink reads).outcome = .failed fault) :
    (Target.maxFileSize < info.size ∧
      run target info source sink reads = ⟨[], .failed overflow, reads⟩ ∧ fault = overflow) ∨
    info.size ≤ Target.maxFileSize ∧ Severs fault := by
  by_cases announceable : info.size ≤ Target.maxFileSize
  · right
    refine ⟨announceable, ?_⟩
    rcases sink.full_or_ahead with ⟨refusal, rfl⟩ | ⟨later, rfl⟩
    · rw [run_full source announceable] at failed
      cases failed
      exact .io refusal
    · rcases (run_announced source announceable later reads).failed failed with ⟨sent, -, cause⟩
      exact cause.severs announceable
  · left
    have large := Nat.lt_of_not_le announceable
    have ran : run target info source sink reads = ⟨[], .failed overflow, reads⟩ :=
      run_large source large sink reads
    rw [ran] at failed
    cases failed
    exact ⟨large, ran, rfl⟩

/-- The last that a session writes which finishes is the ending record. -/
theorem ends_with_ending {summary : Summary} {remainder : Bytes}
    (finished : (run target info source sink reads).outcome = .finished summary remainder) :
    ∃ earlier, writes (run target info source sink reads).moves =
      earlier ++ [(Record.ending target.channel).octets] := by
  rcases conversation_of_finished finished with ⟨-, -, served, last, -, -, moves, -⟩
  rw [moves, writes_conversation, transcript_eq_portions, ← List.cons_append, List.map_append]
  exact ⟨_, rfl⟩

/-- What came to a session that finishes is the pulls it took, what it hands back, and what
it did not read any more. -/
theorem read_of_finished {summary : Summary} {remainder : Bytes}
    (finished : (run target info source sink reads).outcome = .finished summary remainder) :
    reads.flatMap Read.content =
      (taken (run target info source sink reads).moves).flatMap Pull.octets ++ remainder ++
        (run target info source sink reads).unread.flatMap Read.content := by
  rcases overdraws_of_finished finished with ⟨announceable, -⟩
  rcases sink.full_or_ahead with ⟨refusal, rfl⟩ | ⟨left, rfl⟩
  · rw [run_full source announceable] at finished
    cases finished
  · have concludes : Concludes (Session.opened target source) left [] _ reads _ :=
      run_announced source announceable left reads
    generalize run target info source (left.ahead 1) reads = exchange at concludes finished ⊢
    cases concludes with
    | cut pieces later unread turn waiting fault nonempty split served waits cut => cases finished
    | stopped pieces later turn outcome nonempty split served ended =>
      cases finished
      have conserves := (Session.opened target source).conserves_serve left ([] ++ pieces.flatten)
      rw [served, List.nil_append] at conserves
      rcases conserves with ⟨lost, conserved, severed⟩
      have kept : lost = [] := by
        apply Decidable.byContradiction
        intro some
        rcases severed some with ⟨fault, failed, -⟩
        cases failed.symm.trans ended
      have content : (pieces.map Read.octets).flatMap Read.content = pieces.flatten := by
        rw [List.flatMap_map]
        exact List.flatMap_id
      rw [ended, kept, List.append_nil] at conserved
      rw [split, List.flatMap_append, content, conserved]
      rfl

end

end Relay
end FirmwareGateway
