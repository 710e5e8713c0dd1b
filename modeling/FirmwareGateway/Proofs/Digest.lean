import FirmwareGateway.Digest

namespace FirmwareGateway
namespace Digest

/-!
# Digests of messages that come in pieces

What is known of a message that comes in pieces depends on the octets that have come and
not on the pieces.  `Progress.Holds` says so; it holds before anything has come, a piece
keeps it, and the digest that is finished from it is the digest of the whole message.
-/

theorem absorbAll_append {blocks : Nat} {octets : Bytes} (state : State) (more : Bytes)
    (enough : 64 * blocks ≤ octets.length) :
    absorbAll blocks state (octets ++ more) = absorbAll blocks state octets := by
  induction blocks generalizing state octets with
  | zero => rfl
  | succ blocks ih =>
    have first : 64 ≤ octets.length := by omega
    have others : 64 * blocks ≤ (octets.drop 64).length := by
      rw [List.length_drop]
      omega
    rw [absorbAll, absorbAll, List.take_append_of_le_length first,
      List.drop_append_of_le_length first, ih _ others]

theorem absorbAll_add (first second : Nat) (state : State) (octets : Bytes) :
    absorbAll (first + second) state octets =
      absorbAll second (absorbAll first state octets) (octets.drop (64 * first)) := by
  induction first generalizing state octets with
  | zero => rw [Nat.zero_add]; rfl
  | succ first ih =>
    rw [Nat.succ_add, absorbAll, ih, List.drop_drop, absorbAll, Nat.mul_succ, Nat.add_comm 64]

/-- How many blocks a message has, and how many more with what comes behind it. -/
theorem blocks_append (message more : Bytes) :
    (message ++ more).length / 64 = message.length / 64 +
      (message.drop (64 * (message.length / 64)) ++ more).length / 64 := by
  rw [List.length_append, List.length_append, List.length_drop]
  omega

/-- What comes behind a message is absorbed with what the whole blocks of the message
left. -/
theorem absorbAll_behind (state : State) (message more : Bytes) :
    absorbAll ((message ++ more).length / 64) state (message ++ more) =
      absorbAll ((message.drop (64 * (message.length / 64)) ++ more).length / 64)
        (absorbAll (message.length / 64) state message)
        (message.drop (64 * (message.length / 64)) ++ more) := by
  have whole : 64 * (message.length / 64) ≤ message.length := Nat.mul_div_le _ _
  rw [blocks_append, absorbAll_add, absorbAll_append state more whole,
    List.drop_append_of_le_length whole]

namespace Progress

/-- What is known when a message has come. -/
structure Holds (progress : Progress) (message : Bytes) : Prop where
  state : progress.state = absorbAll (message.length / 64) start message
  pending : progress.pending = message.drop (64 * (message.length / 64))
  length : progress.length = message.length

theorem holds_empty : empty.Holds [] :=
  ⟨rfl, rfl, rfl⟩

theorem Holds.update {progress : Progress} {message : Bytes} (holds : progress.Holds message)
    (piece : Bytes) : (progress.update piece).Holds (message ++ piece) := by
  have whole : 64 * (message.length / 64) ≤ message.length := Nat.mul_div_le _ _
  constructor
  case state =>
    rw [absorbAll_behind, ← holds.state, ← holds.pending]
    rfl
  case pending =>
    rw [blocks_append, Nat.mul_add, ← List.drop_drop, List.drop_append_of_le_length whole,
      ← holds.pending]
    rfl
  case length =>
    rw [List.length_append, ← holds.length]
    rfl

/-- Padding is one more piece. -/
theorem Holds.finish {progress : Progress} {message : Bytes} (holds : progress.Holds message) :
    progress.finish = ofBytes message := by
  simp only [Progress.finish, ofBytes, padded]
  rw [absorbAll_behind start message, ← holds.state, ← holds.pending, ← holds.length]

end Progress

end Digest
end FirmwareGateway
