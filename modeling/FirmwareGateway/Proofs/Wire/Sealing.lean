import FirmwareGateway.Proofs.Checksum.Detection
import FirmwareGateway.Proofs.Wire.Octets

namespace FirmwareGateway
namespace Wire
namespace Report

/-!
# Reports with their checksum

A report has a form on the wire exactly if its number has fifteen bits and its chunk is
no longer than a chunk can be; the number is looked at first.  What is written gives back
the report, also out of its envelope, so different reports never go out as one datagram.
The checksum at the end makes that of the whole zero, so what is damaged on the way in a
manner that the checksum detects does not pass the check of a receiver.
-/

/-! ## What can be written -/

theorem encode_of_large {report : Report} (large : maxReportNumber < report.number.toNat) :
    report.encode = .error (.fieldOverflow "report_number" report.number.toUInt32) := by
  rw [encode, if_pos large]

theorem encode_of_long {report : Report} (numbered : report.number.toNat ≤ maxReportNumber)
    (long : Image.chunkSize < report.chunk.length) :
    report.encode = .error (.protocol (.reportData report.chunk.length Image.chunkSize)) := by
  rw [encode, if_neg (Nat.not_lt.mpr numbered), if_pos long]

theorem sendable_of_encode {report : Report} {octets : Bytes}
    (encoded : report.encode = .ok octets) : report.Sendable := by
  constructor
  case number =>
    apply Nat.le_of_not_lt
    intro large
    cases encoded.symm.trans (encode_of_large large)
  case chunk =>
    apply Nat.le_of_not_lt
    intro long
    by_cases large : maxReportNumber < report.number.toNat
    · cases encoded.symm.trans (encode_of_large large)
    · cases encoded.symm.trans (encode_of_long (Nat.le_of_not_lt large) long)

theorem eq_octets_of_encode {report : Report} {octets : Bytes}
    (encoded : report.encode = .ok octets) : octets = report.octets :=
  Except.ok.inj (encoded.symm.trans (encode_eq (sendable_of_encode encoded)))

theorem exists_encode_iff (report : Report) :
    (∃ octets, report.encode = .ok octets) ↔ report.Sendable := by
  constructor
  · rintro ⟨octets, encoded⟩
    exact sendable_of_encode encoded
  · intro sendable
    exact ⟨report.octets, encode_eq sendable⟩

/-! ## What is written -/

/-- The octets of a report: before the last two stand a word with the number and the mark
of the last report, and the chunk; the last two are the checksum of all before them. -/
structure Bears (report : Report) (octets : Bytes) : Prop where
  read : ∃ word : UInt32,
    reportLayout.decode (octets.take (octets.length - 2)) =
      .ok [.int word, .bytes report.chunk] ∧
    word.toNat % 0x8000 = report.number.toNat ∧
    word.toNat / 0x8000 = if report.last then 1 else 0
  checksum : octets.drop (octets.length - 2) =
    Bytes.bigEndian 2 (Checksum.ofBytes (octets.take (octets.length - 2))).toNat

theorem Sendable.bears {report : Report} (sendable : report.Sendable) :
    report.Bears report.octets where
  read := by
    have small : report.number.toNat ≤ 0x7fff := sendable.number
    have decoded := Layout.decode_of_encode (encode_values sendable)
    refine ⟨_, (congrArg reportLayout.decode report.take_octets).trans decoded, ?_, ?_⟩
    · rw [sendable.toNat_or_lastBit, word]
      split <;> omega
    · rw [sendable.toNat_or_lastBit, word]
      split <;> omega
  checksum := by rw [drop_octets, take_octets]

theorem ofBytes_octets (report : Report) : Checksum.ofBytes report.octets = 0 :=
  (Checksum.ofBytes_append_eq_zero_iff report.body _).mpr rfl

/-! ## Reports in envelopes -/

/-- The octets in an envelope are those of one report only. -/
theorem eq_of_around {first second : Report} {sequence otherSequence : UInt8}
    {flags otherFlags : Flags} (sendable : first.Sendable) (also : second.Sendable)
    (same : (Envelope.around first.octets sequence flags).octets =
      (Envelope.around second.octets otherSequence otherFlags).octets) :
    first = second ∧ sequence = otherSequence ∧ flags = otherFlags := by
  have envelopes := congrArg Envelope.decode? same
  rw [Envelope.decode?_octets, Envelope.decode?_octets] at envelopes
  simp only [Envelope.around, Option.some.injEq, Envelope.mk.injEq, true_and] at envelopes
  rcases envelopes with ⟨flagsSame, sequenceSame, octetsSame⟩
  have reports := congrArg read? octetsSame
  rw [read?_octets sendable, read?_octets also] at reports
  exact ⟨Option.some.inj reports, sequenceSame, flagsSame⟩

/-- A report can be written exactly if its number and its chunk are in bounds, and a number
out of bounds is told whatever the chunk is.  What is written bears the report and its
checksum, has itself the checksum zero, and comes out of an envelope as it went in; and the
datagram is that of no other report, sequence number or flags. -/
theorem encode_roundTrip (report : Report) :
    ((∃ octets, report.encode = .ok octets) ↔
      report.number.toNat ≤ 0x7fff ∧ report.chunk.length ≤ 40) ∧
    (0x7fff < report.number.toNat →
      report.encode = .error (.fieldOverflow "report_number" report.number.toUInt32)) ∧
    ∀ octets, report.encode = .ok octets →
      report.Bears octets ∧ Checksum.ofBytes octets = 0 ∧
      ∀ sequence flags, ∃ datagram,
        (Envelope.around octets sequence flags).encode = .ok datagram ∧
        Envelope.decode? datagram = some ⟨flags, sequence, 0, 0, octets⟩ ∧
        ∀ (other : Report) others otherSequence otherFlags, other.encode = .ok others →
          (Envelope.around others otherSequence otherFlags).encode = .ok datagram →
          report = other ∧ sequence = otherSequence ∧ flags = otherFlags := by
  refine ⟨?_, encode_of_large, ?_⟩
  · rw [exists_encode_iff]
    constructor
    · intro sendable
      exact ⟨sendable.number, sendable.chunk⟩
    · rintro ⟨number, chunk⟩
      exact ⟨number, chunk⟩
  · intro octets encoded
    have sendable := sendable_of_encode encoded
    cases eq_octets_of_encode encoded
    refine ⟨sendable.bears, report.ofBytes_octets, ?_⟩
    intro sequence flags
    refine ⟨_, Envelope.encode_eq _, Envelope.decode?_octets _, ?_⟩
    intro other others otherSequence otherFlags encodedOther around
    cases eq_octets_of_encode encodedOther
    rw [Envelope.encode_eq] at around
    exact eq_of_around sendable (sendable_of_encode encodedOther) (Except.ok.inj around).symm

/-- The last report with a number of fifteen set bits. -/
def ofAllBits : Report := ⟨0x7fff, true, [0xeb, 0x17, 0xa6, 0x03]⟩

theorem encode_roundTrip_all_bits :
    ofAllBits.encode =
      .ok [0x7a, 0x06, 0xff, 0xff, 0xeb, 0x17, 0xa6, 0x03, 0xb4, 0xc1] ∧
    ofAllBits.Bears [0x7a, 0x06, 0xff, 0xff, 0xeb, 0x17, 0xa6, 0x03, 0xb4, 0xc1] ∧
    Checksum.ofBytes [0x7a, 0x06, 0xff, 0xff, 0xeb, 0x17, 0xa6, 0x03, 0xb4, 0xc1] = 0 ∧
    (∀ (other : Report) others sequence flags, other.encode = .ok others →
      (Envelope.around others sequence flags).encode =
        .ok [0x23, 0x02, 0x00, 0x50, 0xff, 0x00, 0x00,
          0x7a, 0x06, 0xff, 0xff, 0xeb, 0x17, 0xa6, 0x03, 0xb4, 0xc1] →
      other = ofAllBits ∧ sequence = 0xff ∧ flags = ⟨0x00, 0x50⟩) ∧
    ({ ofAllBits with number := 0x8000, chunk := List.replicate 41 0 } : Report).encode =
      .error (.fieldOverflow "report_number" 0x8000) := by
  have encoded : ofAllBits.encode =
      .ok [0x7a, 0x06, 0xff, 0xff, 0xeb, 0x17, 0xa6, 0x03, 0xb4, 0xc1] := by decide +kernel
  rcases (encode_roundTrip ofAllBits).2.2 _ encoded with ⟨bears, zero, around⟩
  refine ⟨encoded, bears, zero, ?_, (encode_roundTrip _).2.1 (by decide)⟩
  intro other others sequence flags encodedOther same
  rcases around 0xff ⟨0x00, 0x50⟩ with ⟨datagram, sent, -, only⟩
  cases (Envelope.encode_eq _).symm.trans sent
  rcases only other others sequence flags encodedOther same with ⟨rfl, rfl, rfl⟩
  exact ⟨rfl, rfl, rfl⟩

/-! ## Reports that were damaged -/

/-- Octets that were damaged have another checksum than before, and a report that was
damaged does not pass the check. -/
theorem not_checks_of_damaged :
    (∀ sent received : Bytes, Checksum.Damaged sent received →
      Checksum.ofBytes sent ≠ Checksum.ofBytes received) ∧
    ∀ (report : Report) (octets received : Bytes), report.encode = .ok octets →
      Checksum.Damaged octets received → ¬ Checksum.Checks received := by
  refine ⟨fun sent received damaged => damaged.ofBytes_ne, ?_⟩
  intro report octets received encoded damaged checks
  cases eq_octets_of_encode encoded
  have enough : 2 ≤ received.length := by
    rw [← damaged.length, Report.octets, List.length_append, Bytes.length_bigEndian]
    exact Nat.le_add_left 2 _
  have zero := (Checksum.checks_iff enough).mp checks
  exact damaged.ofBytes_ne (report.ofBytes_octets.trans zero.symm)

/-- Sixteen bits in a row are wrong, from the last one of the chunk to the last but one of
the checksum; and three bits far from each other. -/
theorem not_checks_of_damaged_burst :
    ofAllBits.encode =
      .ok [0x7a, 0x06, 0xff, 0xff, 0xeb, 0x17, 0xa6, 0x03, 0xb4, 0xc1] ∧
    ¬ Checksum.Checks [0x7a, 0x06, 0xff, 0xff, 0xeb, 0x17, 0xa6, 0x02, 0x4b, 0x3f] ∧
    Checksum.ofBytes [0x00, 0x00, 0x00, 0x00, 0x00] ≠
      Checksum.ofBytes [0x80, 0x00, 0x01, 0x00, 0x01] := by
  have encoded : ofAllBits.encode =
      .ok [0x7a, 0x06, 0xff, 0xff, 0xeb, 0x17, 0xa6, 0x03, 0xb4, 0xc1] := by decide +kernel
  refine ⟨encoded, ?_, ?_⟩
  · apply not_checks_of_damaged.2 ofAllBits _ _ encoded
    exact ⟨rfl, .inr ⟨63, List.replicate 16 true, 1, by decide, by decide, by decide⟩⟩
  · apply not_checks_of_damaged.1
    exact ⟨rfl, .inl (by decide)⟩

end Report

end Wire
end FirmwareGateway
