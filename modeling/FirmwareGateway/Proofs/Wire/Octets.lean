import FirmwareGateway.Proofs.Wire.Places
import FirmwareGateway.Proofs.Wire.RoundTrip
import FirmwareGateway.Wire.ChunkRequest
import FirmwareGateway.Wire.Report

namespace FirmwareGateway
namespace Wire

/-!
# Messages octet by octet

The layouts of envelopes, reports and commands say what is written where.  Here the
octets of each are written out, and the writers are shown to produce them.  What is
written out can also be read: an envelope gives back its fields, and `Report.read?`
is how a node takes a report out of an envelope.  It looks at the checksum first, so
it reads no report that was damaged in a way the checksum shows.
-/

theorem Word.write_u8 (octet : UInt8) : Word.u8.write octet.toUInt32.toNat = [octet] := by
  simp [Word.write, Word.width, Bytes.littleEndian]

namespace Layout

theorem writeField_word (layout : String) (isLast : Bool) (name : String) (word : Word)
    {n : UInt32} (fits : n.toNat < Nat.pow 256 word.width) :
    writeField layout isLast ⟨name, .word word⟩ (.int n) = .ok (word.write n.toNat) := by
  simp only [writeField, if_pos fits]

theorem writeField_u8 (layout : String) (isLast : Bool) (name : String) (octet : UInt8) :
    writeField layout isLast ⟨name, .word .u8⟩ (.int octet.toUInt32) = .ok [octet] := by
  have fits : octet.toUInt32.toNat < Nat.pow 256 Word.u8.width := by
    rw [UInt8.toNat_toUInt32]
    exact octet.toNat_lt
  rw [writeField_word layout isLast name .u8 fits, Word.write_u8]

theorem writeField_u16 (layout : String) (isLast : Bool) (name : String) (n : UInt16) :
    writeField layout isLast ⟨name, .word .u16be⟩ (.int n.toUInt32) =
      .ok (Bytes.bigEndian 2 n.toNat) := by
  have fits : n.toUInt32.toNat < Nat.pow 256 Word.u16be.width := by
    rw [UInt16.toNat_toUInt32]
    exact n.toNat_lt
  rw [writeField_word layout isLast name .u16be fits, UInt16.toNat_toUInt32]
  rfl

theorem writeField_tail (layout : String) (name : String) (octets : Bytes) :
    writeField layout true ⟨name, .tail⟩ (.bytes octets) = .ok octets := by
  simp only [writeField, if_true]

theorem encode_eq_ok {layout : Layout} {values : List Value} {octets : Bytes}
    (wrote : layout.write values = ⟨octets, none⟩) : layout.encode values = .ok octets := by
  simp only [encode, Attempt.result, wrote]

/-- What is read as a message begins like one. -/
theorem lead_of_decode {layout : Layout} {raw : Bytes} {values : List Value}
    (read : layout.decode raw = .ok values) : layout.lead <+: raw := by
  have ends := decode_ends layout raw
  rw [read] at ends
  cases ends with
  | whole enough measured leads values read => exact leads

end Layout

/-! ## Envelopes -/

namespace Envelope

/-- The octets of an envelope, written out. -/
def octets (envelope : Envelope) : Bytes :=
  [0x23, 0x02, envelope.flags.first, envelope.flags.second, envelope.sequence, envelope.source,
    envelope.destination] ++ envelope.payload

theorem encode_eq (envelope : Envelope) : envelope.encode = .ok envelope.octets := by
  apply Layout.encode_eq_ok
  simp only [Layout.write, envelopeLayout, values, Layout.writeFields, Layout.writeField_u8,
    List.isEmpty_nil, Layout.writeField_tail, List.length_cons, List.length_nil, if_true, octets,
    List.cons_append, List.nil_append, List.append_nil]

/-- Every envelope that is written can be read. -/
theorem decode?_octets (envelope : Envelope) : decode? envelope.octets = some envelope := by
  have read := Layout.decode_of_encode (encode_eq envelope)
  simp only [decode?, read, values, UInt8.toUInt8_toUInt32]

end Envelope

/-! ## Reports -/

namespace Report

/-- A report that has a form on the wire: its number has fifteen bits and its chunk
is no longer than a chunk can be. -/
structure Sendable (report : Report) : Prop where
  number : report.number.toNat ≤ maxReportNumber
  chunk : report.chunk.length ≤ Image.chunkSize

/-- The word with the number and the mark of the last report. -/
def word (report : Report) : Nat :=
  report.number.toNat + (if report.last then 0x8000 else 0)

/-- The octets of a report before its checksum, written out. -/
def body (report : Report) : Bytes :=
  [0x7a, 0x06] ++ Bytes.bigEndian 2 report.word ++ report.chunk

/-- The octets of a report, written out. -/
def octets (report : Report) : Bytes :=
  report.body ++ Bytes.bigEndian 2 (Checksum.ofBytes report.body).toNat

/-- The mark stands above the bits of the number, so adding it sets one bit. -/
theorem toNat_or_lastBit {number : UInt32} (small : number.toNat < 0x8000) (last : Bool) :
    (number ||| (if last then lastBit else 0)).toNat =
      number.toNat + (if last then 0x8000 else 0) := by
  cases last with
  | false => simp
  | true =>
    have below : number.toNat < 2 ^ 15 := small
    have disjoint := Nat.two_pow_add_eq_or_of_lt below 1
    rw [UInt32.toNat_or]
    change number.toNat ||| 0x8000 = number.toNat + 0x8000
    rw [Nat.or_comm, Nat.add_comm]
    exact disjoint.symm

theorem Sendable.toNat_or_lastBit {report : Report} (sendable : report.Sendable) :
    (report.number.toUInt32 ||| (if report.last then lastBit else 0)).toNat = report.word := by
  have small : report.number.toUInt32.toNat < 0x8000 := by
    rw [UInt16.toNat_toUInt32]
    exact Nat.lt_succ_of_le sendable.number
  rw [Report.toNat_or_lastBit small, UInt16.toNat_toUInt32, word]

theorem Sendable.word_lt {report : Report} (sendable : report.Sendable) :
    report.word < Nat.pow 256 Word.u16be.width := by
  have small : report.number.toNat ≤ 0x7fff := sendable.number
  change report.number.toNat + (if report.last then 0x8000 else 0) < 65536
  split <;> omega

theorem encode_values {report : Report} (sendable : report.Sendable) :
    reportLayout.encode report.values = .ok report.body := by
  have fits : (report.number.toUInt32 ||| (if report.last then lastBit else 0)).toNat <
      Nat.pow 256 Word.u16be.width := by
    rw [sendable.toNat_or_lastBit]
    exact sendable.word_lt
  apply Layout.encode_eq_ok
  simp only [Layout.write, reportLayout, values, Layout.writeFields,
    Layout.writeField_word _ _ _ _ fits, Word.write, sendable.toNat_or_lastBit, List.isEmpty_nil,
    Layout.writeField_tail, List.length_cons, List.length_nil, if_true, body, List.append_nil,
    List.append_assoc, firmwareClass]

theorem encode_eq {report : Report} (sendable : report.Sendable) :
    report.encode = .ok report.octets := by
  have numbered : ¬ report.number.toNat > maxReportNumber := Nat.not_lt.mpr sendable.number
  have bounded : ¬ report.chunk.length > Image.chunkSize := Nat.not_lt.mpr sendable.chunk
  rw [encode, if_neg numbered, if_neg bounded, encode_values sendable]
  rfl

theorem length_octets_sub (report : Report) : report.octets.length - 2 = report.body.length := by
  rw [octets, List.length_append, Bytes.length_bigEndian, Nat.add_sub_cancel]

theorem take_octets (report : Report) :
    report.octets.take (report.octets.length - 2) = report.body := by
  rw [length_octets_sub, octets, List.take_left]

theorem drop_octets (report : Report) :
    report.octets.drop (report.octets.length - 2) =
      Bytes.bigEndian 2 (Checksum.ofBytes report.body).toNat := by
  rw [length_octets_sub, octets, List.drop_left]

/-- What a node makes of the payload of an envelope: a report, if the checksum is
that of the octets before it. -/
def read? (payload : Bytes) : Option Report :=
  let body := payload.take (payload.length - 2)
  if payload.drop (payload.length - 2) = Bytes.bigEndian 2 (Checksum.ofBytes body).toNat then
    match reportLayout.decode body with
    | .ok [.int word, .bytes chunk] =>
      some ⟨UInt16.ofNat (word.toNat % 0x8000), decide (0x8000 ≤ word.toNat), chunk⟩
    | _ => none
  else none

/-- A report that is sent can be read. -/
theorem read?_octets {report : Report} (sendable : report.Sendable) :
    read? report.octets = some report := by
  have number : UInt16.ofNat (report.word % 0x8000) = report.number := by
    have small : report.number.toNat ≤ 0x7fff := sendable.number
    have low : report.word % 0x8000 = report.number.toNat := by
      rw [word]
      split <;> omega
    rw [low, UInt16.ofNat_toNat]
  have last : decide (0x8000 ≤ report.word) = report.last := by
    have small : report.number.toNat ≤ 0x7fff := sendable.number
    rw [word]
    cases report.last with
    | true => simp
    | false => simpa using Nat.lt_succ_of_le small
  simp only [read?, take_octets, drop_octets, if_true,
    Layout.decode_of_encode (encode_values sendable), values, sendable.toNat_or_lastBit, number,
    last]

/-- What is read as a report begins like one. -/
theorem lead_of_read? {payload : Bytes} {report : Report} (read : read? payload = some report) :
    reportLayout.lead <+: payload := by
  by_cases checked : payload.drop (payload.length - 2) =
      Bytes.bigEndian 2 (Checksum.ofBytes (payload.take (payload.length - 2))).toNat
  · simp only [read?, if_pos checked] at read
    cases decoded : reportLayout.decode (payload.take (payload.length - 2)) with
    | error fault =>
      rw [decoded] at read
      cases read
    | ok values => exact (Layout.lead_of_decode decoded).trans (List.take_prefix _ _)
  · rw [read?, if_neg checked] at read
    cases read

/-- What a node makes of a datagram: a sequence number and a report. -/
def received? (datagram : Bytes) : Option (UInt8 × Report) :=
  (Envelope.decode? datagram).bind fun envelope =>
    (read? envelope.payload).map fun report => (envelope.sequence, report)

theorem received?_around {report : Report} (sendable : report.Sendable) (sequence : UInt8)
    (flags : Flags) :
    received? (Envelope.around report.octets sequence flags).octets = some (sequence, report) := by
  rw [received?, Envelope.decode?_octets]
  simp only [Option.bind_some, Envelope.around, read?_octets sendable, Option.map_some]

end Report

/-! ## Commands -/

namespace Command

/-- The octets of a command, written out. -/
def octets : Command → Bytes
  | .metadataGet => [0x7a, 0x01]
  | .versionGet => [0x86, 0x11]
  | .updateGet vendor firmware checksum =>
    [0x7a, 0x05] ++ Bytes.bigEndian 2 vendor.toNat ++ Bytes.bigEndian 2 firmware.toNat ++
      Bytes.bigEndian 2 checksum.toNat
  | .activeSet vendor firmware checksum target hardware =>
    [0x7a, 0x08] ++ Bytes.bigEndian 2 vendor.toNat ++ Bytes.bigEndian 2 firmware.toNat ++
      Bytes.bigEndian 2 checksum.toNat ++ [target, hardware]
  | .requestGet vendor firmware checksum target =>
    [0x7a, 0x03] ++ Bytes.bigEndian 2 vendor.toNat ++ Bytes.bigEndian 2 firmware.toNat ++
      Bytes.bigEndian 2 checksum.toNat ++ [target, 0, 40, 0, 1]

theorem encode_eq (command : Command) : command.encode = .ok command.octets := by
  apply Layout.encode_eq_ok
  have fragment : UInt32.ofNat Image.chunkSize = (40 : UInt16).toUInt32 := rfl
  have none : (0 : UInt32) = (0 : UInt8).toUInt32 := rfl
  have one : (1 : UInt32) = (1 : UInt8).toUInt32 := rfl
  cases command with
  | metadataGet => rfl
  | versionGet => rfl
  | updateGet vendor firmware checksum =>
    simp only [Layout.write, layout, updateGetLayout, values, Layout.writeFields,
      Layout.writeField_u16, List.length_cons, List.length_nil, if_true, octets, firmwareClass,
      updateGetCommand, List.append_assoc, List.append_nil]
  | activeSet vendor firmware checksum target hardware =>
    simp only [Layout.write, layout, activeSetLayout, values, Layout.writeFields,
      Layout.writeField_u16, Layout.writeField_u8, List.length_cons, List.length_nil, if_true,
      octets, firmwareClass, List.append_assoc, List.append_nil, List.cons_append, List.nil_append]
  | requestGet vendor firmware checksum target =>
    simp only [Layout.write, layout, requestGetLayout, values, fragment, none, one,
      Layout.writeFields, Layout.writeField_u16, Layout.writeField_u8, List.length_cons,
      List.length_nil, if_true, octets, firmwareClass, List.append_assoc, List.append_nil,
      List.cons_append, List.nil_append]
    rfl

/-- No command is taken for a report. -/
theorem received?_around (command : Command) (sequence : UInt8) (flags : Flags) :
    Report.received? (Envelope.around command.octets sequence flags).octets = none := by
  have unread : Report.read? command.octets = none := by
    apply Option.eq_none_iff_forall_not_mem.mpr
    intro report read
    have lead := Report.lead_of_read? read
    cases command <;> simp [reportLayout, firmwareClass, octets, List.cons_prefix_cons] at lead
  rw [Report.received?, Envelope.decode?_octets]
  simp only [Option.bind_some, Envelope.around, unread, Option.map_none]

end Command

end Wire
end FirmwareGateway
