import FirmwareGateway.Proofs.Wire.Octets
import FirmwareGateway.Relay.Session

namespace FirmwareGateway
namespace Relay

/-!
# What a relay reads and writes

The octets of records and of the announcement are written out here, and so is the
reading of pulls: three octets each, one pull behind the other, and one or two octets
at the end that are not yet a pull.  A source is seen through its content, whatever
the pieces are that it comes in.
-/

/-! ## Records -/

namespace Record

/-- The longest payload whose length can be written. -/
def maxPayload : Nat := 0xffff

/-- The octets of a record, written out. -/
def octets (record : Record) : Bytes :=
  [record.channel.tag, record.type.tag] ++ Bytes.littleEndian 2 record.payload.length ++
    record.payload

theorem encode_eq {record : Record} (bounded : record.payload.length ≤ maxPayload) :
    record.encode = .ok record.octets := by
  have small : record.payload.length < 2 ^ 16 := Nat.lt_succ_of_le bounded
  have length : (UInt32.ofNat record.payload.length).toNat = record.payload.length :=
    UInt32.toNat_ofNat_of_lt' (Nat.lt_trans small (by decide))
  have fits : (UInt32.ofNat record.payload.length).toNat < Nat.pow 256 Wire.Word.u16le.width := by
    rw [length]
    exact small
  have wrote : Wire.Layout.writeField recordLayout.name false ⟨"length", .word .u16le⟩
      (.int (UInt32.ofNat record.payload.length)) =
        .ok (Bytes.littleEndian 2 record.payload.length) := by
    rw [Wire.Layout.writeField_word _ _ _ .u16le fits, length]
    rfl
  have written : recordLayout.write record.values = ⟨record.octets, none⟩ := by
    simp only [recordLayout] at wrote
    simp only [Wire.Layout.write, recordLayout, values, Wire.Layout.writeFields,
      Wire.Layout.writeField_u8, wrote, List.isEmpty_cons, List.isEmpty_nil,
      Wire.Layout.writeField_tail, List.length_cons, List.length_nil, if_true, octets,
      List.append_nil, List.cons_append, List.nil_append]
  exact Wire.Layout.encode_eq_ok written

end Record

/-! ## Announcements -/

namespace Target

/-- What the receiver is told about a file, written out. -/
def announcement (target : Target) (info : FileInfo) : Bytes :=
  match target with
  | .bridge => []
  | .coprocessor => Bytes.littleEndian 4 info.size ++ info.digest
  | .node id => Bytes.littleEndian 4 info.size ++ Bytes.bigEndian 2 id.toNat ++ info.digest

theorem length_announcement_le (target : Target) (info : FileInfo) :
    (target.announcement info).length ≤ 22 := by
  have digest := info.digest_length
  cases target <;> simp [announcement, digest]

theorem writeField_size (layout : String) {size : Nat} (announceable : size ≤ maxFileSize) :
    Wire.Layout.writeField layout false ⟨"file_size", .word .u32le⟩ (.int (UInt32.ofNat size)) =
      .ok (Bytes.littleEndian 4 size) := by
  have small : size < 2 ^ 32 := Nat.lt_succ_of_le announceable
  have toNat : (UInt32.ofNat size).toNat = size := UInt32.toNat_ofNat_of_lt' small
  have fits : (UInt32.ofNat size).toNat < Nat.pow 256 Wire.Word.u32le.width := by
    rw [toNat]
    exact small
  rw [Wire.Layout.writeField_word _ _ _ .u32le fits, toNat]
  rfl

theorem writeField_digest (layout : String) (info : FileInfo) :
    Wire.Layout.writeField layout true ⟨"digest", .fixed 16⟩ (.bytes info.digest) =
      .ok info.digest := by
  simp only [Wire.Layout.writeField, info.digest_length, if_true]

theorem metadata_eq (target : Target) {info : FileInfo} (announceable : info.size ≤ maxFileSize) :
    target.metadata info = .ok (target.announcement info) := by
  have small : ¬ info.size > maxFileSize := Nat.not_lt.mpr announceable
  cases target with
  | bridge => simp only [metadata, if_neg small, announcement]
  | coprocessor =>
    simp only [metadata, if_neg small, announcement]
    apply Wire.Layout.encode_eq_ok
    simp only [Wire.Layout.write, coprocessorLayout, Wire.Layout.writeFields,
      writeField_size _ announceable, writeField_digest, List.isEmpty_cons, List.isEmpty_nil,
      List.length_cons, List.length_nil, if_true, List.nil_append, List.append_nil]
  | node id =>
    simp only [metadata, if_neg small, announcement]
    apply Wire.Layout.encode_eq_ok
    simp only [Wire.Layout.write, nodeLayout, Wire.Layout.writeFields,
      writeField_size _ announceable, writeField_digest, Wire.Layout.writeField_u16,
      List.isEmpty_cons, List.isEmpty_nil, List.length_cons, List.length_nil, if_true,
      List.nil_append, List.append_nil, List.append_assoc]

end Target

/-! ## Pulls -/

namespace Pull

/-- The pull that three octets make. -/
def ofOctets (type low high : UInt8) : Pull :=
  ⟨type, UInt16.ofNat (Bytes.fromLittleEndian [low, high])⟩

/-- A stream read as pulls, one behind the other; the last one or two octets may be
too few for another. -/
def stream : Bytes → List Pull
  | type :: low :: high :: rest => ofOctets type low high :: stream rest
  | _ => []

/-- How many octets of a file some pulls ask for together. -/
def demand : List Pull → Nat
  | [] => 0
  | pull :: later => pull.length.toNat + demand later

theorem demand_nil : demand [] = 0 := rfl

theorem demand_cons (pull : Pull) (pulls : List Pull) :
    demand (pull :: pulls) = pull.length.toNat + demand pulls := rfl

theorem demand_append (first second : List Pull) :
    demand (first ++ second) = demand first + demand second := by
  induction first with
  | nil => exact (Nat.zero_add _).symm
  | cons pull first ih => rw [List.cons_append, demand_cons, demand_cons, ih, Nat.add_assoc]

theorem decode_short {buffer : Bytes} (short : buffer.length < size) :
    decode buffer = (.ok none, buffer) := by
  have taken : (buffer.take size).length < size := by
    rw [List.length_take]
    exact Nat.lt_of_le_of_lt (Nat.min_le_right _ _) short
  rw [decode, if_pos taken]

theorem decode_octets (type low high : UInt8) (rest : Bytes) :
    decode (type :: low :: high :: rest) = (.ok (some (ofOctets type low high)), rest) := by
  have front : (type :: low :: high :: rest).take size = [type, low, high] := rfl
  have behind : (type :: low :: high :: rest).drop size = rest := rfl
  have whole : ¬ [type, low, high].length < size := Nat.lt_irrefl 3
  have read : pullLayout.decode [type, low, high] =
      .ok [.int (UInt32.ofNat (Bytes.fromLittleEndian [type])),
        .int (UInt32.ofNat (Bytes.fromLittleEndian [low, high]))] := rfl
  have type_eq : UInt8.ofNat (Bytes.fromLittleEndian [type]) = type := UInt8.ofNat_toNat
  rw [decode, front, if_neg whole, read]
  simp only [ofValues?, UInt32.toUInt8_ofNat', UInt32.toUInt16_ofNat', type_eq, behind, ofOctets]

/-- Octets either begin with a whole pull or are too few for one. -/
theorem short_or_octets (octets : Bytes) :
    octets.length < size ∨ ∃ type low high rest, octets = type :: low :: high :: rest := by
  match octets with
  | [] => exact Or.inl (by decide)
  | [_] => exact Or.inl (by decide : 1 < 3)
  | [_, _] => exact Or.inl (by decide : 2 < 3)
  | type :: low :: high :: rest => exact Or.inr ⟨type, low, high, rest, rfl⟩

theorem stream_short {octets : Bytes} (short : octets.length < size) : stream octets = [] := by
  rcases octets with _ | ⟨_, _ | ⟨_, _ | ⟨_, rest⟩⟩⟩
  · rfl
  · rfl
  · rfl
  · exact absurd short (Nat.not_lt.mpr (Nat.le_add_left 3 rest.length))

theorem stream_eq_cons {octets : Bytes} {pull : Pull} {pulls : List Pull}
    (read : stream octets = pull :: pulls) :
    ∃ type low high rest, octets = type :: low :: high :: rest ∧
      pull = ofOctets type low high ∧ stream rest = pulls := by
  rcases short_or_octets octets with short | ⟨type, low, high, rest, rfl⟩
  · rw [stream_short short] at read
    cases read
  · simp only [stream, List.cons.injEq] at read
    exact ⟨type, low, high, rest, rfl, read.1.symm, read.2⟩

end Pull

/-! ## Sources -/

theorem fst_takePieces (n : Nat) (pieces : List Bytes) :
    (takePieces n pieces).1 = pieces.flatten.take n := by
  induction pieces generalizing n with
  | nil => simp only [takePieces, List.flatten_nil, List.take_nil]
  | cons piece later ih =>
    simp only [takePieces, List.flatten_cons, List.take_append]
    cases cut : piece.drop n with
    | nil =>
      have all : piece.take n = piece := List.take_of_length_le (List.drop_eq_nil_iff.mp cut)
      simp only [ih, all]
    | cons octet rest =>
      have inside : n - piece.length = 0 := by
        have positive : 0 < (piece.drop n).length := by rw [cut]; exact Nat.succ_pos _
        rw [List.length_drop] at positive
        omega
      simp only [inside, List.take_zero, List.append_nil]

theorem flatten_snd_takePieces (n : Nat) (pieces : List Bytes) :
    (takePieces n pieces).2.flatten = pieces.flatten.drop n := by
  induction pieces generalizing n with
  | nil => simp only [takePieces, List.flatten_nil, List.drop_nil]
  | cons piece later ih =>
    simp only [takePieces, List.flatten_cons, List.drop_append]
    cases cut : piece.drop n with
    | nil => simp only [ih, List.nil_append]
    | cons octet rest =>
      have inside : n - piece.length = 0 := by
        have positive : 0 < (piece.drop n).length := by rw [cut]; exact Nat.succ_pos _
        rw [List.length_drop] at positive
        omega
      simp only [List.flatten_cons, inside, List.drop_zero]

namespace Source

/-- A source that does not fail and still holds some content. -/
structure Holds (source : Source) (content : Bytes) : Prop where
  fault : source.fault = none
  content : source.content = content

/-- However a source is cut into pieces, reading takes what it holds in order. -/
theorem Holds.take {source : Source} {content : Bytes} (holds : source.Holds content) (n : Nat) :
    ∃ left : Source, source.take n = .ok (content.take n, left) ∧ left.Holds (content.drop n) := by
  rcases source with ⟨pieces, fault⟩
  rcases holds with ⟨rfl, rfl⟩
  refine ⟨⟨(takePieces n pieces).2, none⟩, ?_, rfl, ?_⟩
  · simp only [Source.take, fst_takePieces, Source.content]
  · exact flatten_snd_takePieces n pieces

end Source

end Relay
end FirmwareGateway
