import FirmwareGateway.Proofs.Relay.Interruption
import FirmwareGateway.Proofs.Wire.RoundTrip

namespace FirmwareGateway
namespace Relay

/-!
# What a receiver makes of a relay

A receiver reads one record behind the other.  The first opens the relay and tells what
is to come, in the layout of the target; data records follow until one is empty.  What a
session writes that finishes is read as the records that it wrote, and a receiver finds
that what it was told agrees with the file that it got.
-/

/-! ## Reading records -/

namespace Record

/-- The record at the front of some octets, and what stands behind it. -/
def read? : Bytes → Option (Record × Bytes)
  | channel :: type :: low :: high :: rest =>
    match Channel.ofTag channel, RecordType.ofTag type with
    | .ok channel, .ok type =>
      let length := Bytes.fromLittleEndian [low, high]
      if rest.length < length then none
      else some (⟨channel, type, rest.take length⟩, rest.drop length)
    | _, _ => none
  | _ => none

theorem read?_shorter {octets behind : Bytes} {record : Record}
    (read : read? octets = some (record, behind)) : behind.length < octets.length := by
  revert read
  fun_cases read? octets with
  | case1 => exact nofun
  | case2 channel type low high rest _ tagged _ typed length enough =>
    rintro ⟨⟩
    simp only [List.length_drop, List.length_cons]
    omega
  | case3 => exact nofun
  | case4 => exact nofun

/-- Reads records to the end of some octets. -/
def received (octets : Bytes) : Option (List Record) :=
  match _read : read? octets with
  | some (record, behind) => (received behind).map (record :: ·)
  | none => if octets = [] then some [] else none
  termination_by octets.length
  decreasing_by exact read?_shorter _read

theorem read?_octets {record : Record} (bounded : record.payload.length ≤ maxPayload)
    (behind : Bytes) : read? (record.octets ++ behind) = some (record, behind) := by
  have length : Bytes.fromLittleEndian (Bytes.littleEndian 2 record.payload.length) =
      record.payload.length := by
    rw [Bytes.fromLittleEndian_littleEndian]
    exact Nat.mod_eq_of_lt (Nat.lt_succ_of_le bounded)
  have split : record.octets ++ behind = record.channel.tag :: record.type.tag ::
      (Bytes.littleEndian 2 record.payload.length ++ (record.payload ++ behind)) := by
    simp only [octets, List.append_assoc, List.cons_append, List.nil_append]
  have enough : ¬ (record.payload ++ behind).length < record.payload.length := by
    rw [List.length_append]
    exact Nat.not_lt.mpr (Nat.le_add_right _ _)
  simp only [Bytes.littleEndian] at length split
  rw [split]
  simp only [read?, List.cons_append, List.nil_append, Channel.ofTag_tag, RecordType.ofTag_tag,
    length, if_neg enough, List.take_left, List.drop_left]

theorem received_octets {record : Record} (bounded : record.payload.length ≤ maxPayload)
    (behind : Bytes) :
    received (record.octets ++ behind) = (received behind).map (record :: ·) := by
  have front := read?_octets bounded behind
  fun_cases received (record.octets ++ behind) with
  | case1 first rest read =>
    cases front.symm.trans read
    rfl
  | case2 none => cases front.symm.trans none
  | case3 none => cases front.symm.trans none

/-- What is read from records one behind the other are these records. -/
theorem received_flatMap {records : List Record}
    (bounded : ∀ record ∈ records, record.payload.length ≤ maxPayload) :
    received (records.flatMap octets) = some records := by
  induction records with
  | nil =>
    rw [List.flatMap_nil, received]
    rfl
  | cons record records ih =>
    rcases List.forall_mem_cons.mp bounded with ⟨first, others⟩
    rw [List.flatMap_cons, received_octets first, ih others]
    rfl

end Record

/-! ## What is told of a file -/

/-- A receiver is told the size and the digest of a file, in the layout of the target.
The bridge is told nothing, a node its own number besides. -/
def Target.Tells (target : Target) (size : Nat) (digest payload : Bytes) : Prop :=
  match target with
  | .bridge => payload = []
  | .coprocessor => ∃ told : UInt32, told.toNat = size ∧
      coprocessorLayout.decode payload = .ok [.int told, .bytes digest]
  | .node id => ∃ told : UInt32, told.toNat = size ∧
      nodeLayout.decode payload = .ok [.int told, .int id.toUInt32, .bytes digest]

theorem Target.tells_announcement (target : Target) {info : FileInfo}
    (announceable : info.size ≤ maxFileSize) :
    target.Tells info.size info.digest (target.announcement info) := by
  have encoded := target.metadata_eq announceable
  have small : ¬ info.size > maxFileSize := Nat.not_lt.mpr announceable
  have told : (UInt32.ofNat info.size).toNat = info.size :=
    UInt32.toNat_ofNat_of_lt' (Nat.lt_succ_of_le announceable)
  cases target with
  | bridge => rfl
  | coprocessor =>
    simp only [metadata, if_neg small] at encoded
    exact ⟨_, told, Wire.Layout.decode_of_encode encoded⟩
  | node id =>
    simp only [metadata, if_neg small] at encoded
    exact ⟨_, told, Wire.Layout.decode_of_encode encoded⟩

/-! ## What comes of a file -/

/-- A receiver got a file whole: a header, then data in records of which the last one is
empty.  What it was told agrees with what came, and with what the sender counted. -/
structure Delivers (target : Target) (content output : Bytes) (summary : Summary)
    (header : Record) (data : List Record) : Prop where
  received : Record.received output = some (header :: (data ++ [Record.ending target.channel]))
  channel : ∀ record ∈ header :: data, record.channel = target.channel
  opens : header.type = .header
  carries : ∀ record ∈ data, record.type = .data
  tells : target.Tells (data.flatMap Record.payload).length
    (Digest.ofBytes (data.flatMap Record.payload)) header.payload
  counted : (data.flatMap Record.payload).length = summary.bytesSent
  records : data.length = summary.dataRecords
  content : data.flatMap Record.payload = content

/-- The data records of a session that sends a whole content. -/
def portions (channel : Channel) (content : Bytes) (served : List Pull) : List Record :=
  filled channel content served ++
    if content.drop (Pull.demand served) = [] then []
    else [.data channel (content.drop (Pull.demand served))]

theorem transcript_eq_portions (target : Target) (info : FileInfo) (content : Bytes)
    (served : List Pull) :
    transcript target info content served =
      target.opening info ::
        (portions target.channel content served ++ [Record.ending target.channel]) := by
  rw [transcript, closing, portions, List.append_assoc]
  rfl

theorem length_portions (channel : Channel) (content : Bytes) (served : List Pull) :
    (portions channel content served).length = (tally content served).dataRecords := by
  rw [portions, List.length_append, length_filled, tally]
  split <;> rfl

/-- Each record that answers a pull in full holds the next octets. -/
theorem flatMap_payload_filled (channel : Channel) (content : Bytes) (pulls : List Pull) :
    (filled channel content pulls).flatMap Record.payload =
      content.take (Pull.demand pulls) := by
  induction pulls generalizing content with
  | nil => rfl
  | cons pull pulls ih =>
    rw [filled, List.flatMap_cons, ih, Pull.demand_cons, List.take_add]
    rfl

theorem flatMap_payload_portions (channel : Channel) (content : Bytes) (served : List Pull) :
    (portions channel content served).flatMap Record.payload = content := by
  have rest : (if content.drop (Pull.demand served) = [] then ([] : List Record)
      else [.data channel (content.drop (Pull.demand served))]).flatMap Record.payload =
        content.drop (Pull.demand served) := by
    by_cases none : content.drop (Pull.demand served) = []
    · rw [if_pos none, none]
      rfl
    · rw [if_neg none]
      exact List.append_nil _
  rw [portions, List.flatMap_append, flatMap_payload_filled, rest, List.take_append_drop]

theorem data_of_mem_filled {channel : Channel} {content : Bytes} {pulls : List Pull}
    {record : Record} (member : record ∈ filled channel content pulls) :
    ∃ payload, record = .data channel payload ∧ payload.length ≤ Record.maxPayload := by
  induction pulls generalizing content with
  | nil => cases member
  | cons pull pulls ih =>
    rcases List.mem_cons.mp member with rfl | behind
    · exact ⟨_, rfl, Nat.le_trans (List.length_take_le _ _) pull.length_le_maxPayload⟩
    · exact ih behind

theorem data_of_mem_portions {channel : Channel} {content : Bytes} {served : List Pull}
    {last : Pull} (exceeds : content.length < Pull.demand served + last.length.toNat)
    {record : Record} (member : record ∈ portions channel content served) :
    ∃ payload, record = .data channel payload ∧ payload.length ≤ Record.maxPayload := by
  rcases List.mem_append.mp member with answer | rest
  · exact data_of_mem_filled answer
  · by_cases none : content.drop (Pull.demand served) = []
    · rw [if_pos none] at rest
      cases rest
    · rw [if_neg none] at rest
      rw [List.mem_singleton.mp rest]
      refine ⟨_, rfl, ?_⟩
      have bound := last.length_le_maxPayload
      rw [List.length_drop]
      omega

/-- A session that runs to its end delivers the file that it was opened for. -/
theorem delivers_transcript (target : Target) {content : Bytes} {served : List Pull} {last : Pull}
    (announceable : (FileInfo.of content).size ≤ Target.maxFileSize)
    (exceeds : content.length < Pull.demand served + last.length.toNat) :
    Delivers target content
      ((transcript target (.of content) content served).flatMap Record.octets)
      (tally content served) (target.opening (.of content))
      (portions target.channel content served) := by
  have whole := flatMap_payload_portions target.channel content served
  have data : ∀ record ∈ portions target.channel content served,
      ∃ payload, record = .data target.channel payload ∧ payload.length ≤ Record.maxPayload :=
    fun record member => data_of_mem_portions exceeds member
  constructor
  case received =>
    rw [transcript_eq_portions]
    apply Record.received_flatMap
    refine List.forall_mem_cons.mpr
      ⟨length_opening_le target _, List.forall_mem_append.mpr ⟨?_, ?_⟩⟩
    · intro record member
      rcases data record member with ⟨payload, rfl, bounded⟩
      exact bounded
    · intro record member
      cases List.mem_singleton.mp member
      exact Nat.zero_le _
  case channel =>
    refine List.forall_mem_cons.mpr ⟨rfl, fun record member => ?_⟩
    rcases data record member with ⟨payload, rfl, -⟩
    rfl
  case opens => rfl
  case carries =>
    intro record member
    rcases data record member with ⟨payload, rfl, -⟩
    rfl
  case tells =>
    rw [whole]
    exact target.tells_announcement announceable
  case counted => exact congrArg List.length whole
  case records => exact length_portions target.channel content served
  case content => exact whole

end Relay
end FirmwareGateway
