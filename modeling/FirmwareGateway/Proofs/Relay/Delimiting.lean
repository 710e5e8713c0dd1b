import FirmwareGateway.Proofs.Relay.Boundaries

namespace FirmwareGateway
namespace Relay

/-!
# Records one behind the other

A record tells its receiver how long it is, so records that are written one behind the
other into one buffer come apart again, and no two lists of records make the same octets.
What a session sends are such records: a header of a few octets, and data that is never
longer than the pull it answers.

The length of a payload is cut to 32 bits before it is looked at.  So what decides whether
a record can be written is the length that it tells, and a payload of four gibibytes or
more may be told too short.
-/

namespace Record

/-- The length that a record tells of its payload. -/
def toldLength (record : Record) : Nat := record.payload.length % UInt32.size

/-- The octets in front of the length. -/
def tags (record : Record) : Bytes := [record.channel.tag, record.type.tag]

/-- A buffer with a record behind what it held, as far as the record can be written. -/
def append (record : Record) (buffer : Bytes) : Wire.Attempt :=
  recordLayout.append buffer record.values

/-- A buffer with some records behind what it held, up to the first that cannot be
written whole. -/
def appendAll (buffer : Bytes) : List Record → Wire.Attempt
  | [] => ⟨buffer, none⟩
  | record :: records =>
    match record.append buffer with
    | ⟨longer, none⟩ => appendAll longer records
    | stopped => stopped

/-! ## One record -/

theorem toldLength_of_le {record : Record} (bounded : record.payload.length ≤ maxPayload) :
    record.toldLength = record.payload.length :=
  Nat.mod_eq_of_lt (Nat.lt_of_le_of_lt bounded (by decide))

theorem writeField_length (record : Record) :
    Wire.Layout.writeField recordLayout.name false ⟨"length", .word .u16le⟩
        (.int (UInt32.ofNat record.payload.length)) =
      if record.toldLength ≤ maxPayload then .ok (Bytes.littleEndian 2 record.toldLength)
      else .error (.fieldOverflow "length" (UInt32.ofNat record.payload.length)) := by
  have told : (UInt32.ofNat record.payload.length).toNat = record.toldLength :=
    UInt32.toNat_ofNat'
  have fits : record.toldLength < Nat.pow 256 Wire.Word.u16le.width ↔
      record.toldLength ≤ maxPayload := Nat.lt_succ_iff
  simp only [Wire.Layout.writeField, told, fits]
  rfl

/-- A record is written whole if the length that it tells has 16 bits, and up to its
length otherwise. -/
theorem write_eq (record : Record) :
    record.write =
      if record.toldLength ≤ maxPayload then
        ⟨record.tags ++ Bytes.littleEndian 2 record.toldLength ++ record.payload, none⟩
      else
        ⟨record.tags, some (.fieldOverflow "length" (UInt32.ofNat record.payload.length))⟩ := by
  have length := record.writeField_length
  simp only [recordLayout] at length
  by_cases fits : record.toldLength ≤ maxPayload
  · rw [if_pos fits] at length ⊢
    simp only [write, Wire.Layout.write, recordLayout, values, Wire.Layout.writeFields,
      Wire.Layout.writeField_u8, length, Wire.Layout.writeField_tail, List.isEmpty_cons,
      List.isEmpty_nil, List.length_cons, List.length_nil, if_true, tags, List.cons_append,
      List.nil_append, List.append_nil]
  · rw [if_neg fits] at length ⊢
    simp only [write, Wire.Layout.write, recordLayout, values, Wire.Layout.writeFields,
      Wire.Layout.writeField_u8, length, List.isEmpty_cons, List.length_cons, List.length_nil,
      if_true, tags, List.cons_append, List.nil_append]

theorem fault_append_eq_none_iff (record : Record) (buffer : Bytes) :
    (record.append buffer).fault = none ↔ record.toldLength ≤ maxPayload := by
  change record.write.fault = none ↔ _
  rw [write_eq]
  by_cases fits : record.toldLength ≤ maxPayload
  · rw [if_pos fits]
    exact iff_of_true rfl fits
  · rw [if_neg fits]
    exact iff_of_false nofun fits

theorem exists_encode_iff_toldLength_le (record : Record) :
    (∃ octets, record.encode = .ok octets) ↔ record.toldLength ≤ maxPayload := by
  rw [encode, write_eq]
  by_cases fits : record.toldLength ≤ maxPayload
  · rw [if_pos fits]
    exact iff_of_true ⟨_, rfl⟩ fits
  · rw [if_neg fits]
    exact iff_of_false nofun fits

/-- Writing a record fails only because of its length. -/
theorem eq_fieldOverflow_of_encode {record : Record} {fault : Error}
    (failed : record.encode = .error fault) :
    fault = .fieldOverflow "length" (UInt32.ofNat record.payload.length) := by
  rw [encode, write_eq] at failed
  by_cases fits : record.toldLength ≤ maxPayload
  · rw [if_pos fits] at failed
    cases failed
  · rw [if_neg fits] at failed
    cases failed
    rfl

/-! ## Many records -/

theorem append_eq {record : Record} (bounded : record.payload.length ≤ maxPayload)
    (buffer : Bytes) : record.append buffer = ⟨buffer ++ record.octets, none⟩ := by
  have told := toldLength_of_le bounded
  have wrote := record.write_eq
  rw [told, if_pos bounded] at wrote
  change (⟨buffer ++ record.write.written, record.write.fault⟩ : Wire.Attempt) = _
  rw [wrote]
  rfl

theorem appendAll_eq {records : List Record}
    (bounded : ∀ record ∈ records, record.payload.length ≤ maxPayload) (buffer : Bytes) :
    appendAll buffer records = ⟨buffer ++ records.flatMap octets, none⟩ := by
  induction records generalizing buffer with
  | nil => rw [appendAll, List.flatMap_nil, List.append_nil]
  | cons record records ih =>
    rcases List.forall_mem_cons.mp bounded with ⟨first, others⟩
    simp only [appendAll, append_eq first, ih others, List.flatMap_cons, List.append_assoc]

theorem received_appendAll {records : List Record}
    (bounded : ∀ record ∈ records, record.payload.length ≤ maxPayload) :
    received (appendAll [] records).written = some records := by
  rw [appendAll_eq bounded, List.nil_append]
  exact received_flatMap bounded

/-- Records that make the same octets are the same. -/
theorem eq_of_appendAll_eq {records others : List Record}
    (bounded : ∀ record ∈ records, record.payload.length ≤ maxPayload)
    (also : ∀ record ∈ others, record.payload.length ≤ maxPayload)
    (same : appendAll [] others = appendAll [] records) : others = records := by
  have read := received_appendAll also
  rw [same, received_appendAll bounded] at read
  exact (Option.some.inj read).symm

end Record

/-! ## The records of a session -/

/-- Nothing but data is written, and no more at a time than the latest pull asked for; the
latest of earlier ones asked for `asked`. -/
inductive Solicited (channel : Channel) : Nat → List Move → Prop
  | nil (asked : Nat) : Solicited channel asked []
  | pulled (asked : Nat) (pull : Pull) {moves : List Move}
      (behind : Solicited channel pull.length.toNat moves) :
      Solicited channel asked (.pulled pull :: moves)
  | wrote (asked : Nat) (payload : Bytes) (bounded : payload.length ≤ asked) {moves : List Move}
      (behind : Solicited channel asked moves) :
      Solicited channel asked (.wrote (Record.data channel payload).octets :: moves)

namespace Solicited

variable {channel : Channel}

/-- Answers in full, with something behind them that waits for a pull. -/
theorem replies {moves : List Move} (waits : ∀ asked, Solicited channel asked moves)
    (content : Bytes) (pulls : List Pull) (asked : Nat) :
    Solicited channel asked (replies channel content pulls ++ moves) := by
  induction pulls generalizing content asked with
  | nil => exact waits asked
  | cons pull pulls ih =>
    rw [replies_cons]
    exact .pulled _ pull (.wrote _ _ (List.length_take_le _ _) (ih _ _))

theorem records {asked : Nat} {records : List Record}
    (data : ∀ record ∈ records, ∃ payload, record = .data channel payload ∧
      payload.length ≤ asked) :
    Solicited channel asked (records.map fun record => .wrote record.octets) := by
  induction records with
  | nil => exact .nil asked
  | cons record records ih =>
    rcases List.forall_mem_cons.mp data with ⟨⟨payload, rfl, bounded⟩, others⟩
    exact .wrote asked payload bounded (ih others)

end Solicited

/-- What is left of a file that a pull overdraws is less than it asked for. -/
theorem data_of_mem_closing {channel : Channel} {content : Bytes} {asked : Nat}
    (overdrawn : content.length < asked) {record : Record}
    (member : record ∈ closing channel content) :
    ∃ payload, record = .data channel payload ∧ payload.length ≤ asked := by
  rcases List.mem_append.mp member with rest | last
  · by_cases none : content = []
    · rw [if_pos none] at rest
      cases rest
    · rw [if_neg none] at rest
      exact ⟨content, List.mem_singleton.mp rest, Nat.le_of_lt overdrawn⟩
  · exact ⟨[], List.mem_singleton.mp last, Nat.zero_le asked⟩

namespace Session

theorem data_of_mem_reply {session : Session} {pull : Pull} {record : Record}
    (member : record ∈ session.reply pull) :
    ∃ payload, record = .data session.channel payload ∧ payload.length ≤ pull.length.toNat := by
  by_cases enough : pull.length.toNat ≤ session.source.content.length
  · rw [reply, if_pos enough] at member
    exact ⟨_, List.mem_singleton.mp member, List.length_take_le _ _⟩
  · rw [reply, if_neg enough] at member
    exact data_of_mem_closing (Nat.lt_of_not_le enough) member

theorem AnswerEnds.solicited {session : Session} {pull : Pull} {remainder : Bytes} {sink : Sink}
    {turn : Turn} (ends : session.AnswerEnds pull remainder sink turn) :
    Solicited session.channel pull.length.toNat turn.moves := by
  cases ends with
  | filled sink enough => exact .wrote _ _ (List.length_take_le _ _) (.nil _)
  | finished sink summary faultless overdrawn =>
    exact .records fun record member => data_of_mem_closing overdrawn member
  | unread sink fault faulty overdrawn => exact .nil _
  | refused sent unsent fault records more readable =>
    apply Solicited.records
    intro record member
    exact data_of_mem_reply (records ▸ List.mem_append_left unsent member)

theorem ServeEnds.solicited {session : Session} {octets : Bytes} {sink : Sink} {turn : Turn}
    (ends : session.ServeEnds octets sink turn) (asked : Nat) :
    Solicited session.channel asked turn.moves := by
  cases ends with
  | waits served sink pulls within =>
    rw [← List.append_nil (replies session.channel session.source.content served)]
    exact Solicited.replies .nil _ _ _
  | stops served last more sink turn outcome pulls within ends stopped =>
    have answer := ends.solicited
    rw [channel_behind] at answer
    rw [Turn.after, List.append_assoc]
    exact Solicited.replies (fun asked => .pulled asked last answer) _ _ _

end Session

section
variable {target : Target} {info : FileInfo} {source : Source} {sink : Sink} {reads : List Read}

theorem Concludes.solicited {opening : Move} {exchange : Exchange}
    (concludes : Concludes (Session.opened target source) sink [] [opening] reads exchange) :
    ∃ moves, exchange.moves = opening :: moves ∧ Solicited target.channel 0 moves := by
  have served : ∀ pieces : List Bytes, Solicited target.channel 0
      ((Session.opened target source).serve sink ([] ++ pieces.flatten)).moves := by
    intro pieces
    exact ((Session.opened target source).serve_ends sink _).solicited 0
  cases concludes with
  | stopped pieces later turn outcome nonempty split same ended =>
    exact ⟨turn.moves, rfl, same ▸ served pieces⟩
  | cut pieces later unread turn waiting fault nonempty split same waits cut =>
    exact ⟨turn.moves, rfl, same ▸ served pieces⟩

/-- A session writes nothing at all, or a header of at most 22 octets and then data that
was asked for. -/
theorem solicited_of_run (target : Target) (info : FileInfo) (source : Source) (sink : Sink)
    (reads : List Read) :
    (run target info source sink reads).moves = [] ∨
      ∃ metadata moves, (run target info source sink reads).moves =
        .wrote (Record.header target.channel metadata).octets :: moves ∧
        metadata.length ≤ 22 ∧ Solicited target.channel 0 moves := by
  by_cases announceable : info.size ≤ Target.maxFileSize
  · rcases sink.full_or_ahead with ⟨refusal, rfl⟩ | ⟨later, rfl⟩
    · left
      rw [run_full source announceable]
    · right
      rcases (run_announced source announceable later reads).solicited with
        ⟨moves, opened, solicited⟩
      exact ⟨_, moves, opened, target.length_announcement_le info, solicited⟩
  · left
    rw [run_large source (Nat.lt_of_not_le announceable)]

/-- No session fails because a record cannot be written into the buffer. -/
theorem encode_ne_fault_of_run {fault : Error}
    (failed : (run target info source sink reads).outcome = .failed fault) (record : Record) :
    record.encode ≠ .error fault := by
  intro unencoded
  have long := Record.eq_fieldOverflow_of_encode unencoded
  rcases unannounced_or_severed failed with ⟨-, -, large⟩ | ⟨-, severs⟩
  · rw [large] at long
    exact absurd (Error.fieldOverflow.inj long).1 (by decide)
  · rw [long] at severs
    cases severs

end

/-- Records delimit themselves.  Those with payloads of at most 65535 octets, written one
behind the other into one buffer, are what a receiver reads there, with nothing left over,
and no other such records make the same octets.  A record is written whole exactly if the
length that it tells, that of its payload in 32 bits, is no more than that.  Every session
writes such records only: a header of at most 22 octets, and data no longer than the pull
it answers; so no session fails because a record cannot be written. -/
theorem records_self_delimiting (records : List Record) (record : Record) (buffer : Bytes)
    (target : Target) (info : FileInfo) (source : Source) (sink : Sink) (reads : List Read) :
    ((∀ record ∈ records, record.payload.length ≤ Record.maxPayload) →
      ∃ stream, Record.appendAll [] records = ⟨stream, none⟩ ∧
        Record.received stream = some records ∧
        ∀ others : List Record, (∀ record ∈ others, record.payload.length ≤ Record.maxPayload) →
          Record.appendAll [] others = ⟨stream, none⟩ → others = records) ∧
    ((record.append buffer).fault = none ↔
      record.payload.length % UInt32.size ≤ Record.maxPayload) ∧
    (record.payload.length < UInt32.size →
      ((record.append buffer).fault = none ↔ record.payload.length ≤ Record.maxPayload)) ∧
    ((run target info source sink reads).moves = [] ∨
      ∃ metadata moves, (run target info source sink reads).moves =
        .wrote (Record.header target.channel metadata).octets :: moves ∧
        metadata.length ≤ 22 ∧ Solicited target.channel 0 moves) ∧
    ∀ fault, (run target info source sink reads).outcome = .failed fault →
      ∀ record : Record, record.encode ≠ .error fault := by
  have written := record.fault_append_eq_none_iff buffer
  refine ⟨?_, written, ?_, solicited_of_run target info source sink reads, ?_⟩
  · intro bounded
    have stream := Record.appendAll_eq bounded []
    refine ⟨_, stream, ?_, ?_⟩
    · have read := Record.received_appendAll bounded
      rwa [stream] at read
    · intro others also same
      exact Record.eq_of_appendAll_eq bounded also (same.trans stream.symm)
  · intro small
    rwa [Record.toldLength, Nat.mod_eq_of_lt small] at written
  · intro fault failed
    exact encode_ne_fault_of_run failed

/-- A header, data and the ending record for a node, and a payload that is one octet too
long. -/
theorem records_self_delimiting_three :
    (∃ stream, Record.appendAll [] [.header .node [7], .data .node [1, 2], .ending .node] =
        ⟨stream, none⟩ ∧
      Record.received stream =
        some [.header .node [7], .data .node [1, 2], .ending .node]) ∧
    (Record.append (.data .node (List.replicate 65536 0)) []).fault ≠ none := by
  rcases records_self_delimiting [.header .node [7], .data .node [1, 2], .ending .node]
    (.data .node (List.replicate 65536 0)) [] .bridge (.of []) (.ofBytes []) .endless [] with
    ⟨delimits, -, written, -⟩
  have length : (Record.data .node (List.replicate 65536 0)).payload.length = 65536 :=
    List.length_replicate
  constructor
  · rcases delimits (by decide) with ⟨stream, wrote, read, -⟩
    exact ⟨stream, wrote, read⟩
  · rw [ne_eq, written (by rw [length]; decide), length]
    decide

/-- A payload of four gibibytes is told to be empty, so its record is written, although it
is too long. -/
theorem not_encode_iff_bounded :
    ¬ ((∃ octets, (Record.data .bridge (List.replicate UInt32.size 0)).encode = .ok octets) ↔
      (Record.data .bridge (List.replicate UInt32.size 0)).payload.length ≤ Record.maxPayload) := by
  have length : (Record.data .bridge (List.replicate UInt32.size 0)).payload.length = UInt32.size :=
    List.length_replicate
  rw [Record.exists_encode_iff_toldLength_le, Record.toldLength, length]
  decide

end Relay
end FirmwareGateway
