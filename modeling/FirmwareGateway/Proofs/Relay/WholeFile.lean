import FirmwareGateway.Proofs.Relay.Serving

namespace FirmwareGateway
namespace Relay

/-!
# Sessions that relay a whole file

A peer that goes on pulling comes to a first pull that asks for more than the file
still has.  Until then every pull is answered in full, and with that one the session
is over: it sends what is left, if anything is, and the ending record.  Which pull is
the last depends on the lengths alone, so the pieces in which the stream or the file
comes make no difference.

`transcript` is the session as its peer sees it, record by record.
-/

/-! ## Writing -/

namespace Sink

/-- The next `count` writes do not fail. -/
def Takes (sink : Sink) (count : Nat) : Prop :=
  ∀ room, sink.room = some room → count ≤ room

theorem Takes.write {sink : Sink} {count : Nat} (takes : sink.Takes (count + 1)) :
    ∃ later, sink.write = .ok later ∧ later.Takes count := by
  rcases sink with ⟨room, fault⟩
  cases room with
  | none => exact ⟨⟨none, fault⟩, rfl, fun _ => nofun⟩
  | some room =>
    have enough := takes room rfl
    rcases Nat.exists_eq_add_of_le' (Nat.le_of_add_left_le enough) with ⟨room, rfl⟩
    refine ⟨⟨some room, fault⟩, rfl, ?_⟩
    intro left same
    cases same
    exact Nat.le_of_succ_le_succ enough

end Sink

/-- A write that the sink takes. -/
theorem Session.write_eq (session : Session) {sink : Sink} (record : Record) {count : Nat}
    (bounded : record.payload.length ≤ Record.maxPayload) (takes : sink.Takes (count + 1)) :
    ∃ later : Sink, session.write sink record = ⟨[.wrote record.octets], later, .waiting session⟩ ∧
      later.Takes count := by
  rcases takes.write with ⟨later, wrote, left⟩
  refine ⟨later, ?_, left⟩
  simp only [Session.write, Record.encode_eq bounded, wrote]

/-! ## The records of a session -/

/-- The records that answer pulls in full: each holds the next octets of the content. -/
def filled (channel : Channel) : Bytes → List Pull → List Record
  | _, [] => []
  | content, pull :: pulls =>
    .data channel (content.take pull.length.toNat) ::
      filled channel (content.drop pull.length.toNat) pulls

/-- The records that answer a pull which asks for more than the content left. -/
def closing (channel : Channel) (content : Bytes) : List Record :=
  (if content = [] then [] else [.data channel content]) ++ [.ending channel]

/-- All records of a session that answers some pulls in full and then one that it
cannot fill. -/
def transcript (target : Target) (info : FileInfo) (content : Bytes) (pulls : List Pull) :
    List Record :=
  .header target.channel (target.announcement info) ::
    (filled target.channel content pulls ++
      closing target.channel (content.drop (Pull.demand pulls)))

/-- The moves that answer pulls in full. -/
def replies (channel : Channel) (content : Bytes) (pulls : List Pull) : List Move :=
  (pulls.zip (filled channel content pulls)).flatMap fun (pull, record) =>
    [.pulled pull, .wrote record.octets]

/-- The pulls taken in some moves. -/
def taken (moves : List Move) : List Pull :=
  moves.filterMap fun
    | .pulled pull => some pull
    | .wrote _ => none

theorem length_filled (channel : Channel) (content : Bytes) (pulls : List Pull) :
    (filled channel content pulls).length = pulls.length := by
  induction pulls generalizing content with
  | nil => rfl
  | cons pull pulls ih => simp only [filled, List.length_cons, ih]

theorem replies_cons (channel : Channel) (content : Bytes) (pull : Pull) (pulls : List Pull) :
    replies channel content (pull :: pulls) =
      .pulled pull :: .wrote (Record.data channel (content.take pull.length.toNat)).octets ::
        replies channel (content.drop pull.length.toNat) pulls := by
  simp only [replies, filled, List.zip_cons_cons, List.flatMap_cons, List.cons_append,
    List.nil_append]

theorem written_pulled (pull : Pull) (moves : List Move) :
    written (.pulled pull :: moves) = written moves :=
  rfl

theorem written_wrote (bytes : Bytes) (moves : List Move) :
    written (.wrote bytes :: moves) = bytes ++ written moves :=
  rfl

theorem written_append (first second : List Move) :
    written (first ++ second) = written first ++ written second := by
  simp only [written, List.flatMap_append]

theorem written_records (records : List Record) :
    written (records.map fun record => .wrote record.octets) =
      records.flatMap Record.octets := by
  simp only [written, List.flatMap_map]

theorem written_replies (channel : Channel) (content : Bytes) (pulls : List Pull) :
    written (replies channel content pulls) =
      (filled channel content pulls).flatMap Record.octets := by
  induction pulls generalizing content with
  | nil => rfl
  | cons pull pulls ih =>
    rw [replies_cons, written_pulled, written_wrote, ih, filled, List.flatMap_cons]

theorem taken_pulled (pull : Pull) (moves : List Move) :
    taken (.pulled pull :: moves) = pull :: taken moves :=
  rfl

theorem taken_wrote (bytes : Bytes) (moves : List Move) :
    taken (.wrote bytes :: moves) = taken moves :=
  rfl

theorem taken_append (first second : List Move) :
    taken (first ++ second) = taken first ++ taken second := by
  simp only [taken, List.filterMap_append]

theorem taken_records (records : List Record) :
    taken (records.map fun record => .wrote record.octets) = [] := by
  induction records with
  | nil => rfl
  | cons record records ih => rw [List.map_cons, taken_wrote, ih]

theorem taken_replies (channel : Channel) (content : Bytes) (pulls : List Pull) :
    taken (replies channel content pulls) = pulls := by
  induction pulls generalizing content with
  | nil => rfl
  | cons pull pulls ih => rw [replies_cons, taken_pulled, taken_wrote, ih]

/-! ## Answering one pull -/

theorem Pull.length_le_maxPayload (pull : Pull) : pull.length.toNat ≤ Record.maxPayload :=
  Nat.le_of_lt_succ pull.length.toNat_lt

namespace Session

/-- A pull that the content can fill. -/
theorem answer_filled (session : Session) {sink : Sink} {content : Bytes} {pull : Pull}
    {writes : Nat} (holds : session.source.Holds content)
    (enough : pull.length.toNat ≤ content.length) (takes : sink.Takes (writes + 1)) (rest : Bytes) :
    ∃ (left : Source) (later : Sink),
      session.answer sink pull rest =
        ⟨[.wrote (Record.data session.channel (content.take pull.length.toNat)).octets], later,
          .waiting { session with
            source := left
            summary := ⟨session.summary.dataRecords + 1,
              session.summary.bytesSent + pull.length.toNat⟩ }⟩ ∧
        left.Holds (content.drop pull.length.toNat) ∧ later.Takes writes := by
  rcases holds.take pull.length.toNat with ⟨left, took, leaves⟩
  have length : (content.take pull.length.toNat).length = pull.length.toNat := by
    rw [List.length_take, Nat.min_eq_left enough]
  have bounded : (content.take pull.length.toNat).length ≤ Record.maxPayload := by
    rw [length]
    exact pull.length_le_maxPayload
  rcases write_eq (({ session with source := left }).count (content.take pull.length.toNat))
      (.data session.channel (content.take pull.length.toNat)) bounded takes with
      ⟨later, wrote, room⟩
  refine ⟨left, later, ?_, leaves, room⟩
  have full : decide ((content.take pull.length.toNat).length < pull.length.toNat) = false := by
    rw [length]
    exact decide_eq_false (Nat.lt_irrefl _)
  simp only [answer, took, full, Bool.false_and, Bool.false_eq_true, if_false, wrote,
    Turn.andThen_waiting]
  simp only [Turn.after, count, length, List.append_nil]

theorem finish_eq (session : Session) {sink : Sink} {writes : Nat}
    (takes : sink.Takes (writes + 1)) (remainder : Bytes) :
    ∃ later : Sink, session.finish sink remainder =
      ⟨[.wrote (Record.ending session.channel).octets], later,
        .ended (.finished session.summary remainder)⟩ := by
  rcases session.write_eq (.ending session.channel) (Nat.zero_le _) takes with ⟨later, wrote, -⟩
  refine ⟨later, ?_⟩
  simp only [finish, wrote, Turn.andThen_waiting, Turn.after, List.append_nil]

/-- A pull that asks for more than the content. -/
theorem answer_closing (session : Session) {sink : Sink} {content : Bytes} {pull : Pull}
    (holds : session.source.Holds content) (overdrawn : content.length < pull.length.toNat)
    (takes : sink.Takes (closing session.channel content).length) (rest : Bytes) :
    ∃ later : Sink, session.answer sink pull rest =
      ⟨(closing session.channel content).map fun record => .wrote record.octets, later,
        .ended (.finished
          ⟨session.summary.dataRecords + (if content = [] then 0 else 1),
            session.summary.bytesSent + content.length⟩ rest)⟩ := by
  rcases holds.take pull.length.toNat with ⟨left, took, -⟩
  have all : content.take pull.length.toNat = content :=
    List.take_of_length_le (Nat.le_of_lt overdrawn)
  have short : decide (content.length < pull.length.toNat) = true := decide_eq_true overdrawn
  rw [all] at took
  cases content with
  | nil =>
    rcases finish_eq { session with source := left } takes rest with ⟨later, finished⟩
    refine ⟨later, ?_⟩
    simp only [answer, took, short, List.isEmpty_nil, Bool.and_true, if_true, finished]
    rfl
  | cons octet octets =>
    have bounded : (octet :: octets).length ≤ Record.maxPayload :=
      Nat.le_trans (Nat.le_of_lt overdrawn) pull.length_le_maxPayload
    rcases write_eq (({ session with source := left }).count (octet :: octets))
        (.data session.channel (octet :: octets)) bounded takes with
        ⟨between, wrote, room⟩
    rcases finish_eq (({ session with source := left }).count (octet :: octets)) room rest with
        ⟨later, finished⟩
    refine ⟨later, ?_⟩
    simp only [answer, took, short, List.isEmpty_cons, Bool.and_false, Bool.false_eq_true,
      if_false, wrote, Turn.andThen_waiting, if_true, finished]
    rfl

/-! ## Serving up to the last pull -/

/-- A stream whose pulls can be filled up to one that cannot ends the session there. -/
theorem serve_overdrawn (earlier : List Pull) (last : Pull) (more : List Pull) (session : Session)
    {sink : Sink} {content octets : Bytes} (holds : session.source.Holds content)
    (pulls : Pull.stream octets = earlier ++ last :: more)
    (within : Pull.demand earlier ≤ content.length)
    (overdrawn : content.length < Pull.demand earlier + last.length.toNat)
    (takes : sink.Takes (earlier.length +
      (closing session.channel (content.drop (Pull.demand earlier))).length)) :
    ∃ later : Sink, session.serve sink octets =
      ⟨replies session.channel content earlier ++ .pulled last ::
          (closing session.channel (content.drop (Pull.demand earlier))).map
            fun record => .wrote record.octets, later,
        .ended (.finished
          ⟨session.summary.dataRecords + earlier.length +
              (if content.drop (Pull.demand earlier) = [] then 0 else 1),
            session.summary.bytesSent + content.length⟩
          (octets.drop (3 * (earlier.length + 1))))⟩ := by
  induction earlier generalizing session sink content octets with
  | nil =>
    rcases Pull.stream_eq_cons pulls with ⟨type, low, high, rest, rfl, rfl, -⟩
    simp only [Pull.demand_nil, List.drop_zero, List.length_nil, Nat.zero_add] at overdrawn takes ⊢
    rcases session.answer_closing holds overdrawn takes rest with ⟨later, answered⟩
    refine ⟨later, ?_⟩
    rw [serve_octets, answered]
    rfl
  | cons pull earlier ih =>
    rcases Pull.stream_eq_cons pulls with ⟨type, low, high, rest, rfl, same, later⟩
    rw [Pull.demand_cons] at within overdrawn takes
    have enough : pull.length.toNat ≤ content.length := Nat.le_of_add_right_le within
    have left_length : (content.drop pull.length.toNat).length =
        content.length - pull.length.toNat := List.length_drop
    rw [← List.drop_drop, List.length_cons, Nat.add_right_comm] at takes
    rcases session.answer_filled holds enough takes rest with
        ⟨left, between, answered, leaves, room⟩
    let counted : Session := { session with
      source := left
      summary := ⟨session.summary.dataRecords + 1,
        session.summary.bytesSent + pull.length.toNat⟩ }
    rcases ih counted leaves later (by omega) (by omega) room with ⟨final, served⟩
    refine ⟨final, ?_⟩
    have sent : session.summary.bytesSent + pull.length.toNat +
        (content.drop pull.length.toNat).length = session.summary.bytesSent + content.length := by
      omega
    have records : session.summary.dataRecords + 1 + earlier.length =
        session.summary.dataRecords + (earlier.length + 1) := by
      omega
    have octets : (type :: low :: high :: rest).drop (3 * (earlier.length + 1 + 1)) =
        rest.drop (3 * (earlier.length + 1)) := by
      have three : 3 * (earlier.length + 1 + 1) = 3 * (earlier.length + 1) + 1 + 1 + 1 := by
        omega
      rw [three]
      rfl
    rw [serve_octets, ← same, answered, Turn.andThen_waiting, served, List.drop_drop, sent,
      Pull.demand_cons]
    simp only [Turn.after, counted, records, replies_cons, List.length_cons, octets,
      List.cons_append, List.nil_append]

end Session

/-! ## Whole sessions -/

/-- The first pull with which a file is overdrawn splits the pulls. -/
theorem Pull.split_overdrawn {pulls : List Pull} {size k : Nat}
    (overdrawn : size < demand (pulls.take k)) (least : ∀ j < k, demand (pulls.take j) ≤ size) :
    ∃ earlier last more, pulls = earlier ++ last :: more ∧ k = earlier.length + 1 ∧
      demand earlier ≤ size ∧ size < demand earlier + last.length.toNat := by
  cases k with
  | zero => exact absurd overdrawn (Nat.not_lt_zero size)
  | succ j =>
    have within := least j (Nat.lt_succ_self j)
    have inside : j < pulls.length := by
      apply Nat.lt_of_not_le
      intro outside
      rw [List.take_of_length_le (Nat.le_succ_of_le outside),
        ← List.take_of_length_le outside] at overdrawn
      exact Nat.not_le.mpr overdrawn within
    have taken : pulls.take (j + 1) = pulls.take j ++ [pulls[j]] :=
      List.take_succ_eq_append_getElem inside
    refine ⟨pulls.take j, pulls[j], pulls.drop (j + 1), ?_, ?_, within, ?_⟩
    · rw [← List.drop_eq_getElem_cons inside, List.take_append_drop]
    · rw [List.length_take, Nat.min_eq_left (Nat.le_of_lt inside)]
    · rw [taken, demand_append] at overdrawn
      simpa only [demand_cons, demand_nil, Nat.add_zero] using overdrawn

/-- Behind the pulls that are answered in full, one more record counts if the file has octets
left for it. -/
theorem counted_closing (content : Bytes) (served : List Pull) :
    served.length + (if content.drop (Pull.demand served) = [] then 0 else 1) =
      if Pull.demand served < content.length then served.length + 1 else served.length := by
  by_cases left : Pull.demand served < content.length
  · have some : content.drop (Pull.demand served) ≠ [] :=
      fun none => Nat.not_le.mpr left (List.drop_eq_nil_iff.mp none)
    rw [if_neg some, if_pos left]
  · have none : content.drop (Pull.demand served) = [] :=
      List.drop_eq_nil_iff.mpr (Nat.not_lt.mp left)
    rw [if_pos none, if_neg left, Nat.add_zero]

/-- A relay of a whole file.  The peer's stream comes in pieces, and pull number `k`
is the first that asks for more than the file still has.  The session takes these `k`
pulls and no more, and sends the header, one record for each pull before the last,
what the file has left, and the ending record.  The summary counts the file's octets
and the records with a part of it.  Of the octets behind the last pull, what was
already read is handed back and the rest is still to be read. -/
theorem run_whole_file (target : Target) (info : FileInfo) (source : Source) (sink : Sink)
    (pieces : List Bytes) (later : List Read) (k : Nat)
    (announceable : info.size ≤ Target.maxFileSize) (faultless : source.fault = none)
    (nonempty : ∀ piece ∈ pieces, piece ≠ [])
    (overdrawn : source.content.length < Pull.demand ((Pull.stream pieces.flatten).take k))
    (least : ∀ j < k, Pull.demand ((Pull.stream pieces.flatten).take j) ≤ source.content.length)
    (writable : sink.Takes (transcript target info source.content
      ((Pull.stream pieces.flatten).take (k - 1))).length) :
    ∃ (exchange : Exchange) (read unread : List Bytes) (remainder : Bytes),
      run target info source sink (pieces.map .octets ++ later) = exchange ∧
      target.metadata info = .ok (target.announcement info) ∧
      taken exchange.moves = (Pull.stream pieces.flatten).take k ∧
      written exchange.moves = (transcript target info source.content
        ((Pull.stream pieces.flatten).take (k - 1))).flatMap Record.octets ∧
      exchange.outcome = .finished
        ⟨if Pull.demand ((Pull.stream pieces.flatten).take (k - 1)) < source.content.length
            then k else k - 1,
          source.content.length⟩ remainder ∧
      exchange.unread = unread.map .octets ++ later ∧ pieces = read ++ unread ∧
      remainder ++ unread.flatten = pieces.flatten.drop (3 * k) := by
  rcases Pull.split_overdrawn overdrawn least with
      ⟨earlier, last, more, pulls, rfl, within, exceeds⟩
  have before : (Pull.stream pieces.flatten).take (earlier.length + 1 - 1) = earlier := by
    rw [pulls, Nat.add_sub_cancel, List.take_left]
  have upTo : (Pull.stream pieces.flatten).take (earlier.length + 1) = earlier ++ [last] := by
    rw [pulls, List.take_append, List.take_of_length_le (Nat.le_succ _), Nat.add_sub_cancel_left]
    rfl
  rw [before] at writable ⊢
  rw [upTo]
  have announced := target.metadata_eq announceable
  have headed : (target.announcement info).length ≤ Record.maxPayload :=
    Nat.le_trans (target.length_announcement_le info) (by decide)
  let session : Session := ⟨target.channel, source, [], ⟨0, 0⟩⟩
  simp only [transcript, List.length_cons, List.length_append, length_filled] at writable
  rcases session.write_eq (.header target.channel (target.announcement info)) headed writable with
      ⟨opened, wrote, room⟩
  have started : start target info source sink =
      ⟨[.wrote (Record.header target.channel (target.announcement info)).octets], opened,
        .waiting session⟩ := by
    simp only [start, announced]
    exact wrote
  rcases Session.serve_overdrawn earlier last more session
    ⟨faultless, rfl⟩ pulls within exceeds room with
      ⟨final, served⟩
  have short : ([] : Bytes).length < Pull.size := by decide
  rcases conclude_pieces short nonempty served
    [.wrote (Record.header target.channel (target.announcement info)).octets] later with
      ⟨read, unread, kept, split, back, concluded⟩
  rw [run, started, concluded]
  refine ⟨_, read, unread, kept, rfl, announced, ?_, ?_, ?_, rfl, split, back.symm⟩
  · rw [taken_append, taken_wrote, taken_append, taken_replies, taken_pulled, taken_records]
    rfl
  · rw [written_append, written_wrote, written_append, written_replies, written_pulled,
      written_records, transcript, List.flatMap_cons, List.flatMap_append]
    simp only [written, List.flatMap_nil, List.append_nil, session]
  · simp only [session, Nat.zero_add, Nat.add_sub_cancel, counted_closing]

/-- Three octets for a node: one pull is cut in two, one asks for nothing, and one asks
for more than is left, behind which an octet has come already. -/
theorem run_whole_file_cut_pull :
    ∃ (exchange : Exchange) (read unread : List Bytes) (remainder : Bytes),
      run (.node 9) ⟨3, List.replicate 16 7, rfl⟩ ⟨[[1, 2], [3]], none⟩ ⟨some 5, .brokenPipe⟩
        ([[0, 2], [0, 0, 0, 0], [0, 5, 0, 111]].map .octets ++ [.fault .brokenPipe]) = exchange ∧
      taken exchange.moves = [⟨0, 2⟩, ⟨0, 0⟩, ⟨0, 5⟩] ∧
      exchange.outcome = .finished ⟨3, 3⟩ remainder ∧
      exchange.unread = unread.map .octets ++ [.fault .brokenPipe] ∧
      [[0, 2], [0, 0, 0, 0], [0, 5, 0, 111]] = read ++ unread ∧
      remainder ++ unread.flatten = [111] := by
  rcases run_whole_file (.node 9) ⟨3, List.replicate 16 7, rfl⟩ ⟨[[1, 2], [3]], none⟩
      ⟨some 5, .brokenPipe⟩ [[0, 2], [0, 0, 0, 0], [0, 5, 0, 111]] [.fault .brokenPipe] 3
      (by decide) rfl (by decide) (by decide) (by decide)
      (fun room same => by cases same; decide) with
      ⟨exchange, read, unread, remainder, ran, -, pulls, -, outcome, left, split, back⟩
  exact ⟨exchange, read, unread, remainder, ran, pulls, outcome, left, split, back⟩

end Relay
end FirmwareGateway
