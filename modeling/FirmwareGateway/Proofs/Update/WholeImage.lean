import FirmwareGateway.Proofs.Chunks
import FirmwareGateway.Proofs.Update.Answering
import FirmwareGateway.Proofs.Update.Serving

namespace FirmwareGateway
namespace Update

/-!
# A node that asks for the whole image

A node may cut an image into runs as it likes, each of at most 255 chunks, and other
datagrams may come in between.  As long as every arrival that is waited for comes
within the window then open, and the link takes what is sent, every chunk is reported
once and in order, only the last report is marked, and the chunks laid end to end are
the image.

`runs` lists the requests of such a node and `InTime` says what being in time is.
Arrivals behind the last request are not waited for, so nothing is asked of them.
-/

/-- Requests for runs of the given sizes, the first beginning at a number and each
where the one before it ends. -/
def runs : Nat → List UInt8 → List Wire.ChunkRequest
  | _, [] => []
  | first, size :: sizes => ⟨UInt16.ofNat first, size⟩ :: runs (first + size.toNat) sizes

/-- How many chunks runs of the given sizes take together. -/
def covered : List UInt8 → Nat
  | [] => 0
  | size :: sizes => size.toNat + covered sizes

/-- While some chunks are missing, every arrival is due within the window that is open
when it is waited for.  A window stays open until a request comes; the next one opens
when the reports asked for have gone out. -/
def InTime (settings : Settings) : (missing now deadline : Nat) → List Arrival → Prop
  | _, _, _, [] => True
  | missing, now, deadline, arrival :: later =>
    missing = 0 ∨ arrival.due ≤ deadline ∧
      match arrival.request? with
      | none => InTime settings missing (max now arrival.due) deadline later
      | some request =>
        let opened := max now arrival.due +
          min request.size.toNat missing * settings.reportInterval
        InTime settings (missing - request.size.toNat) opened (opened + settings.requestTimeout)
          later

theorem InTime.passed {settings : Settings} {missing now deadline : Nat}
    {passed later : List Arrival} (inTime : InTime settings missing now deadline (passed ++ later))
    (left : missing ≠ 0) (datagrams : ∀ arrival ∈ passed, arrival.IsDatagram)
    (unasked : ∀ arrival ∈ passed, arrival.request? = none) :
    (∀ arrival ∈ passed, arrival.Passes Wire.ChunkRequest.read? deadline) ∧
      InTime settings missing (latest now passed) deadline later := by
  induction passed generalizing now with
  | nil => exact ⟨nofun, inTime⟩
  | cons arrival passed ih =>
    rcases inTime with finished | ⟨due, rest⟩
    · exact absurd finished left
    · rcases List.forall_mem_cons.mp datagrams with ⟨isDatagram, otherDatagrams⟩
      rcases List.forall_mem_cons.mp unasked with ⟨holdsNone, othersUnasked⟩
      rw [holdsNone] at rest
      rcases ih rest otherDatagrams othersUnasked with ⟨others, inTime⟩
      exact ⟨List.forall_mem_cons.mpr ⟨⟨due, isDatagram, holdsNone⟩, others⟩, inTime⟩

namespace Session

/-! ## One run -/

section
variable {session : Session} {request : Wire.ChunkRequest} {first size : Nat}

theorem numbers_run (small : first ≤ Wire.maxReportNumber) (size : UInt8) :
    (Wire.ChunkRequest.mk (UInt16.ofNat first) size).numbers = List.range' first size.toNat := by
  have bound : first < 2 ^ 16 := Nat.lt_of_le_of_lt small (by decide)
  rw [Wire.ChunkRequest.numbers, Wire.ChunkRequest.first, UInt16.toNat_ofNat_of_lt' bound]

/-- A run that begins inside the image is reported to its end or to that of the image. -/
theorem deliver_run {count : Nat} (numbers : request.numbers = List.range' first size)
    (begins : first ≤ session.totalChunks)
    (counted : min size (session.totalChunks + 1 - first) = count)
    (takes : session.link.Takes count) :
    deliver request session =
      .ok (decide (session.totalChunks < first + size))
        (session.afterReports (List.range' first count)) := by
  have sent := sendReports_reach size first session
  have last : (0 < size ∧ session.totalChunks ≤ first + size - 1) ↔
      session.totalChunks < first + size := by omega
  rw [reach_eq_range' begins, counted, List.length_range', decide_eq_decide.mpr last] at sent
  rw [deliver, numbers, sent takes]

end

/-! ## From run to run -/

end Session

/-- Runs of some sizes, none of them empty, reach the number of chunks missing with
the last of them and not before. -/
structure Cuts (sizes : List UInt8) (missing : Nat) : Prop where
  positive : ∀ size ∈ sizes, size ≠ 0
  needed : covered sizes.dropLast < missing
  enough : missing ≤ covered sizes

theorem Cuts.later {size : UInt8} {sizes : List UInt8} {missing : Nat}
    (cuts : Cuts (size :: sizes) missing) (less : size.toNat < missing) :
    Cuts sizes (missing - size.toNat) := by
  have enough := cuts.enough
  rw [covered] at enough
  have more : sizes ≠ [] := by
    rintro rfl
    exact absurd enough (Nat.not_le.mpr less)
  have needed := cuts.needed
  rw [List.dropLast_cons_of_ne_nil more, covered] at needed
  constructor
  · exact (List.forall_mem_cons.mp cuts.positive).2
  · omega
  · omega

namespace Session

/-- What holds whenever a request is waited for: the chunks from `first` on are missing,
the requests for them are on their way in time, and the link takes their reports. -/
structure Awaits (session : Session) (first missing : Nat) (sizes : List UInt8) : Prop where
  numbered : session.totalChunks ≤ Wire.maxReportNumber
  ends : first + missing = session.totalChunks + 1
  cuts : Cuts sizes missing
  requests : session.link.inbound.filterMap Arrival.request? = runs first sizes
  datagrams : ∀ arrival ∈ session.link.inbound, arrival.IsDatagram
  inTime : InTime session.settings missing session.link.now
    (session.link.now + session.settings.requestTimeout) session.link.inbound
  takes : session.link.Takes missing

section
variable {session : Session} {first missing : Nat} {size : UInt8} {sizes : List UInt8}

/-- The next request is received; those behind it are on their way in time. -/
theorem Awaits.asked (awaits : session.Awaits first missing (size :: sizes)) :
    ∃ (now : Nat) (later : List Arrival),
      awaitChunkRequest session.settings.requestTimeout session =
        .ok ⟨UInt16.ofNat first, size⟩ (session.waited now later) ∧
      later.filterMap Arrival.request? = runs (first + size.toNat) sizes ∧
      (∀ arrival ∈ later, arrival.IsDatagram) ∧
      InTime session.settings (missing - size.toNat)
        (now + min size.toNat missing * session.settings.reportInterval)
        (now + min size.toNat missing * session.settings.reportInterval +
          session.settings.requestTimeout) later := by
  rcases List.filterMap_eq_cons_iff.mp awaits.requests with
    ⟨passed, asking, later, inbound, unasked, asks, others⟩
  have inTime := awaits.inTime
  have datagrams := awaits.datagrams
  rw [inbound] at inTime datagrams
  have left : missing ≠ 0 := Nat.ne_of_gt (Nat.zero_lt_of_lt awaits.cuts.needed)
  rcases List.forall_mem_append.mp datagrams with ⟨passedDatagrams, restDatagrams⟩
  rcases List.forall_mem_cons.mp restDatagrams with ⟨-, laterDatagrams⟩
  rcases inTime.passed left passedDatagrams unasked with ⟨passes, rest⟩
  rcases rest with finished | ⟨due, rest⟩
  · exact absurd finished left
  · rw [asks] at rest
    exact ⟨_, later, awaitChunkRequest_of_passed inbound passes due asks, others, laterDatagrams,
      rest⟩

theorem Awaits.numbers (awaits : session.Awaits first missing (size :: sizes)) :
    (Wire.ChunkRequest.mk (UInt16.ofNat first) size).numbers =
      List.range' first size.toNat := by
  have numbered := awaits.numbered
  have ends := awaits.ends
  have needed := awaits.cuts.needed
  exact numbers_run (by omega) size

theorem Awaits.asksFor (awaits : session.Awaits first missing (size :: sizes)) :
    (Wire.ChunkRequest.mk (UInt16.ofNat first) size).isNothing = false :=
  beq_eq_false_iff_ne.mpr (awaits.cuts.positive size List.mem_cons_self)

/-- A run that reaches all chunks missing is the last one served. -/
theorem Awaits.last (awaits : session.Awaits first missing (size :: sizes))
    (reaches : missing ≤ size.toNat) :
    ∃ after, session.transfer = .ok (.completed after.chunksSent) after ∧
      session.Reports (List.range' first missing) after := by
  rcases awaits.asked with ⟨now, later, awaited, -⟩
  have waited := session.reports_waited now later
  have takes : (session.waited now later).link.Takes missing := awaits.takes
  cases missing with
  | zero => exact absurd awaits.cuts.needed (Nat.not_lt_zero _)
  | succ missing =>
    have ends : first + missing = (session.waited now later).totalChunks :=
      Nat.succ.inj awaits.ends
    have begins : first ≤ (session.waited now later).totalChunks := ends ▸ Nat.le_add_right _ _
    have counted : min size.toNat ((session.waited now later).totalChunks + 1 - first) =
        missing + 1 := by omega
    have finished : (session.waited now later).totalChunks < first + size.toNat := by omega
    have delivered := deliver_run awaits.numbers begins counted takes
    rw [decide_eq_true finished] at delivered
    exact ⟨_, transfer_of_deliver_last awaited awaits.asksFor delivered,
      waited.trans (reports_afterReports _ _)⟩

/-- After a run that does not, the same holds of the next one. -/
theorem Awaits.next (awaits : session.Awaits first missing (size :: sizes))
    (less : size.toNat < missing) :
    ∃ after, session.transfer = after.transfer ∧
      session.Reports (List.range' first size.toNat) after ∧
      after.Awaits (first + size.toNat) (missing - size.toNat) sizes := by
  rcases awaits.asked with ⟨now, later, awaited, others, datagrams, inTime⟩
  have waited := session.reports_waited now later
  have ends := awaits.ends
  have before : first + size.toNat ≤ (session.waited now later).totalChunks := by
    rw [show (session.waited now later).totalChunks = session.totalChunks from rfl]
    omega
  have takes : (session.waited now later).link.Takes size.toNat := by
    intro index small
    exact awaits.takes index (Nat.lt_trans small less)
  have begins : first ≤ (session.waited now later).totalChunks :=
    Nat.le_trans (Nat.le_add_right _ _) before
  have counted : min size.toNat ((session.waited now later).totalChunks + 1 - first) =
      size.toNat := by omega
  have delivered := deliver_run awaits.numbers begins counted takes
  rw [decide_eq_false (Nat.not_lt.mpr before)] at delivered
  have reports := waited.trans (reports_afterReports _ (List.range' first size.toNat))
  have total := reports.totalChunks
  have inbound := (session.waited now later).inbound_afterReports (List.range' first size.toNat)
  have opened := (session.waited now later).now_afterReports (List.range' first size.toNat)
  rw [List.length_range'] at opened
  rw [Nat.min_eq_left (Nat.le_of_lt less)] at inTime
  refine ⟨_, transfer_of_deliver_through awaited awaits.asksFor delivered, reports, ?_⟩
  constructor
  case numbered => exact total ▸ awaits.numbered
  case ends => omega
  case cuts => exact awaits.cuts.later less
  case requests => rw [inbound]; exact others
  case datagrams => rw [inbound]; exact datagrams
  case inTime =>
    rw [inbound, opened, reports.settings]
    exact inTime
  case takes =>
    apply takes_afterReports
    rw [List.length_range', Nat.add_sub_cancel' (Nat.le_of_lt less)]
    exact awaits.takes

/-- All runs are served, and with them every chunk that was missing. -/
theorem Awaits.transfer (awaits : session.Awaits first missing sizes) :
    ∃ after, session.transfer = .ok (.completed after.chunksSent) after ∧
      session.Reports (List.range' first missing) after := by
  induction sizes generalizing session first missing with
  | nil =>
    have enough : missing ≤ 0 := awaits.cuts.enough
    exact absurd (Nat.lt_of_lt_of_le awaits.cuts.needed enough) (Nat.not_lt_zero _)
  | cons size sizes ih =>
    by_cases reaches : missing ≤ size.toNat
    · exact awaits.last reaches
    · have less := Nat.lt_of_not_le reaches
      rcases awaits.next less with ⟨middle, goesOn, reports, next⟩
      rcases ih next with ⟨after, completed, others⟩
      refine ⟨after, goesOn.trans completed, ?_⟩
      have joined := reports.trans others
      rw [List.range'_append_1, Nat.add_sub_cancel' (Nat.le_of_lt less)] at joined
      exact joined

end

/-! ## The whole image -/

/-- Up to the end of the image every chunk goes out under its own number, and the mark
is on the last one only. -/
theorem reportFor_eq {session : Session} (numbered : session.totalChunks ≤ Wire.maxReportNumber)
    {number : Nat} (inside : number ≤ session.totalChunks) :
    session.reportFor number =
      ⟨UInt16.ofNat number, decide (number = session.totalChunks), session.image.chunk number⟩ := by
  have small : number < Wire.maxReportNumber + 1 :=
    Nat.lt_succ_of_le (Nat.le_trans inside numbered)
  have last : (session.totalChunks ≤ number) = (number = session.totalChunks) :=
    propext ⟨fun reached => Nat.le_antisymm inside reached, fun same => Nat.le_of_eq same.symm⟩
  simp only [reportFor, Nat.mod_eq_of_lt small, last]

/-- What a node reads from reports, laid end to end, is what their chunks hold. -/
theorem flatMap_received?_reportDatagram (session : Session) (numbers : List Nat) :
    ((numbers.map session.reportDatagram).filterMap Wire.Report.received?).flatMap
      (fun report => report.2.chunk) = numbers.flatMap session.image.chunk := by
  rw [filterMap_received?_reportDatagram, List.flatMap_map]
  rfl

/-- A node that asks for all of an image in runs, in order and in time, gets every chunk
once, in order, in a report of its own, and nothing else. -/
theorem transfer_whole_image {session : Session} {sizes : List UInt8}
    (numbered : session.totalChunks ≤ Wire.maxReportNumber)
    (positive : ∀ size ∈ sizes, size ≠ 0)
    (needed : covered sizes.dropLast < session.totalChunks)
    (enough : session.totalChunks ≤ covered sizes)
    (requests : session.link.inbound.filterMap Arrival.request? = runs 1 sizes)
    (datagrams : ∀ arrival ∈ session.link.inbound, arrival.IsDatagram)
    (inTime : InTime session.settings session.totalChunks session.link.now
      (session.link.now + session.settings.requestTimeout) session.link.inbound)
    (takes : session.link.Takes session.totalChunks) :
    ∃ (after : Session) (sent : List Bytes),
      session.transfer = .ok (.completed (session.chunksSent + session.totalChunks)) after ∧
      after.link.datagrams = session.link.datagrams ++ sent ∧
      sent = (List.range' 1 session.totalChunks).map (fun number =>
        (Wire.Envelope.around
          (Wire.Report.octets
            ⟨UInt16.ofNat number, decide (number = session.totalChunks),
              session.image.chunk number⟩)
          (UInt8.ofNat (number + 2)) (.of .controller session.settings.secure)).octets) ∧
      (sent.filterMap Wire.Report.received?).flatMap (fun report => report.2.chunk) =
        session.image.data := by
  have cuts : Cuts sizes session.totalChunks := ⟨positive, needed, enough⟩
  have awaits : session.Awaits 1 session.totalChunks sizes :=
    ⟨numbered, Nat.add_comm 1 _, cuts, requests, datagrams, inTime, takes⟩
  rcases awaits.transfer with ⟨after, completed, reports⟩
  refine ⟨after, _, ?_, reports.datagrams, ?_, ?_⟩
  · rw [completed, reports.chunksSent, List.length_range']
  · apply List.map_congr_left
    intro number member
    have inside : number ≤ session.totalChunks := by
      have bound := (List.mem_range'_1.mp member).2
      omega
    rw [reportDatagram, datagram, reportFor_eq numbered inside]
    rfl
  · rw [flatMap_received?_reportDatagram]
    exact session.image.flatMap_chunk_totalChunks

/-- A session for an image of 41 octets.  Its node asks for the first chunk, then for
three from the second on, and something else comes in before each request. -/
def askedInTwoRuns : Session where
  link := .opened
    [⟨0, .datagram [0x23, 0x02]⟩,
     ⟨100, .datagram [0x7a, 0x05, 0x01, 0x00, 0x01]⟩,
     ⟨100, .datagram []⟩,
     ⟨30150, .datagram [0x7a, 0x05, 0x03, 0x00, 0x02]⟩] []
  image := ⟨List.replicate 41 0x2a⟩
  settings := {}
  chunksSent := 0

theorem transfer_whole_image_two_runs :
    ∃ (after : Session) (sent : List Bytes),
      askedInTwoRuns.transfer = .ok (.completed 2) after ∧
      after.link.datagrams = sent ∧
      sent = [1, 2].map (fun number =>
        (Wire.Envelope.around
          (Wire.Report.octets
            ⟨UInt16.ofNat number, decide (number = 2), askedInTwoRuns.image.chunk number⟩)
          (UInt8.ofNat (number + 2)) (.of .controller true)).octets) ∧
      (sent.filterMap Wire.Report.received?).flatMap (fun report => report.2.chunk) =
        List.replicate 41 0x2a := by
  have requests : askedInTwoRuns.link.inbound.filterMap Arrival.request? = runs 1 [1, 3] := rfl
  have datagrams : ∀ arrival ∈ askedInTwoRuns.link.inbound, arrival.IsDatagram := by
    simp only [askedInTwoRuns, Link.opened, List.forall_mem_cons]
    exact ⟨⟨_, rfl⟩, ⟨_, rfl⟩, ⟨_, rfl⟩, ⟨_, rfl⟩, nofun⟩
  have inTime : InTime askedInTwoRuns.settings 2 0 30000 askedInTwoRuns.link.inbound :=
    .inr ⟨by decide, .inr ⟨by decide, .inr ⟨by decide, .inr ⟨by decide, trivial⟩⟩⟩⟩
  have positive : ∀ size ∈ ([1, 3] : List UInt8), size ≠ 0 := by
    simp only [List.forall_mem_cons]
    exact ⟨by decide, by decide, nofun⟩
  exact transfer_whole_image (by decide) positive (by decide) (by decide) requests datagrams inTime
    nofun

end Session

end Update
end FirmwareGateway
