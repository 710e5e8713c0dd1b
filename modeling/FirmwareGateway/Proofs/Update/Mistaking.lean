import FirmwareGateway.Proofs.Update.Listening
import FirmwareGateway.Proofs.Update.RunTrace

namespace FirmwareGateway

/-!
# Requests that are taken for answers

The answer to an announcement is looked for anywhere in the command that an envelope
carries.  A request for chunks is no answer, but its size and its index may happen to be
the octets that mark one: when it asks for 122 chunks from one of 1024 to 1279 on, or for
any number of chunks from chunk 31236 on.  Such a request ends the wait for an answer as
if the node had accepted.  Where none of these is in time, requests leave the wait to its
deadline, and nothing is sent behind the announcement.
-/

namespace Wire

theorem occurs_pair_cons (first second octet next : UInt8) (rest : Bytes) :
    occurs [first, second] (octet :: next :: rest) = true ↔
      (first = octet ∧ second = next) ∨ occurs [first, second] (next :: rest) = true := by
  rw [occurs]
  simp only [Bool.or_eq_true, List.isPrefixOf_cons_cons, List.isPrefixOf_nil_left, Bool.and_true,
    Bool.and_eq_true, beq_iff_eq]

theorem occurs_pair_singleton (first second octet : UInt8) :
    occurs [first, second] [octet] = false := by
  simp [occurs, List.isPrefixOf]

namespace ChunkRequest

/-- The octets of the command with which a node asks for chunks. -/
def octets (request : ChunkRequest) : Bytes :=
  [firmwareClass, updateGetCommand, request.size] ++ Bytes.bigEndian 2 request.index.toNat

/-- The size and the index of a request have the mark of an answer in them. -/
def Misleads (request : ChunkRequest) : Prop :=
  (request.size = 0x7a ∧ request.index.toNat / 256 = 0x04) ∨ request.index = 0x7a04

instance (request : ChunkRequest) : Decidable request.Misleads :=
  inferInstanceAs (Decidable (_ ∨ _))

theorem octets_eq (request : ChunkRequest) :
    request.octets = [firmwareClass, updateGetCommand, request.size,
      UInt8.ofNat (request.index.toNat / 256), UInt8.ofNat request.index.toNat] := rfl

theorem read?_octets (lead : Bytes) (request : ChunkRequest) :
    read? (lead ++ request.octets) = some request := by
  have bound := request.index.toNat_lt
  rw [read?_eq_some_iff]
  refine ⟨lead, _, _, rfl, ?_⟩
  simp only [UInt8.toNat_ofNat']
  omega

/-- Five octets have four places for the mark.  At the first two it cannot stand, so it is
the size and the index that can bear it. -/
theorem occurs_octets (request : ChunkRequest) :
    occurs [firmwareClass, requestReportCommand] request.octets = true ↔ request.Misleads := by
  have bound := request.index.toNat_lt
  have high : requestReportCommand = UInt8.ofNat (request.index.toNat / 256) ↔
      request.index.toNat / 256 = 0x04 := by
    rw [← UInt8.toNat_inj, UInt8.toNat_ofNat']
    change 4 = _ ↔ _
    omega
  have both : (firmwareClass = UInt8.ofNat (request.index.toNat / 256) ∧
      requestReportCommand = UInt8.ofNat request.index.toNat) ↔ request.index = 0x7a04 := by
    rw [← UInt8.toNat_inj, ← UInt8.toNat_inj, ← UInt16.toNat_inj, UInt8.toNat_ofNat',
      UInt8.toNat_ofNat']
    change (122 = _ ∧ 4 = _) ↔ _ = 31236
    omega
  have size : firmwareClass = request.size ↔ request.size = 0x7a := eq_comm
  have marks : ¬ (firmwareClass = firmwareClass ∧ requestReportCommand = updateGetCommand) := by
    decide
  have follows : ¬ (firmwareClass = updateGetCommand ∧ requestReportCommand = request.size) := by
    rintro ⟨same, -⟩
    exact absurd same (by decide)
  rw [octets_eq, occurs_pair_cons, occurs_pair_cons, occurs_pair_cons, occurs_pair_cons,
    occurs_pair_singleton, or_iff_right marks, or_iff_right follows, size, high, both, Misleads]
  simp only [Bool.false_eq_true, or_false]

/-- An envelope with a request in it and nothing else. -/
def Fills (request : ChunkRequest) (envelope : Envelope) : Prop :=
  envelope.payload = request.octets

theorem Fills.read? {request : ChunkRequest} {envelope : Envelope}
    (fills : request.Fills envelope) : ChunkRequest.read? envelope.octets = some request := by
  rw [Envelope.octets, fills]
  exact read?_octets _ request

theorem Fills.isRequestReport_iff {request : ChunkRequest} {envelope : Envelope}
    (fills : request.Fills envelope) :
    isRequestReport envelope.octets = true ↔ request.Misleads := by
  have payload : envelope.payload = request.octets := fills
  simp only [isRequestReport, Envelope.decode?_octets, payload, occurs_octets]

end ChunkRequest
end Wire

namespace Update

/-! ## Waiting while requests arrive -/

namespace Arrival

/-- An arrival that is an envelope with a request in it. -/
def Brings (arrival : Arrival) (request : Wire.ChunkRequest) : Prop :=
  ∃ envelope : Wire.Envelope, request.Fills envelope ∧ arrival.event = .datagram envelope.octets

theorem Brings.accepts_iff {arrival : Arrival} {request : Wire.ChunkRequest}
    (brings : arrival.Brings request) : arrival.Accepts ↔ request.Misleads := by
  rcases brings with ⟨envelope, fills, event⟩
  have whole : envelope.octets.take receiveLimit = envelope.octets := by
    apply List.take_of_length_le
    rw [Wire.Envelope.octets, fills, Wire.ChunkRequest.octets_eq]
    exact Nat.le_of_ble_eq_true rfl
  have same : arrival.Accepts ↔ Wire.isRequestReport envelope.octets = true := by
    constructor
    · rintro ⟨bytes, other, accepts⟩
      cases event.symm.trans other
      rwa [whole] at accepts
    · intro accepts
      exact ⟨envelope.octets, event, whole.symm ▸ accepts⟩
  rw [same, fills.isRequestReport_iff]

theorem Brings.isDatagram {arrival : Arrival} {request : Wire.ChunkRequest}
    (brings : arrival.Brings request) : arrival.IsDatagram := by
  rcases brings with ⟨envelope, fills, event⟩
  exact ⟨envelope.octets, event⟩

theorem found?_of_accepts {arrival : Arrival} (accepts : arrival.Accepts) :
    arrival.found? acceptance? = some () := by
  rcases accepts with ⟨bytes, event, answers⟩
  simp only [found?, event, acceptance?, answers, if_true]

end Arrival

namespace Session

/-- Where only datagrams arrive, an answer in time ends the wait: the deadline is passed only
behind the whole window, and the answer is in it. -/
theorem awaitAcceptance_answered (session : Session)
    (policy : session.settings.ackPolicy = .require)
    (datagrams : ∀ arrival ∈ session.link.inbound, arrival.IsDatagram)
    (answered : ∃ answer ∈ session.window session.settings.ackTimeout, answer.Accepts) :
    ∃ waiting, awaitAcceptance session = .ok () waiting := by
  rcases answered with ⟨answer, member, accepts⟩
  rw [awaitAcceptance_require policy, await_eq]
  have ends := awaitWanted_ends acceptance? (session.link.now + session.settings.ackTimeout)
    session.link.now session.link.inbound
  generalize awaitWanted acceptance? (session.link.now + session.settings.ackTimeout)
    session.link.now session.link.inbound = awaited at ends
  generalize inboundEq : session.link.inbound = inbound at ends
  cases ends with
  | found passed first later value passes inTime finds => exact ⟨_, rfl⟩
  | failed passed failing later fault passes inTime event =>
    have arrives : failing ∈ session.link.inbound := by
      rw [inboundEq]
      exact List.mem_append_right passed List.mem_cons_self
    rcases datagrams failing arrives with ⟨bytes, other⟩
    cases event.symm.trans other
  | elapsed passed later passes late =>
    have window := window_eq inboundEq (fun each place => (passes each place).inTime) late
    have inside : answer ∈ passed := window ▸ member
    have found := (Arrival.found?_of_accepts accepts).symm.trans (passes answer inside).unwanted
    cases found

/-- Where only datagrams arrive, and none that is in time answers, the wait fails. -/
theorem awaitAcceptance_of_window (session : Session)
    (policy : session.settings.ackPolicy = .require)
    (datagrams : ∀ arrival ∈ session.link.inbound, arrival.IsDatagram)
    (refrains : ∀ arrival ∈ session.window session.settings.ackTimeout, ¬ arrival.Accepts) :
    ∃ now later, awaitAcceptance session = .error .ackTimeout (session.waited now later) := by
  rcases session.exists_behind_window session.settings.ackTimeout with ⟨later, inbound, late⟩
  refine ⟨_, _, awaitAcceptance_unanswered policy inbound (fun _ => window_inTime) ?_ refrains late⟩
  intro arrival member
  apply datagrams
  rw [inbound]
  exact List.mem_append_left later member

/-! ## What a run fails with -/

section
variable {session waiting after : Session} {request : Wire.ChunkRequest} {fault : Error}

theorem fault_of_deliver (delivered : deliver request session = .error fault after) :
    fault = refusal := by
  have ends := sendReports_ends request.numbers session
  change sendReports request.numbers session = .error fault after at delivered
  rw [delivered] at ends
  generalize request.numbers = numbers at ends
  cases ends with
  | refused earlier unsent before refuses => rfl

/-- Serving fails only where the link does. -/
theorem fault_of_transfer (failed : transfer session = .error fault after) :
    ∃ cause, fault = .io cause := by
  fun_induction transfer session with
  | case1 session other left awaited =>
    cases failed
    exact fault_of_awaitChunkRequest awaited
  | case2 session request asked awaited asks => cases failed
  | case3 session request asked awaited asks other left delivered =>
    cases failed
    exact ⟨_, fault_of_deliver delivered⟩
  | case4 session request asked awaited asks left delivered => cases failed
  | case5 session request asked awaited asks left delivered ih => exact ih failed

/-- Behind the wait for an answer a run fails only where the link does. -/
theorem fault_of_run (announced : requestUpdate session = .ok () session.announced)
    (accepted : awaitAcceptance session.announced = .ok () waiting)
    (failed : run session = .error fault after) : ∃ cause, fault = .io cause := by
  cases served : waiting.transfer with
  | error other left =>
    cases (run_of_broken announced accepted served).symm.trans failed
    exact fault_of_transfer served
  | ok outcome left =>
    cases activates : outcome.isCompleted && left.settings.activate with
    | false => cases (run_of_served announced accepted served activates).symm.trans failed
    | true =>
      rw [run_of_activating announced accepted served activates] at failed
      by_cases refuses : left.link.Refuses
      · rw [activate_refused refuses] at failed
        cases failed
        exact ⟨_, rfl⟩
      · rw [activate_taken refuses] at failed
        cases failed

end

/-! ## Runs in which only requests arrive -/

section
variable {session : Session}

/-- Nothing but requests is to arrive. -/
def OnlyAsked (session : Session) : Prop :=
  ∀ arrival ∈ session.link.inbound, ∃ request, arrival.Brings request

/-- A request that is in time for the answer has the mark of one in it. -/
def Misled (session : Session) : Prop :=
  ∃ arrival ∈ session.window session.settings.ackTimeout, ∃ request,
    arrival.Brings request ∧ request.Misleads

theorem OnlyAsked.isDatagram (asked : session.OnlyAsked) :
    ∀ arrival ∈ session.announced.link.inbound, arrival.IsDatagram := by
  intro arrival member
  rcases asked arrival member with ⟨request, brings⟩
  exact brings.isDatagram

theorem run_of_not_misled (policy : session.settings.ackPolicy = .require)
    (takes : ¬ session.link.Refuses) (asked : session.OnlyAsked) (harmless : ¬ session.Misled) :
    ∃ after, run session = .error .ackTimeout after ∧
      after.link.datagrams = session.link.datagrams ++ [session.announcement] := by
  have refrains : ∀ arrival ∈ session.announced.window session.settings.ackTimeout,
      ¬ arrival.Accepts := by
    intro arrival member accepts
    rcases asked arrival (List.takeWhile_subset _ member) with ⟨request, brings⟩
    exact harmless ⟨arrival, member, request, brings, brings.accepts_iff.mp accepts⟩
  rcases session.announced.awaitAcceptance_of_window policy asked.isDatagram refrains with
    ⟨now, later, failed⟩
  refine ⟨_, run_of_unaccepted (requestUpdate_taken takes) failed, ?_⟩
  exact session.link.datagrams_sending session.announcement

theorem run_of_misled (policy : session.settings.ackPolicy = .require)
    (takes : ¬ session.link.Refuses) (asked : session.OnlyAsked) (misled : session.Misled)
    (after : Session) : run session ≠ .error .ackTimeout after := by
  intro failed
  rcases misled with ⟨arrival, member, request, brings, misleads⟩
  rcases session.announced.awaitAcceptance_answered policy asked.isDatagram
    ⟨arrival, member, brings.accepts_iff.mpr misleads⟩ with ⟨waiting, accepted⟩
  rcases fault_of_run (requestUpdate_taken takes) accepted failed with ⟨cause, other⟩
  cases other

/-- A request in an envelope is read as that request, and exactly if it misleads it is taken
for an answer as well.  Where the node has to accept and only requests arrive, a run fails
for want of an answer exactly if none of those in time misleads; then nothing is sent behind
its announcement. -/
theorem run_of_requests (policy : session.settings.ackPolicy = .require)
    (takes : ¬ session.link.Refuses) (asked : session.OnlyAsked) :
    (∀ (request : Wire.ChunkRequest) (envelope : Wire.Envelope), request.Fills envelope →
      Wire.ChunkRequest.read? envelope.octets = some request ∧
      (Wire.isRequestReport envelope.octets = true ↔ request.Misleads)) ∧
    ((∃ after, run session = .error .ackTimeout after) ↔ ¬ session.Misled) ∧
    ∀ after, run session = .error .ackTimeout after →
      after.link.datagrams = session.link.datagrams ++ [session.announcement] := by
  refine ⟨fun request envelope fills => ⟨fills.read?, fills.isRequestReport_iff⟩, ?_, ?_⟩
  · constructor
    · rintro ⟨after, failed⟩ misled
      exact run_of_misled policy takes asked misled after failed
    · intro harmless
      rcases run_of_not_misled policy takes asked harmless with ⟨after, failed, -⟩
      exact ⟨after, failed⟩
  · intro after failed
    have harmless : ¬ session.Misled := fun misled =>
      run_of_misled policy takes asked misled after failed
    rcases run_of_not_misled policy takes asked harmless with ⟨left, again, datagrams⟩
    cases again.symm.trans failed
    exact datagrams

end

/-- The arrival of a request, at once. -/
def requested (request : Wire.ChunkRequest) : Arrival :=
  ⟨0, .datagram (Wire.Envelope.around request.octets 0x01 ⟨0x00, 0xc0⟩).octets⟩

theorem brings_requested (request : Wire.ChunkRequest) : (requested request).Brings request :=
  ⟨Wire.Envelope.around request.octets 0x01 ⟨0x00, 0xc0⟩, rfl, rfl⟩

/-- A session whose node has to accept, for an image of one octet.  The node does not accept,
but asks for chunks, and then for the only one. -/
def askedBefore (request : Wire.ChunkRequest) : Session where
  link := .opened [requested request, requested ⟨1, 1⟩] []
  image := ⟨[0x2a]⟩
  settings := { ackPolicy := .require }
  chunksSent := 0

theorem onlyAsked_askedBefore (request : Wire.ChunkRequest) : (askedBefore request).OnlyAsked := by
  intro arrival member
  rcases List.mem_cons.mp member with rfl | member
  · exact ⟨request, brings_requested request⟩
  · rw [List.mem_singleton.mp member]
    exact ⟨⟨1, 1⟩, brings_requested ⟨1, 1⟩⟩

theorem run_of_requests_before_chunk :
    (∃ after, run (askedBefore ⟨0x0400, 0x79⟩) = .error .ackTimeout after ∧
      after.link.datagrams = [(askedBefore ⟨0x0400, 0x79⟩).announcement]) ∧
    ¬ ∃ after, run (askedBefore ⟨0x0400, 0x7a⟩) = .error .ackTimeout after := by
  constructor
  · have harmless : ¬ (askedBefore ⟨0x0400, 0x79⟩).Misled := by
      rintro ⟨arrival, member, request, brings, misleads⟩
      have accepts := brings.accepts_iff.mpr misleads
      have place : arrival ∈ [requested ⟨0x0400, 0x79⟩, requested ⟨1, 1⟩] :=
        List.takeWhile_subset _ member
      rcases List.mem_cons.mp place with rfl | rest
      · exact absurd ((brings_requested _).accepts_iff.mp accepts) (by decide)
      · rw [List.mem_singleton.mp rest] at accepts
        exact absurd ((brings_requested _).accepts_iff.mp accepts) (by decide)
    rcases run_of_requests rfl List.not_mem_nil (onlyAsked_askedBefore _) with ⟨-, fails, only⟩
    rcases fails.mpr harmless with ⟨after, failed⟩
    exact ⟨after, failed, only after failed⟩
  · have first : requested ⟨0x0400, 0x7a⟩ ∈ (askedBefore ⟨0x0400, 0x7a⟩).window 5000 :=
      List.mem_cons_self
    have misled : (askedBefore ⟨0x0400, 0x7a⟩).Misled :=
      ⟨_, first, _, brings_requested _, by decide⟩
    intro failed
    exact (run_of_requests rfl List.not_mem_nil (onlyAsked_askedBefore _)).2.1.mp failed misled

/-- A request for 122 chunks from that of number 1024 on is taken for an answer, and the
request behind it is served. -/
theorem run_askedBefore :
    run (askedBefore ⟨0x0400, 0x7a⟩) =
      .ok (.completed 1)
        (((askedBefore ⟨0x0400, 0x7a⟩).announced.waited 0 []).afterReport 1) := by
  have announced : requestUpdate (askedBefore ⟨0x0400, 0x7a⟩) =
      .ok () (askedBefore ⟨0x0400, 0x7a⟩).announced := requestUpdate_taken List.not_mem_nil
  have accepted : awaitAcceptance (askedBefore ⟨0x0400, 0x7a⟩).announced =
      .ok () ((askedBefore ⟨0x0400, 0x7a⟩).announced.waited 0 [requested ⟨1, 1⟩]) := rfl
  have awaited : awaitChunkRequest 30000
      ((askedBefore ⟨0x0400, 0x7a⟩).announced.waited 0 [requested ⟨1, 1⟩]) =
      .ok ⟨1, 1⟩ ((askedBefore ⟨0x0400, 0x7a⟩).announced.waited 0 []) := rfl
  have delivered : deliver ⟨1, 1⟩ ((askedBefore ⟨0x0400, 0x7a⟩).announced.waited 0 []) =
      .ok true (((askedBefore ⟨0x0400, 0x7a⟩).announced.waited 0 []).afterReport 1) :=
    sendReports_last List.not_mem_nil (Nat.le_refl 1)
  exact run_of_served announced accepted (transfer_of_deliver_last awaited rfl delivered) rfl

/-- A request can be taken for an answer, and then requests alone are enough for a run to
serve the node. -/
theorem not_always_unanswered :
    (¬ ∀ (request : Wire.ChunkRequest) (envelope : Wire.Envelope), request.Fills envelope →
      Wire.isRequestReport envelope.octets = false) ∧
    ¬ ∀ session : Session, session.settings.ackPolicy = .require → ¬ session.link.Refuses →
      session.OnlyAsked → ∃ after, run session = .error .ackTimeout after ∧
        after.link.datagrams = session.link.datagrams ++ [session.announcement] := by
  constructor
  · intro never
    have none := never ⟨0x7a04, 0x01⟩ ⟨⟨0x00, 0xc0⟩, 0x01, 0x00, 0x00, _⟩ rfl
    exact absurd none (by decide)
  · intro always
    rcases always _ rfl List.not_mem_nil (onlyAsked_askedBefore _) with ⟨after, failed, -⟩
    cases run_askedBefore.symm.trans failed

end Session

end Update

end FirmwareGateway
