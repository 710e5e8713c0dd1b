import FirmwareGateway.Proofs.Update.Delivery
import FirmwareGateway.Proofs.Update.Waiting

namespace FirmwareGateway
namespace Update
namespace Session

/-!
# How serving ends

Serving alternates between waiting for a request and delivering the chunks it asks
for.  Only the last report of a delivery can be the last of the image, and then
nothing is sent any more; so a run of requests reports chunks that lie before the end
of the image, and at most one more.  Which chunk that is follows from the last
request alone.
-/

/-- The last thing taken from the link was a request. -/
def Asked (session : Session) (request : Wire.ChunkRequest) (after : Session) : Prop :=
  ∃ passed asking, session.link.inbound = passed ++ asking :: after.link.inbound ∧
    asking.found? Wire.ChunkRequest.read? = some request

/-! ## Waiting for a request -/

theorem reports_waited (session : Session) (now : Nat) (inbound : List Arrival) :
    session.Reports [] (session.waited now inbound) :=
  ⟨rfl, rfl, (List.append_nil _).symm, rfl⟩

theorem reports_of_awaitChunkRequest {timeout : Nat} {session : Session}
    {result : EStateM.Result Error Session Wire.ChunkRequest}
    (awaited : awaitChunkRequest timeout session = result) :
    session.Reports [] (sessionAfter result) := by
  rw [← awaited, sessionAfter_awaitChunkRequest]
  exact session.reports_waited _ _

/-- A request for something is read from a datagram. -/
theorem asked_of_awaitChunkRequest {timeout : Nat} {session after : Session}
    {request : Wire.ChunkRequest} (awaited : awaitChunkRequest timeout session = .ok request after)
    (asks : request.isNothing = false) : session.Asked request after := by
  rcases waitEnds_of_request awaited asks with ⟨now, later, rfl, ends⟩
  generalize inboundEq : session.link.inbound = inbound at ends
  cases ends with
  | found passed asking later value passes inTime finds =>
    exact ⟨passed, asking, inboundEq, finds⟩

/-! ## Delivering what a request asks for -/

/-- In a run of numbers the first one that is not below a bound is the bound, unless
the run begins behind it. -/
theorem max_eq_of_range'_split {first size bound final : Nat} {earlier unsent : List Nat}
    (split : List.range' first size = earlier ++ final :: unsent)
    (before : ∀ number ∈ earlier, number < bound) (reached : bound ≤ final) :
    final = max first bound := by
  have place : earlier.length < size := by
    have counted := congrArg List.length split
    rw [List.length_range', List.length_append, List.length_cons] at counted
    omega
  have numbered : ∀ index, index < size →
      (earlier ++ final :: unsent)[index]? = some (first + index) := by
    intro index small
    rw [← split, List.getElem?_range' small, Nat.one_mul]
  have finalEq : final = first + earlier.length := by
    have found := numbered earlier.length place
    rw [List.getElem?_append_right (Nat.le_refl _), Nat.sub_self] at found
    exact Option.some.inj found
  cases count : earlier.length with
  | zero => omega
  | succ index =>
    have found := numbered index (by omega)
    rw [List.getElem?_append_left (by omega)] at found
    have below := before _ (List.mem_of_getElem? found)
    omega

section
variable {session after : Session} {request : Wire.ChunkRequest}

theorem reports_of_deliver_through (delivered : deliver request session = .ok false after) :
    (∀ number ∈ request.numbers, number < session.totalChunks) ∧
      session.Reports request.numbers after ∧ after.link.inbound = session.link.inbound := by
  have ends := sendReports_ends request.numbers session
  change sendReports request.numbers session = .ok false after at delivered
  rw [delivered] at ends
  generalize request.numbers = numbers at ends
  cases ends with
  | through numbers before =>
    exact ⟨before, session.reports_afterReports _, session.inbound_afterReports _⟩

theorem reports_of_deliver_last (delivered : deliver request session = .ok true after) :
    ∃ earlier : List Nat, (∀ number ∈ earlier, number < session.totalChunks) ∧
      session.Reports (earlier ++ [max request.first session.totalChunks]) after ∧
      after.link.inbound = session.link.inbound := by
  have ends := sendReports_ends request.numbers session
  change sendReports request.numbers session = .ok true after at delivered
  rw [delivered] at ends
  generalize split : request.numbers = numbers at ends
  cases ends with
  | last earlier final unsent before reached =>
    have finalEq : final = max request.first session.totalChunks :=
      max_eq_of_range'_split split before reached
    rw [← finalEq]
    exact ⟨earlier, before, session.reports_afterReports _, session.inbound_afterReports _⟩

theorem reports_of_deliver_failed {fault : Error}
    (delivered : deliver request session = .error fault after) :
    ∃ earlier : List Nat, (∀ number ∈ earlier, number < session.totalChunks) ∧
      session.Reports earlier after := by
  have ends := sendReports_ends request.numbers session
  change sendReports request.numbers session = .error fault after at delivered
  rw [delivered] at ends
  generalize split : request.numbers = numbers at ends
  cases ends with
  | refused earlier unsent before refuses =>
    have reports := (session.reports_afterReports earlier).trans (reports_refusing _)
    rw [List.append_nil] at reports
    exact ⟨earlier, before, reports⟩

end

/-! ## Serving requests -/

/-- How serving requests can end, by the chunks that were reported meanwhile. -/
inductive TransferEnds (session : Session) : EStateM.Result Error Session Outcome → Prop
  | completed (earlier : List Nat) (request : Wire.ChunkRequest) (after : Session)
      (before : ∀ number ∈ earlier, number < session.totalChunks)
      (reports : session.Reports (earlier ++ [max request.first session.totalChunks]) after)
      (asked : session.Asked request after) :
      TransferEnds session (.ok (.completed after.chunksSent) after)
  | abandoned (numbers : List Nat) (after : Session)
      (before : ∀ number ∈ numbers, number < session.totalChunks)
      (reports : session.Reports numbers after) :
      TransferEnds session (.ok (.abandoned after.chunksSent) after)
  | failed (numbers : List Nat) (fault : Error) (after : Session)
      (before : ∀ number ∈ numbers, number < session.totalChunks)
      (reports : session.Reports numbers after) :
      TransferEnds session (.error fault after)

/-- What was reported before leaves the ways to end as they are. -/
theorem TransferEnds.behind {session middle : Session} {numbers : List Nat}
    {result : EStateM.Result Error Session Outcome}
    (before : ∀ number ∈ numbers, number < session.totalChunks)
    (reports : session.Reports numbers middle)
    (kept : ∃ taken, session.link.inbound = taken ++ middle.link.inbound)
    (ends : TransferEnds middle result) : TransferEnds session result := by
  have both : ∀ others : List Nat, (∀ number ∈ others, number < middle.totalChunks) →
      ∀ number ∈ numbers ++ others, number < session.totalChunks := by
    intro others below
    rw [reports.totalChunks] at below
    exact List.forall_mem_append.mpr ⟨before, below⟩
  cases ends with
  | completed earlier request after below others asked =>
    rcases kept with ⟨taken, split⟩
    rcases asked with ⟨passed, asking, inbound, finds⟩
    have joined := reports.trans others
    rw [reports.totalChunks, ← List.append_assoc] at joined
    refine .completed (numbers ++ earlier) request after (both earlier below) joined ?_
    refine ⟨taken ++ passed, asking, ?_, finds⟩
    rw [split, inbound, List.append_assoc]
  | abandoned others after below otherReports =>
    exact .abandoned (numbers ++ others) after (both others below) (reports.trans otherReports)
  | failed others fault after below otherReports =>
    exact .failed (numbers ++ others) fault after (both others below) (reports.trans otherReports)

/-- Serving has no other end.  Each request served is one step of the induction, and
what follows it ends in one of the ways from the session it left. -/
theorem transfer_ends (session : Session) : TransferEnds session (transfer session) := by
  fun_induction transfer session with
  | case1 session fault after awaited =>
    have waited : session.Reports [] after := reports_of_awaitChunkRequest awaited
    exact .failed [] fault after nofun waited
  | case2 session request asked awaited asks =>
    have waited : session.Reports [] asked := reports_of_awaitChunkRequest awaited
    exact .abandoned [] asked nofun waited
  | case3 session request asked awaited asks fault after delivered =>
    have waited : session.Reports [] asked := reports_of_awaitChunkRequest awaited
    rcases reports_of_deliver_failed delivered with ⟨earlier, before, reports⟩
    exact .failed earlier fault after (waited.totalChunks ▸ before) (waited.trans reports)
  | case4 session request asked awaited asks after delivered =>
    have waited : session.Reports [] asked := reports_of_awaitChunkRequest awaited
    have taken := asked_of_awaitChunkRequest awaited (Bool.not_eq_true _ ▸ asks)
    rcases reports_of_deliver_last delivered with ⟨earlier, before, reports, inbound⟩
    have joined := waited.trans reports
    rw [waited.totalChunks] at before joined
    refine .completed earlier request after before joined ?_
    rw [Asked, inbound]
    exact taken
  | case5 session request asked awaited asks after delivered ih =>
    have waited : session.Reports [] asked := reports_of_awaitChunkRequest awaited
    rcases asked_of_awaitChunkRequest awaited (Bool.not_eq_true _ ▸ asks) with
        ⟨passed, asking, split, finds⟩
    rcases reports_of_deliver_through delivered with ⟨before, reports, inbound⟩
    rw [waited.totalChunks] at before
    refine ih.behind before (waited.trans reports) ⟨passed ++ [asking], ?_⟩
    rw [split, inbound, List.append_assoc]
    rfl

/-! ## From a request to what follows it -/

section
variable {session asked after : Session} {request : Wire.ChunkRequest}

/-- Behind a request, serving is what its delivery leaves to do. -/
theorem transfer_of_request
    (awaited : awaitChunkRequest session.settings.requestTimeout session = .ok request asked)
    (asks : request.isNothing = false) :
    session.transfer =
      match deliver request asked with
      | .error fault after => .error fault after
      | .ok true after => .ok (.completed after.chunksSent) after
      | .ok false after => after.transfer := by
  fun_cases transfer session with
  | case1 fault other failed => cases awaited.symm.trans failed
  | case2 other left again silent =>
    cases awaited.symm.trans again
    cases silent.symm.trans asks
  | case3 other left again asking fault after delivered =>
    cases awaited.symm.trans again
    rw [delivered]
  | case4 other left again asking after delivered =>
    cases awaited.symm.trans again
    rw [delivered]
  | case5 other left again asking after delivered =>
    cases awaited.symm.trans again
    rw [delivered]

theorem transfer_of_deliver_last
    (awaited : awaitChunkRequest session.settings.requestTimeout session = .ok request asked)
    (asks : request.isNothing = false) (delivered : deliver request asked = .ok true after) :
    session.transfer = .ok (.completed after.chunksSent) after := by
  rw [transfer_of_request awaited asks, delivered]

theorem transfer_of_deliver_through
    (awaited : awaitChunkRequest session.settings.requestTimeout session = .ok request asked)
    (asks : request.isNothing = false) (delivered : deliver request asked = .ok false after) :
    session.transfer = after.transfer := by
  rw [transfer_of_request awaited asks, delivered]

end

end Session

end Update
end FirmwareGateway
