import FirmwareGateway.Proofs.Update.Answering
import FirmwareGateway.Proofs.Update.Listening
import FirmwareGateway.Proofs.Update.Serving

namespace FirmwareGateway
namespace Update

/-!
# How long serving takes

Serving goes in rounds: a wait, the request that ends it, and the reports asked for with
the interval behind each.  The window of a wait opens where the round before it ended, so
nothing that arrives moves its end, and what the reports take is outside of it.  A round
takes a window at most and an interval for every report, and behind the last round there
is one more wait.

`Serves` is how a course of rounds ends.  What a round does is said once, in `Round`; the
time, the reports and the requests taken from the link then follow by induction on the
rounds.
-/

/-- A request that was served: when the wait for it began, when it came, and the numbers
of the chunks that it was answered with. -/
structure Service where
  opened : Nat
  came : Nat
  request : Wire.ChunkRequest
  numbers : List Nat
  deriving DecidableEq, Repr

namespace Session

/-- From a session to the one behind the next request, when that is served.  The wait
begins at once and the request comes within the window; behind it every report takes an
interval, and nothing else takes time. -/
structure Round (session : Session) (service : Service) (last : Bool) (after : Session) :
    Prop where
  opened : service.opened = session.link.now
  waited : service.opened ≤ service.came
  inTime : service.came ≤ service.opened + session.settings.requestTimeout
  asks : service.request.isNothing = false
  served : ∃ asked, asked.link.now = service.came ∧
    awaitChunkRequest session.settings.requestTimeout session = .ok service.request asked ∧
    deliver service.request asked = .ok last after
  numbers : service.numbers = session.answered service.request
  paced : after.link.now =
    service.came + service.numbers.length * session.settings.reportInterval

/-- How serving goes on from a session, by the requests that are served, and how it ends:
with the last report, with a wait in which nothing is asked for, with a failure to
receive, or with a report that the link refuses.  The wait it ends with has a window of
its own like those of the rounds. -/
inductive Serves : Session → List Service → EStateM.Result Error Session Outcome → Prop
  | completed {session after : Session} {service : Service}
      (round : session.Round service true after) :
      Serves session [service] (.ok (.completed after.chunksSent) after)
  | abandoned {session after : Session} {request : Wire.ChunkRequest}
      (awaited : awaitChunkRequest session.settings.requestTimeout session = .ok request after)
      (nothing : request.isNothing = true)
      (inTime : after.link.now ≤ session.link.now + session.settings.requestTimeout) :
      Serves session [] (.ok (.abandoned after.chunksSent) after)
  | unreceived {session after : Session} {fault : Error}
      (awaited : awaitChunkRequest session.settings.requestTimeout session = .error fault after)
      (inTime : after.link.now ≤ session.link.now + session.settings.requestTimeout) :
      Serves session [] (.error fault after)
  | unsent {session asked after : Session} {request : Wire.ChunkRequest} {fault : Error}
      (awaited : awaitChunkRequest session.settings.requestTimeout session = .ok request asked)
      (asks : request.isNothing = false)
      (inTime : asked.link.now ≤ session.link.now + session.settings.requestTimeout)
      (delivered : deliver request asked = .error fault after) :
      Serves session [] (.error fault after)
  | goesOn {session middle : Session} {service : Service} {services : List Service}
      {result : EStateM.Result Error Session Outcome} (round : session.Round service false middle)
      (rest : Serves middle services result) : Serves session (service :: services) result

/-! ## One wait -/

section
variable {session asked : Session} {timeout : Nat} {request : Wire.ChunkRequest}

theorem now_of_awaitChunkRequest {result : EStateM.Result Error Session Wire.ChunkRequest}
    (awaited : awaitChunkRequest timeout session = result) :
    session.link.now ≤ (sessionAfter result).link.now ∧
      (sessionAfter result).link.now ≤ session.link.now + timeout := by
  rw [← awaited, sessionAfter_awaitChunkRequest]
  apply WaitEnds.now_le
  · exact awaitWanted_ends Wire.ChunkRequest.read? _ session.link.now session.link.inbound
  · exact Nat.le_add_right _ _

/-- A request for something is the first of those that were to arrive. -/
theorem requests_of_awaitChunkRequest
    (awaited : awaitChunkRequest timeout session = .ok request asked)
    (asks : request.isNothing = false) :
    session.link.inbound.filterMap Arrival.request? =
      request :: asked.link.inbound.filterMap Arrival.request? := by
  rcases waitEnds_of_request awaited asks with ⟨now, later, rfl, ends⟩
  exact ends.filterMap_found?

end

/-! ## What time is spent on -/

/-- Between two states a session sent some reports, and the time that passed is at most
that of some windows and of an interval for every report. -/
structure Spends (session : Session) (windows : Nat) (numbers : List Nat) (after : Session) :
    Prop where
  reports : session.Reports numbers after
  now : after.link.now ≤ session.link.now + windows * session.settings.requestTimeout +
    numbers.length * session.settings.reportInterval

section
variable {session middle after : Session} {windows more : Nat} {first second numbers : List Nat}

theorem Spends.trans (spends : session.Spends windows first middle)
    (others : middle.Spends more second after) :
    session.Spends (windows + more) (first ++ second) after where
  reports := spends.reports.trans others.reports
  now := by
    have before := spends.now
    have behind := others.now
    rw [spends.reports.settings] at behind
    rw [List.length_append, Nat.add_mul, Nat.add_mul]
    omega

theorem Spends.mono (spends : session.Spends windows numbers after) (fewer : windows ≤ more) :
    session.Spends more numbers after where
  reports := spends.reports
  now := by
    have longer := Nat.mul_le_mul_right session.settings.requestTimeout fewer
    have now := spends.now
    omega

theorem spends_of_awaitChunkRequest {result : EStateM.Result Error Session Wire.ChunkRequest}
    (awaited : awaitChunkRequest session.settings.requestTimeout session = result) :
    session.Spends 1 [] (sessionAfter result) where
  reports := reports_of_awaitChunkRequest awaited
  now := by
    rw [Nat.one_mul, List.length_nil, Nat.zero_mul]
    exact (now_of_awaitChunkRequest awaited).2

theorem spends_afterReports (session : Session) (numbers : List Nat) :
    session.Spends 0 numbers (session.afterReports numbers) where
  reports := session.reports_afterReports numbers
  now := by
    rw [session.now_afterReports, Nat.zero_mul]
    exact Nat.le_refl _

/-- An attempt that is refused takes no time. -/
theorem Spends.refusing (spends : session.Spends windows numbers after) :
    session.Spends windows numbers after.refusing where
  reports := by
    have reports := spends.reports.trans (reports_refusing after)
    rwa [List.append_nil] at reports
  now := spends.now

end

/-! ## One round -/

section
variable {session asked after : Session} {request : Wire.ChunkRequest}

theorem answered_congr {other : Session} (image : other.image = session.image) :
    other.answered = session.answered := by
  cases session
  cases other
  cases image
  rfl

theorem deliver_eq_ok {last : Bool} (delivered : deliver request session = .ok last after) :
    after = session.afterReports (session.answered request) := by
  rcases session.deliver_ends request with ends | ⟨count, within, ends⟩
  · rw [ends] at delivered
    cases delivered
    rfl
  · cases ends.symm.trans delivered

theorem deliver_eq_error {fault : Error}
    (delivered : deliver request session = .error fault after) :
    ∃ numbers, after = (session.afterReports numbers).refusing := by
  rcases session.deliver_ends request with ends | ⟨count, within, ends⟩
  · cases ends.symm.trans delivered
  · cases ends.symm.trans delivered
    exact ⟨_, rfl⟩

/-- Waiting for a request and answering it is a round. -/
theorem round_of_deliver {last : Bool}
    (awaited : awaitChunkRequest session.settings.requestTimeout session = .ok request asked)
    (asks : request.isNothing = false) (delivered : deliver request asked = .ok last after) :
    session.Round ⟨session.link.now, asked.link.now, request, session.answered request⟩ last
      after := by
  have waited : session.Reports [] asked := reports_of_awaitChunkRequest awaited
  have inTime := now_of_awaitChunkRequest awaited
  have behind : after.link.now = asked.link.now +
      (session.answered request).length * session.settings.reportInterval := by
    rw [deliver_eq_ok delivered, now_afterReports, answered_congr waited.image, waited.settings]
  exact ⟨rfl, inTime.1, inTime.2, asks, ⟨asked, rfl, awaited, delivered⟩, rfl, behind⟩

end

section
variable {session after : Session} {service : Service} {last : Bool}

theorem Round.spends (round : session.Round service last after) :
    session.Spends 1 service.numbers after := by
  rcases round.served with ⟨asked, came, awaited, delivered⟩
  have waited : session.Spends 1 [] asked := spends_of_awaitChunkRequest awaited
  have answer := asked.spends_afterReports (asked.answered service.request)
  rw [← deliver_eq_ok delivered, answered_congr waited.reports.image, ← round.numbers] at answer
  exact waited.trans answer

theorem Round.requests (round : session.Round service last after) :
    session.link.inbound.filterMap Arrival.request? =
      service.request :: after.link.inbound.filterMap Arrival.request? := by
  rcases round.served with ⟨asked, came, awaited, delivered⟩
  rw [deliver_eq_ok delivered, inbound_afterReports]
  exact requests_of_awaitChunkRequest awaited round.asks

end

/-! ## All rounds -/

section
variable {session : Session} {services : List Service}
  {result : EStateM.Result Error Session Outcome}

theorem serves_transfer (session : Session) :
    ∃ services, session.Serves services session.transfer := by
  fun_induction transfer session with
  | case1 session fault after awaited =>
    exact ⟨[], .unreceived awaited (now_of_awaitChunkRequest awaited).2⟩
  | case2 session request asked awaited silent =>
    exact ⟨[], .abandoned awaited silent (now_of_awaitChunkRequest awaited).2⟩
  | case3 session request asked awaited asks fault after delivered =>
    have inTime := (now_of_awaitChunkRequest awaited).2
    exact ⟨[], .unsent awaited (Bool.not_eq_true _ ▸ asks) inTime delivered⟩
  | case4 session request asked awaited asks after delivered =>
    have round := round_of_deliver awaited (Bool.not_eq_true _ ▸ asks) delivered
    exact ⟨[_], .completed round⟩
  | case5 session request asked awaited asks after delivered ih =>
    have round := round_of_deliver awaited (Bool.not_eq_true _ ▸ asks) delivered
    rcases ih with ⟨services, rest⟩
    exact ⟨_ :: services, .goesOn round rest⟩

/-- Every round adds its own window; behind the last there is room for one more wait. -/
theorem Serves.spends (serves : session.Serves services result) :
    ∃ numbers, session.Spends (services.length + 1) numbers (sessionAfter result) := by
  induction serves with
  | completed round => exact ⟨_, round.spends.mono (Nat.le_add_left 1 _)⟩
  | abandoned awaited nothing inTime => exact ⟨[], spends_of_awaitChunkRequest awaited⟩
  | unreceived awaited inTime => exact ⟨[], spends_of_awaitChunkRequest awaited⟩
  | @unsent session asked after request fault awaited asks inTime delivered =>
    rcases deliver_eq_error delivered with ⟨numbers, rfl⟩
    have answer := (asked.spends_afterReports numbers).refusing
    exact ⟨numbers, (spends_of_awaitChunkRequest awaited).trans answer⟩
  | @goesOn session middle service services result round rest ih =>
    rcases ih with ⟨numbers, spends⟩
    have joined := round.spends.trans spends
    rw [Nat.add_comm 1] at joined
    exact ⟨service.numbers ++ numbers, joined⟩

/-- Served are the first of the requests that were to arrive, in their order. -/
theorem Serves.requests (serves : session.Serves services result) :
    services.map Service.request <+: session.link.inbound.filterMap Arrival.request? := by
  induction serves with
  | completed round =>
    rw [round.requests]
    exact List.cons_prefix_cons.mpr ⟨rfl, List.nil_prefix⟩
  | abandoned awaited nothing inTime => exact List.nil_prefix
  | unreceived awaited inTime => exact List.nil_prefix
  | unsent awaited asks inTime delivered => exact List.nil_prefix
  | goesOn round rest ih =>
    rw [round.requests]
    exact List.cons_prefix_cons.mpr ⟨rfl, ih⟩

/-- When nothing is asked for there is one wait and nothing else. -/
theorem Serves.unasked (serves : session.Serves services result)
    (unasked : session.link.inbound.filterMap Arrival.request? = []) :
    services = [] ∧ session.Spends 1 [] (sessionAfter result) ∧
      (result = .ok (.abandoned session.chunksSent) (sessionAfter result) ∨
        ∃ fault, result = .error (.io fault) (sessionAfter result)) := by
  cases serves with
  | completed round => cases round.requests.symm.trans unasked
  | @abandoned _ after request awaited nothing inTime =>
    have spends : session.Spends 1 [] after := spends_of_awaitChunkRequest awaited
    have counted : after.chunksSent = session.chunksSent := spends.reports.chunksSent
    refine ⟨rfl, spends, Or.inl ?_⟩
    rw [counted]
    rfl
  | unreceived awaited inTime =>
    rcases fault_of_awaitChunkRequest awaited with ⟨fault, rfl⟩
    exact ⟨rfl, spends_of_awaitChunkRequest awaited, Or.inr ⟨fault, rfl⟩⟩
  | unsent awaited asks inTime delivered =>
    cases (requests_of_awaitChunkRequest awaited asks).symm.trans unasked
  | goesOn round rest => cases round.requests.symm.trans unasked

end

/-- Serving comes to an end.  Behind every round the next wait opens its own window; so
the time it takes is at most one window more than the requests it serves, and an interval
for every report it sends.  When no arrival asks for chunks, it is abandoned after one
window at most, unless receiving fails before. -/
theorem transfer_in_windows (session : Session) :
    ∃ services numbers after, sessionAfter session.transfer = after ∧
      session.Serves services session.transfer ∧
      services.map Service.request <+: session.link.inbound.filterMap Arrival.request? ∧
      session.Reports numbers after ∧
      after.link.now ≤ session.link.now +
        (services.length + 1) * session.settings.requestTimeout +
        numbers.length * session.settings.reportInterval ∧
      ((∀ arrival ∈ session.link.inbound, ∀ request, ¬ arrival.AsksFor request) →
        services = [] ∧ after.link.now ≤ session.link.now + session.settings.requestTimeout ∧
        (session.transfer = .ok (.abandoned session.chunksSent) after ∨
          ∃ fault, session.transfer = .error (.io fault) after)) := by
  rcases session.serves_transfer with ⟨services, serves⟩
  rcases serves.spends with ⟨numbers, spends⟩
  refine ⟨services, numbers, _, rfl, serves, serves.requests, spends.reports, spends.now, ?_⟩
  intro unasked
  have noneAsks : session.link.inbound.filterMap Arrival.request? = [] := by
    apply List.filterMap_eq_nil_iff.mpr
    intro arrival member
    apply Option.eq_none_iff_forall_ne_some.mpr
    intro request asks
    exact unasked arrival member request (Arrival.request?_eq_some_iff.mp asks)
  rcases serves.unasked noneAsks with ⟨unserved, waited, ends⟩
  have now := waited.now
  rw [Nat.one_mul, List.length_nil, Nat.zero_mul] at now
  exact ⟨unserved, now, ends⟩

/-- A session whose window of 100 milliseconds is full of datagrams in which nothing is asked
for: a request cut short, one of another class, and two octets behind a request. -/
def pestered : Session where
  link := .opened
    [⟨40, .datagram [0x7a, 0x05, 0x01, 0x00]⟩,
     ⟨80, .datagram [0x7b, 0x05, 0x01, 0x00, 0x01]⟩,
     ⟨100, .datagram [0x7a, 0x05, 0x01, 0x00, 0x01, 0x0d, 0x0a]⟩] []
  image := ⟨[0x2a]⟩
  settings := { requestTimeout := 100 }
  chunksSent := 0

theorem transfer_in_windows_pestered :
    (∀ arrival ∈ pestered.link.inbound, ∀ request, ¬ arrival.AsksFor request) ∧
      ∃ after, sessionAfter pestered.transfer = after ∧ after.link.now ≤ 100 ∧
        (pestered.transfer = .ok (.abandoned 0) after ∨
          ∃ fault, pestered.transfer = .error (.io fault) after) := by
  have unasked : ∀ arrival ∈ pestered.link.inbound, ∀ request, ¬ arrival.AsksFor request := by
    have noneFound : ∀ arrival ∈ pestered.link.inbound, arrival.request? = none := by decide
    intro arrival member request asks
    cases (noneFound arrival member).symm.trans (Arrival.request?_eq_some_iff.mpr asks)
  rcases transfer_in_windows pestered with ⟨services, numbers, after, same, -, -, -, -, ends⟩
  exact ⟨unasked, after, same, (ends unasked).2⟩

end Session

end Update
end FirmwareGateway
