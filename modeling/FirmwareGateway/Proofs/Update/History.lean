import FirmwareGateway.Proofs.Update.RunTrace

namespace FirmwareGateway
namespace Update

/-!
# Histories of a session

A session can be asked for each of its operations, in any order, and when one fails the
next finds what it left.  `Reported` says which chunks a session reported between two of
its states, among whatever else it sent.  It holds of every operation, however that ended,
and it composes, so it holds of every history.
-/

/-- What a session can be asked for. -/
inductive Call
  | announce
  | activate
  | listen (timeout : Nat)
  | deliver (request : Wire.ChunkRequest)
  | transfer
  | run
  deriving DecidableEq, Repr

/-- Carries out a call.  Only serving comes to an outcome. -/
def Call.perform : Call → Operation (Option Outcome)
  | .announce => (fun _ => none) <$> Session.requestUpdate
  | .activate => (fun _ => none) <$> Session.activate
  | .listen timeout => (fun _ => none) <$> Session.awaitChunkRequest timeout
  | .deliver request => (fun _ => none) <$> Session.deliver request
  | .transfer => some <$> Session.transfer
  | .run => some <$> Session.run

namespace Operation

theorem eq_ok_of_bind {α β : Type} {first : Operation α} {next : α → Operation β}
    {session after : Session} {value : β} (done : (first >>= next) session = .ok value after) :
    ∃ found middle, first session = .ok found middle ∧ next found middle = .ok value after := by
  cases came : first session with
  | error fault middle => cases (bind_error came).symm.trans done
  | ok found middle => exact ⟨found, middle, rfl, (bind_ok came).symm.trans done⟩

theorem eq_ok_of_map {α β : Type} {f : α → β} {operation : Operation α} {session after : Session}
    {value : β} (done : (f <$> operation) session = .ok value after) :
    ∃ found, operation session = .ok found after ∧ f found = value := by
  simp only [Functor.map, EStateM.map] at done
  cases came : operation session with
  | error fault middle =>
    rw [came] at done
    cases done
  | ok found middle =>
    rw [came] at done
    cases done
    exact ⟨found, rfl, rfl⟩

end Operation

namespace Session

/-- A session behind some calls, however each of them ended. -/
def afterCalls (session : Session) (calls : List Call) : Session :=
  calls.foldl (fun session call => sessionAfter (call.perform session)) session

theorem afterCalls_concat (session : Session) (calls : List Call) (call : Call) :
    session.afterCalls (calls ++ [call]) =
      sessionAfter (call.perform (session.afterCalls calls)) :=
  List.foldl_append

/-- The reports that a node reads from what was sent between two states. -/
def reportsUntil (session after : Session) : List (UInt8 × Wire.Report) :=
  (after.link.datagrams.drop session.link.datagrams.length).filterMap Wire.Report.received?

/-- Among what is to arrive is a request. -/
def Brings (session : Session) (request : Wire.ChunkRequest) : Prop :=
  ∃ arrival ∈ session.link.inbound, arrival.found? Wire.ChunkRequest.read? = some request

/-- Between two states a session reported some chunks, all of them in wanted requests. -/
structure Reported (session : Session) (wanted : Wire.ChunkRequest → Prop) (numbers : List Nat)
    (after : Session) : Prop where
  image : after.image = session.image
  settings : after.settings = session.settings
  inbound : after.link.inbound <:+ session.link.inbound
  sent : ∃ sent, after.link.datagrams = session.link.datagrams ++ sent ∧
    sent.filterMap Wire.Report.received? = numbers.map session.seen
  chunksSent : after.chunksSent = session.chunksSent + numbers.length
  asked : ∀ number ∈ numbers, ∃ request, wanted request ∧ number ∈ request.numbers

/-- What a node makes of a report is decided by the image. -/
theorem seen_congr {session other : Session} (image : other.image = session.image) :
    other.seen = session.seen := by
  cases session
  cases other
  cases image
  rfl

namespace Reported

variable {session middle after : Session} {wanted : Wire.ChunkRequest → Prop}
  {first second numbers : List Nat}

theorem refl (session : Session) (wanted : Wire.ChunkRequest → Prop) :
    session.Reported wanted [] session where
  image := rfl
  settings := rfl
  inbound := List.suffix_rfl
  sent := ⟨[], (List.append_nil _).symm, rfl⟩
  chunksSent := rfl
  asked := nofun

theorem trans (reported : session.Reported wanted first middle)
    (later : middle.Reported wanted second after) :
    session.Reported wanted (first ++ second) after where
  image := later.image.trans reported.image
  settings := later.settings.trans reported.settings
  inbound := later.inbound.trans reported.inbound
  sent := by
    rcases reported.sent with ⟨sent, datagrams, read⟩
    rcases later.sent with ⟨more, moreDatagrams, moreRead⟩
    refine ⟨sent ++ more, ?_, ?_⟩
    · rw [moreDatagrams, datagrams, List.append_assoc]
    · rw [List.filterMap_append, read, moreRead, seen_congr reported.image, List.map_append]
  chunksSent := by
    rw [later.chunksSent, reported.chunksSent, List.length_append, Nat.add_assoc]
  asked := List.forall_mem_append.mpr ⟨reported.asked, later.asked⟩

/-- Sending the reports of chunks in a wanted request. -/
theorem of_reports {request : Wire.ChunkRequest} (reports : session.Reports numbers after)
    (inbound : after.link.inbound = session.link.inbound) (asks : wanted request)
    (inside : numbers ⊆ request.numbers) : session.Reported wanted numbers after where
  image := reports.image
  settings := reports.settings
  inbound := inbound ▸ List.suffix_rfl
  sent := ⟨_, reports.datagrams, session.filterMap_received?_reportDatagram numbers⟩
  chunksSent := reports.chunksSent
  asked := fun _ member => ⟨request, asks, inside member⟩

theorem reportsUntil_eq (reported : session.Reported wanted numbers after) :
    session.reportsUntil after = numbers.map session.seen := by
  rcases reported.sent with ⟨sent, datagrams, read⟩
  rw [reportsUntil, datagrams, List.drop_left, read]

/-- What is still to arrive was to arrive before. -/
theorem brings (reported : session.Reported wanted numbers after) {request : Wire.ChunkRequest}
    (brings : after.Brings request) : session.Brings request := by
  rcases brings with ⟨arrival, due, found⟩
  exact ⟨arrival, reported.inbound.subset due, found⟩

end Reported

/-! ## Operations one behind the other -/

/-- However an operation ends, it reported nothing but chunks in wanted requests, where
those that arrive are wanted. -/
def Reporting {α : Type} (wanted : Wire.ChunkRequest → Prop) (operation : Operation α) : Prop :=
  ∀ session : Session, (∀ request, session.Brings request → wanted request) →
    ∃ numbers, session.Reported wanted numbers (sessionAfter (operation session))

section
variable {α β : Type} {wanted : Wire.ChunkRequest → Prop}

theorem reporting_pure (value : α) : Reporting wanted (pure value) := by
  intro session arriving
  exact ⟨[], .refl session wanted⟩

theorem reporting_throw (fault : Error) : Reporting (α := α) wanted (throw fault) := by
  intro session arriving
  exact ⟨[], .refl session wanted⟩

theorem reporting_get {next : Session → Operation β}
    (second : ∀ session, Reporting wanted (next session)) : Reporting wanted (get >>= next) := by
  intro session
  exact second session session

theorem reporting_bind {operation : Operation α} {next : α → Operation β}
    (first : Reporting wanted operation) (second : ∀ value, Reporting wanted (next value)) :
    Reporting wanted (operation >>= next) := by
  intro session arriving
  rcases first session arriving with ⟨numbers, reported⟩
  cases done : operation session with
  | error fault middle =>
    rw [done] at reported
    rw [Operation.bind_error done]
    exact ⟨numbers, reported⟩
  | ok value middle =>
    rw [done] at reported
    rw [Operation.bind_ok done]
    have still : ∀ request, middle.Brings request → wanted request := by
      intro request brings
      exact arriving request (reported.brings brings)
    rcases second value middle still with ⟨more, later⟩
    exact ⟨numbers ++ more, reported.trans later⟩

theorem sessionAfter_map (f : α → β) (operation : Operation α) (session : Session) :
    sessionAfter ((f <$> operation) session) = sessionAfter (operation session) := by
  simp only [Functor.map, EStateM.map]
  cases operation session <;> rfl

theorem Reporting.map {operation : Operation α} (reporting : Reporting wanted operation)
    (f : α → β) : Reporting wanted (f <$> operation) := by
  intro session
  rw [sessionAfter_map]
  exact reporting session

/-! ## Each operation -/

/-- No node takes a command for a report. -/
theorem reporting_send (command : Session → Wire.Command) (sequence : Session → UInt8) :
    Reporting wanted fun session =>
      send (command session).encode (sequence session) session := by
  intro session arriving
  refine ⟨[], ?_⟩
  have same := Reported.refl session wanted
  change session.Reported wanted [] (sessionAfter (send _ _ session))
  rw [Wire.Command.encode_eq]
  by_cases refuses : session.link.Refuses
  · rw [send_refused refuses]
    exact { same with }
  · rw [send_taken refuses]
    refine { same with sent := ⟨_, session.link.datagrams_sending _, ?_⟩ }
    rw [datagram, List.filterMap_cons, Wire.Command.received?_around]
    rfl

theorem suffix_of_waitEnds {sought : Bytes → Option α} {deadline now : Nat}
    {inbound : List Arrival} {awaited : Awaited α}
    (ends : WaitEnds sought deadline now inbound awaited) : awaited.inbound <:+ inbound := by
  cases ends with
  | found passed arrival later value passes inTime finds =>
    exact (List.suffix_cons arrival later).trans (List.suffix_append passed _)
  | failed passed arrival later fault passes inTime event =>
    exact (List.suffix_cons arrival later).trans (List.suffix_append passed _)
  | elapsed passed later passes late => exact List.suffix_append passed later

theorem reporting_await (sought : Bytes → Option α) (timeout : Nat) :
    Reporting wanted (await sought timeout) := by
  intro session arriving
  refine ⟨[], ?_⟩
  have suffix := suffix_of_waitEnds
    (awaitWanted_ends sought (session.link.now + timeout) session.link.now session.link.inbound)
  rw [await_eq]
  generalize awaitWanted sought (session.link.now + timeout) session.link.now
    session.link.inbound = awaited at suffix
  rcases awaited with ⟨found | fault, now, inbound⟩
  · exact { Reported.refl session wanted with inbound := suffix }
  · exact { Reported.refl session wanted with inbound := suffix }

theorem reporting_awaitChunkRequest (timeout : Nat) :
    Reporting wanted (awaitChunkRequest timeout) := by
  apply reporting_bind (reporting_await _ timeout)
  intro request
  exact reporting_pure _

theorem reporting_awaitAcceptance : Reporting wanted awaitAcceptance := by
  apply reporting_get
  intro session
  cases session.settings.ackPolicy with
  | assume => exact reporting_pure ()
  | require =>
    apply reporting_bind (reporting_await _ _)
    rintro (_ | ⟨⟩)
    · exact reporting_throw _
    · exact reporting_pure ()

end

section
variable {wanted : Wire.ChunkRequest → Prop}

/-- A delivery reports the first of the chunks that it was asked for, as many as went out. -/
theorem reporting_deliver {request : Wire.ChunkRequest} (asks : wanted request) :
    Reporting wanted (deliver request) := by
  intro session arriving
  have kept := keepsInbound_sendReports request.numbers session
  have ends := sendReports_ends request.numbers session
  change (sessionAfter (deliver request session)).link.inbound = _ at kept
  change DeliveryEnds session request.numbers (deliver request session) at ends
  generalize deliver request session = result at ends kept
  generalize numbersEq : request.numbers = numbers at ends
  cases ends with
  | through numbers before =>
    have inside : numbers ⊆ request.numbers := numbersEq ▸ List.Subset.refl _
    exact ⟨numbers, .of_reports (session.reports_afterReports numbers) kept asks inside⟩
  | last earlier final unsent before reached =>
    have inside : earlier ++ [final] ⊆ request.numbers := by
      rw [numbersEq, List.append_cons earlier final unsent]
      exact List.subset_append_left _ unsent
    exact ⟨_, .of_reports (session.reports_afterReports _) kept asks inside⟩
  | refused earlier unsent before refuses =>
    have inside : earlier ⊆ request.numbers := numbersEq ▸ List.subset_append_left _ unsent
    have reports := (session.reports_afterReports earlier).trans (reports_refusing _)
    rw [List.append_nil] at reports
    exact ⟨earlier, .of_reports reports kept asks inside⟩

/-- Waiting for a request and delivering what it asks for. -/
theorem reported_of_request {session asked : Session} {request : Wire.ChunkRequest} {timeout : Nat}
    (arriving : ∀ request, session.Brings request → wanted request)
    (awaited : awaitChunkRequest timeout session = .ok request asked)
    (asks : request.isNothing = false) :
    ∃ numbers, session.Reported wanted numbers (sessionAfter (deliver request asked)) := by
  rcases reporting_awaitChunkRequest timeout session arriving with ⟨none, waited⟩
  rw [awaited] at waited
  rcases asked_of_awaitChunkRequest awaited asks with ⟨passed, asking, inbound, finds⟩
  have due : asking ∈ session.link.inbound := by
    rw [inbound]
    exact List.mem_append_right _ List.mem_cons_self
  have still : ∀ request, asked.Brings request → wanted request := by
    intro request brings
    exact arriving request (waited.brings brings)
  rcases reporting_deliver (arriving request ⟨asking, due, finds⟩) asked still with
    ⟨numbers, reported⟩
  exact ⟨none ++ numbers, waited.trans reported⟩

/-- Each request served is one step of the induction. -/
theorem reporting_transfer : Reporting wanted transfer := by
  intro session
  fun_induction transfer session with
  | case1 session fault after awaited =>
    intro arriving
    have waited := reporting_awaitChunkRequest session.settings.requestTimeout session arriving
    rwa [awaited] at waited
  | case2 session request asked awaited asks =>
    intro arriving
    have waited := reporting_awaitChunkRequest session.settings.requestTimeout session arriving
    rwa [awaited] at waited
  | case3 session request asked awaited asks fault after delivered =>
    intro arriving
    have reported := reported_of_request arriving awaited (Bool.not_eq_true _ ▸ asks)
    rwa [delivered] at reported
  | case4 session request asked awaited asks after delivered =>
    intro arriving
    have reported := reported_of_request arriving awaited (Bool.not_eq_true _ ▸ asks)
    rwa [delivered] at reported
  | case5 session request asked awaited asks after delivered ih =>
    intro arriving
    rcases reported_of_request arriving awaited (Bool.not_eq_true _ ▸ asks) with
      ⟨numbers, reported⟩
    rw [delivered] at reported
    rcases ih fun request brings => arriving request (reported.brings brings) with ⟨more, later⟩
    exact ⟨numbers ++ more, reported.trans later⟩

theorem reporting_requestUpdate : Reporting wanted requestUpdate :=
  reporting_send _ _

theorem reporting_activate : Reporting wanted activate :=
  reporting_send _ _

theorem reporting_run : Reporting wanted run := by
  apply reporting_bind reporting_requestUpdate
  intro announced
  apply reporting_bind reporting_awaitAcceptance
  intro accepted
  apply reporting_bind reporting_transfer
  intro outcome
  apply reporting_get
  intro session
  cases outcome.isCompleted && session.settings.activate with
  | false => exact reporting_pure outcome
  | true =>
    apply reporting_bind reporting_activate
    intro activated
    exact reporting_pure outcome

/-- A call reports what arriving requests ask for and what the call itself asks for. -/
theorem reporting_perform {call : Call}
    (asks : ∀ request, call = .deliver request → wanted request) :
    Reporting wanted call.perform := by
  cases call with
  | announce => exact reporting_requestUpdate.map _
  | activate => exact reporting_activate.map _
  | listen timeout => exact (reporting_awaitChunkRequest timeout).map _
  | deliver request => exact (reporting_deliver (asks request rfl)).map _
  | transfer => exact reporting_transfer.map _
  | run => exact reporting_run.map _

/-- Each call is one step of the induction. -/
theorem exists_reported {session : Session} {calls : List Call}
    (asks : ∀ request, .deliver request ∈ calls → wanted request)
    (arriving : ∀ request, session.Brings request → wanted request) :
    ∃ numbers, session.Reported wanted numbers (session.afterCalls calls) := by
  induction calls generalizing session with
  | nil => exact ⟨[], .refl session wanted⟩
  | cons call calls ih =>
    have first : ∀ request, call = .deliver request → wanted request := by
      rintro request rfl
      exact asks request List.mem_cons_self
    rcases reporting_perform first session arriving with ⟨numbers, reported⟩
    rcases ih (fun request member => asks request (List.mem_cons_of_mem _ member))
      (fun request brings => arriving request (reported.brings brings)) with ⟨more, later⟩
    exact ⟨numbers ++ more, reported.trans later⟩

end

/-! ## The count of reports -/

/-- What a session comes to that was opened. -/
theorem eq_of_opened {link : Link} {image : Image} {settings : Settings} {session : Session}
    (opened : Session.opened link image settings = .ok session) :
    session = ⟨link, image, settings, 0⟩ ∧ session.totalChunks ≤ Wire.maxReportNumber := by
  simp only [Session.opened, bind, Except.bind] at opened
  cases valid : settings.validate with
  | error fault =>
    rw [valid] at opened
    cases opened
  | ok =>
    rw [valid] at opened
    by_cases large : image.totalChunks > Wire.maxReportNumber
    · simp only [if_pos large] at opened
      cases opened
    · simp only [if_neg large] at opened
      cases opened
      exact ⟨rfl, Nat.not_lt.mp large⟩

theorem reportsSent_of_transfer {session after : Session} {outcome : Outcome}
    (served : transfer session = .ok outcome after) : outcome.reportsSent = after.chunksSent := by
  have ends := session.transfer_ends
  rw [served] at ends
  cases ends <;> rfl

/-- Activating is behind the outcome, and counts for nothing. -/
theorem reportsSent_of_run {session after : Session} {outcome : Outcome}
    (ran : run session = .ok outcome after) : outcome.reportsSent = after.chunksSent := by
  rcases Operation.eq_ok_of_bind ran with ⟨-, announced, -, ran⟩
  rcases Operation.eq_ok_of_bind ran with ⟨-, accepted, -, ran⟩
  rcases Operation.eq_ok_of_bind ran with ⟨reached, served, transferred, ran⟩
  have counted := reportsSent_of_transfer transferred
  rw [Operation.get_bind] at ran
  cases activates : reached.isCompleted && served.settings.activate with
  | false =>
    rw [activates] at ran
    cases ran
    exact counted
  | true =>
    rw [activates] at ran
    change (activate >>= fun _ => pure reached) served = .ok outcome after at ran
    rcases Operation.eq_ok_of_bind ran with ⟨⟨⟩, activated, done, ran⟩
    cases ran
    by_cases refuses : served.link.Refuses
    · rw [activate_refused refuses] at done
      cases done
    · rw [activate_taken refuses] at done
      cases done
      exact counted

theorem reportsSent_of_perform {call : Call} {session after : Session} {outcome : Outcome}
    (came : call.perform session = .ok (some outcome) after) :
    outcome.reportsSent = after.chunksSent := by
  cases call with
  | transfer =>
    rcases Operation.eq_ok_of_map came with ⟨reached, served, same⟩
    cases same
    exact reportsSent_of_transfer served
  | run =>
    rcases Operation.eq_ok_of_map came with ⟨reached, ran, same⟩
    cases same
    exact reportsSent_of_run ran
  | _ =>
    rcases Operation.eq_ok_of_map came with ⟨found, done, none⟩
    cases none

/-- A session counts the reports that went out since it was opened, whatever it was asked
for and however that ended.  Reports that were refused do not count, and neither does
anything else that it sends.  Its outcomes give that count, over all transfers. -/
theorem chunksSent_of_history {link : Link} {image : Image} {settings : Settings}
    {session : Session} (opened : Session.opened link image settings = .ok session)
    (calls : List Call) :
    session.link.datagrams <+: (session.afterCalls calls).link.datagrams ∧
    (session.afterCalls calls).chunksSent =
      (session.reportsUntil (session.afterCalls calls)).length ∧
    (session.afterCalls calls).totalChunks = session.totalChunks ∧
    ∀ (call : Call) (outcome : Outcome) (after : Session),
      call.perform (session.afterCalls calls) = .ok (some outcome) after →
      outcome.reportsSent = (session.reportsUntil after).length := by
  have fresh : session.chunksSent = 0 := by rw [(eq_of_opened opened).1]
  have reported : ∀ calls, ∃ numbers,
      session.Reported (fun _ => True) numbers (session.afterCalls calls) := by
    intro calls
    exact exists_reported (fun _ _ => trivial) (fun _ _ => trivial)
  have counted : ∀ calls, (session.afterCalls calls).chunksSent =
      (session.reportsUntil (session.afterCalls calls)).length := by
    intro calls
    rcases reported calls with ⟨numbers, reported⟩
    rw [reported.chunksSent, fresh, Nat.zero_add, reported.reportsUntil_eq, List.length_map]
  rcases reported calls with ⟨numbers, now⟩
  refine ⟨?_, counted calls, congrArg Image.totalChunks now.image, ?_⟩
  · rcases now.sent with ⟨sent, datagrams, -⟩
    exact ⟨sent, datagrams.symm⟩
  · intro call outcome after came
    have next : session.afterCalls (calls ++ [call]) = after := by
      rw [afterCalls_concat, came]
      rfl
    rw [reportsSent_of_perform came, ← next]
    exact counted (calls ++ [call])

/-- The link refuses the second report of a delivery, which is asked for again. -/
theorem chunksSent_of_history_refused :
    ∃ session : Session,
      Session.opened (.opened [] [2]) ⟨List.replicate 41 0x2a⟩ {} = .ok session ∧
      (session.afterCalls
        [.announce, .deliver ⟨1, 3⟩, .deliver ⟨1, 3⟩, .activate]).chunksSent = 3 ∧
      (session.reportsUntil (session.afterCalls
        [.announce, .deliver ⟨1, 3⟩, .deliver ⟨1, 3⟩, .activate])).length = 3 := by
  have opened : Session.opened (.opened [] [2]) ⟨List.replicate 41 0x2a⟩ {} =
      .ok ⟨.opened [] [2], ⟨List.replicate 41 0x2a⟩, {}, 0⟩ := rfl
  refine ⟨_, opened, by decide +kernel, ?_⟩
  rw [← (chunksSent_of_history opened _).2.1]
  decide +kernel

end Session

end Update
end FirmwareGateway
