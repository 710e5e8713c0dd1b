import FirmwareGateway.Proofs.Update.Acceptance
import FirmwareGateway.Proofs.Update.Serving

namespace FirmwareGateway
namespace Update

/-!
# The trace of a run

A run sends an announcement, then reports, then at most one activation, and may stop
anywhere on the way.  The course of a run says how far it came.  What a course has to
fulfil is the same for every way a run can end: the activation follows a report marked
as last, and where the node has to accept, serving begins behind its answer.
-/

/-- How far a run came: whether the announcement went out, the datagrams sent behind it
with what a node reads from them, and whether the activation went out. -/
structure Course where
  announced : Bool
  reported : List Bytes
  reports : List (UInt8 × Wire.Report)
  activated : Bool

/-- The final report of a course is marked as last. -/
def Course.Flagged (course : Course) : Prop :=
  ∃ earlier final, course.reports = earlier ++ [final] ∧ final.2.last = true

namespace Session

/-- The datagram that makes the node use the image. -/
def activation (session : Session) : Bytes :=
  session.datagram (sequenceFor session.totalChunks)
    (Wire.Command.octets (.activeSet session.settings.vendor session.settings.firmware
      session.image.checksum session.settings.target session.settings.hardware))

/-- The datagrams of a course, in order. -/
def along (session : Session) (course : Course) : List Bytes :=
  (if course.announced then [session.announcement] else []) ++ course.reported ++
    (if course.activated then [session.activation] else [])

/-- A run from a session took a course and ended with a result. -/
structure Took (session : Session) (course : Course)
    (result : EStateM.Result Error Session Outcome) : Prop where
  sent : (sessionAfter result).link.datagrams = session.link.datagrams ++ session.along course
  reports : course.reported.map Wire.Report.received? = course.reports.map some
  announced : course.announced = false → course.reported = [] ∧ course.activated = false
  activated : course.activated = true → session.settings.activate = true ∧ course.Flagged
  abandoned : ∀ count after, result = .ok (.abandoned count) after →
    (∀ report ∈ course.reports, report.2.last = false) ∧ course.activated = false
  completed : ∀ count after, result = .ok (.completed count) after →
    course.Flagged ∧ course.activated = session.settings.activate
  accepted : session.settings.ackPolicy = .require → course.reported ≠ [] →
    ∃ waiting, session.announced.Accepted waiting ∧
      (sessionAfter waiting.transfer).link.datagrams = waiting.link.datagrams ++ course.reported

/-! ## The parts of a run -/

section
variable {session opened waiting after : Session} {fault : Error} {outcome : Outcome}

theorem run_of_unannounced (failed : requestUpdate session = .error fault after) :
    run session = .error fault after :=
  Operation.bind_error failed

theorem run_of_unaccepted (announced : requestUpdate session = .ok () opened)
    (failed : awaitAcceptance opened = .error fault after) : run session = .error fault after := by
  unfold run
  rw [Operation.bind_ok announced]
  exact Operation.bind_error failed

theorem run_of_broken (announced : requestUpdate session = .ok () opened)
    (accepted : awaitAcceptance opened = .ok () waiting)
    (failed : transfer waiting = .error fault after) : run session = .error fault after := by
  unfold run
  rw [Operation.bind_ok announced, Operation.bind_ok accepted]
  exact Operation.bind_error failed

theorem run_of_served (announced : requestUpdate session = .ok () opened)
    (accepted : awaitAcceptance opened = .ok () waiting)
    (served : transfer waiting = .ok outcome after)
    (rests : (outcome.isCompleted && after.settings.activate) = false) :
    run session = .ok outcome after := by
  unfold run
  rw [Operation.bind_ok announced, Operation.bind_ok accepted, Operation.bind_ok served,
    Operation.get_bind, rests]
  rfl

theorem run_of_activating (announced : requestUpdate session = .ok () opened)
    (accepted : awaitAcceptance opened = .ok () waiting)
    (served : transfer waiting = .ok outcome after)
    (activates : (outcome.isCompleted && after.settings.activate) = true) :
    run session =
      match activate after with
      | .ok () last => .ok outcome last
      | .error fault last => .error fault last := by
  unfold run
  rw [Operation.bind_ok announced, Operation.bind_ok accepted, Operation.bind_ok served,
    Operation.get_bind, activates, if_pos rfl]
  cases activating : activate after with
  | error fault last => exact Operation.bind_error activating
  | ok done last => exact Operation.bind_ok activating

end

theorem activate_refused {session : Session} (refuses : session.link.Refuses) :
    activate session = .error refusal { session with link := session.link.refusing } := by
  simp only [activate, Wire.Command.encode_eq, send_refused refuses]

theorem activate_taken {session : Session} (takes : ¬ session.link.Refuses) :
    activate session =
      .ok () { session with link := session.link.sending session.activation } := by
  simp only [activate, Wire.Command.encode_eq, send_taken takes, activation]

theorem activation_congr {session other : Session} (image : other.image = session.image)
    (settings : other.settings = session.settings) : other.activation = session.activation := by
  cases session
  cases other
  cases image
  cases settings
  rfl

/-! ## The course of a run -/

/-- A session in which serving begins. -/
structure Opens (session waiting : Session) : Prop where
  image : waiting.image = session.image
  settings : waiting.settings = session.settings
  datagrams : waiting.link.datagrams = session.link.datagrams ++ [session.announcement]
  accepted : session.settings.ackPolicy = .require → session.announced.Accepted waiting

theorem opens_of_awaitAcceptance {session waiting : Session}
    (accepted : awaitAcceptance session.announced = .ok () waiting) : session.Opens waiting := by
  have ends := session.announced.awaitAcceptance_ends
  have sent := session.link.datagrams_sending session.announcement
  rw [accepted] at ends
  cases ends with
  | assumed policy =>
    refine ⟨rfl, rfl, sent, ?_⟩
    intro require
    cases require.symm.trans policy
  | accepted waiting accepted =>
    exact ⟨accepted.image, accepted.settings, accepted.datagrams.trans sent, fun _ => accepted⟩

/-- The course of a run that reported the chunks with the given numbers. -/
def course (session : Session) (numbers : List Nat) (activated : Bool) : Course :=
  ⟨true, numbers.map session.reportDatagram, numbers.map session.seen, activated⟩

theorem flagged_course {session : Session} {earlier : List Nat} {final : Nat} (activated : Bool)
    (reached : session.totalChunks ≤ final) :
    (session.course (earlier ++ [final]) activated).Flagged := by
  refine ⟨earlier.map session.seen, session.seen final, ?_, decide_eq_true reached⟩
  exact List.map_append

theorem unflagged_course {session : Session} {numbers : List Nat} (activated : Bool)
    (before : ∀ number ∈ numbers, number < session.totalChunks) :
    ∀ report ∈ (session.course numbers activated).reports, report.2.last = false := by
  intro report member
  rcases List.mem_map.mp member with ⟨number, place, rfl⟩
  exact decide_eq_false (Nat.not_le.mpr (before number place))

/-- A run that was announced and served takes the course of what was reported. -/
theorem Opens.took {session waiting after : Session} {numbers : List Nat}
    {result : EStateM.Result Error Session Outcome} (opens : session.Opens waiting)
    (activated : Bool) (served : sessionAfter waiting.transfer = after)
    (reports : waiting.Reports numbers after)
    (sent : (sessionAfter result).link.datagrams =
      after.link.datagrams ++ if activated then [session.activation] else [])
    (activates : activated = true →
      session.settings.activate = true ∧ (waiting.course numbers activated).Flagged)
    (abandoned : ∀ count left, result = .ok (.abandoned count) left →
      (∀ report ∈ (waiting.course numbers activated).reports, report.2.last = false) ∧
        activated = false)
    (completed : ∀ count left, result = .ok (.completed count) left →
      (waiting.course numbers activated).Flagged ∧ activated = session.settings.activate) :
    session.Took (waiting.course numbers activated) result := by
  constructor
  case sent =>
    rw [sent, reports.datagrams, opens.datagrams, along, List.append_assoc, List.append_assoc,
      List.append_assoc]
    rfl
  case reports => exact waiting.map_received?_reportDatagram numbers
  case announced => nofun
  case activated => exact activates
  case abandoned => exact abandoned
  case completed => exact completed
  case accepted =>
    intro require reported
    exact ⟨waiting, opens.accepted require, by rw [served]; exact reports.datagrams⟩

/-- A run that was not announced, or not accepted, reports nothing. -/
theorem took_of_unserved {session after : Session} {fault : Error} (announced : Bool)
    (sent : after.link.datagrams =
      session.link.datagrams ++ if announced then [session.announcement] else []) :
    session.Took ⟨announced, [], [], false⟩ (.error fault after) := by
  constructor
  case sent =>
    rw [along, List.append_assoc]
    exact sent.trans (congrArg _ (List.append_nil _).symm)
  case reports => rfl
  case announced => exact fun _ => ⟨rfl, rfl⟩
  case activated => nofun
  case abandoned => nofun
  case completed => nofun
  case accepted => exact fun _ reported => absurd rfl reported

/-- What a run that was accepted took depends on how serving ends, and where that is
completion, on whether the activation is asked for and goes out. -/
theorem exists_took_of_accepted {session waiting : Session}
    (announced : requestUpdate session = .ok () session.announced)
    (accepted : awaitAcceptance session.announced = .ok () waiting) :
    ∃ course, session.Took course (run session) := by
  have opens := opens_of_awaitAcceptance accepted
  have ends := waiting.transfer_ends
  generalize served : waiting.transfer = result at ends
  cases ends with
  | failed numbers fault after before reports =>
    rw [run_of_broken announced accepted served]
    refine ⟨_, opens.took false (congrArg sessionAfter served) reports ?_ nofun nofun nofun⟩
    exact (List.append_nil _).symm
  | abandoned numbers after before reports =>
    rw [run_of_served announced accepted served rfl]
    refine ⟨_, opens.took false (congrArg sessionAfter served) reports ?_ nofun ?_ nofun⟩
    · exact (List.append_nil _).symm
    · exact fun _ _ _ => ⟨unflagged_course false before, rfl⟩
  | completed earlier request after before reports asked =>
    have flagged : ∀ activated, (waiting.course
        (earlier ++ [max request.first waiting.totalChunks]) activated).Flagged := by
      intro activated
      exact flagged_course activated (Nat.le_max_right _ _)
    have settings := reports.settings.trans opens.settings
    by_cases activate : session.settings.activate = true
    · rw [run_of_activating announced accepted served (by rw [settings]; exact activate)]
      by_cases refuses : after.link.Refuses
      · rw [activate_refused refuses]
        refine ⟨_, opens.took false (congrArg sessionAfter served) reports ?_ nofun nofun nofun⟩
        exact (List.append_nil _).symm
      · rw [activate_taken refuses]
        refine ⟨_, opens.took true (congrArg sessionAfter served) reports ?_ ?_ nofun ?_⟩
        · rw [← activation_congr (reports.image.trans opens.image) settings]
          exact after.link.datagrams_sending after.activation
        · exact fun _ => ⟨activate, flagged true⟩
        · exact fun _ _ _ => ⟨flagged true, activate.symm⟩
    · have rests := Bool.not_eq_true _ ▸ activate
      rw [run_of_served announced accepted served (by rw [settings]; exact rests)]
      refine ⟨_, opens.took false (congrArg sessionAfter served) reports ?_ nofun nofun ?_⟩
      · exact (List.append_nil _).symm
      · exact fun _ _ _ => ⟨flagged false, rests.symm⟩

theorem exists_took (session : Session) : ∃ course, session.Took course (run session) := by
  by_cases refuses : session.link.Refuses
  · rw [run_of_unannounced (requestUpdate_refused refuses)]
    exact ⟨_, took_of_unserved false (List.append_nil _).symm⟩
  · have announced := requestUpdate_taken refuses
    have ends := session.announced.awaitAcceptance_ends
    generalize accepted : awaitAcceptance session.announced = result at ends
    cases ends with
    | failed fault now inbound =>
      rw [run_of_unaccepted announced accepted]
      exact ⟨_, took_of_unserved true (session.link.datagrams_sending session.announcement)⟩
    | assumed policy => exact exists_took_of_accepted announced accepted
    | accepted waiting answered => exact exists_took_of_accepted announced accepted

/-- Every run takes a course.  Where the node has to accept and what arrives in time is
no answer, it is the one with the announcement alone. -/
theorem run_trace (session : Session) :
    (∃ course, session.Took course (run session)) ∧
    ∀ passed later : List Arrival,
      session.settings.ackPolicy = .require → ¬ session.link.Refuses →
      session.link.inbound = passed ++ later →
      (∀ arrival ∈ passed, arrival.due ≤ session.link.now + session.settings.ackTimeout ∧
        arrival.IsDatagram ∧ ¬ arrival.Accepts) →
      (∀ arrival ∈ later.head?,
        session.link.now + session.settings.ackTimeout < arrival.due) →
      ∃ after, run session = .error .ackTimeout after ∧
        after.link.datagrams = session.link.datagrams ++ [session.announcement] ∧
        after.link.now = session.link.now + session.settings.ackTimeout := by
  refine ⟨session.exists_took, ?_⟩
  intro passed later require takes inbound unanswered late
  have failed : awaitAcceptance session.announced = .error .ackTimeout
      (session.announced.waited (session.link.now + session.settings.ackTimeout) later) :=
    awaitAcceptance_unanswered require inbound
      (fun arrival member => (unanswered arrival member).1)
      (fun arrival member => (unanswered arrival member).2.1)
      (fun arrival member => (unanswered arrival member).2.2) late
  refine ⟨_, run_of_unaccepted (requestUpdate_taken takes) failed, ?_, rfl⟩
  exact session.link.datagrams_sending session.announcement

/-- A session whose node has to accept, but does not answer in time. -/
def askedInVain : Session where
  link := .opened [⟨10, .datagram [0x7a, 0x04]⟩, ⟨5001, .datagram []⟩] []
  image := ⟨[0x2a]⟩
  settings := { ackPolicy := .require }
  chunksSent := 0

theorem run_trace_in_vain :
    (∃ course, askedInVain.Took course (run askedInVain)) ∧
    ∃ after, run askedInVain = .error .ackTimeout after ∧
      after.link.datagrams = [askedInVain.announcement] ∧ after.link.now = 5000 := by
  rcases run_trace askedInVain with ⟨took, unanswered⟩
  refine ⟨took, unanswered [⟨10, .datagram [0x7a, 0x04]⟩] _ rfl nofun rfl ?_ ?_⟩
  · intro arrival member
    rw [List.mem_singleton.mp member]
    refine ⟨by decide, ⟨_, rfl⟩, ?_⟩
    rintro ⟨bytes, event, accepts⟩
    cases event
    exact absurd accepts (by decide)
  · intro arrival next
    cases next
    decide

end Session

end Update
end FirmwareGateway
