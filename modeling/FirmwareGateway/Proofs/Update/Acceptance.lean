import FirmwareGateway.Proofs.Update.Delivery
import FirmwareGateway.Proofs.Update.Waiting

namespace FirmwareGateway
namespace Update

/-!
# The announcement and its answer

An update is announced by one datagram.  Where the settings require it, the node then
has to answer in time, and any datagram may come in between.  Until it has answered
nothing more is sent.
-/

/-- An arrival in which the node accepts an update. -/
def Arrival.Accepts (arrival : Arrival) : Prop :=
  ∃ bytes, arrival.event = .datagram bytes ∧
    Wire.isRequestReport (bytes.take receiveLimit) = true

/-- What a wait for acceptance finds in a datagram. -/
def acceptance? (datagram : Bytes) : Option Unit :=
  if Wire.isRequestReport datagram then some () else none

theorem Arrival.accepts_of_found? {arrival : Arrival} {value : Unit}
    (found : arrival.found? acceptance? = some value) : arrival.Accepts := by
  rcases event_of_found? found with ⟨bytes, event, finds⟩
  refine ⟨bytes, event, ?_⟩
  by_cases accepts : Wire.isRequestReport (bytes.take receiveLimit) = true
  · exact accepts
  · rw [acceptance?, if_neg accepts] at finds
    cases finds

theorem Arrival.found?_of_not_accepts {arrival : Arrival} (refrains : ¬ arrival.Accepts) :
    arrival.found? acceptance? = none := by
  cases found : arrival.found? acceptance? with
  | none => rfl
  | some value => exact absurd (accepts_of_found? found) refrains

namespace Session

/-! ## The announcement -/

/-- The datagram that announces an update. -/
def announcement (session : Session) : Bytes :=
  session.datagram 1 (Wire.Command.octets (.requestGet session.settings.vendor
    session.settings.firmware session.image.checksum session.settings.target))

/-- A session behind its announcement. -/
def announced (session : Session) : Session :=
  { session with link := session.link.sending session.announcement }

theorem requestUpdate_refused {session : Session} (refuses : session.link.Refuses) :
    requestUpdate session = .error refusal { session with link := session.link.refusing } := by
  simp only [requestUpdate, Wire.Command.encode_eq, send_refused refuses]

theorem requestUpdate_taken {session : Session} (takes : ¬ session.link.Refuses) :
    requestUpdate session = .ok () session.announced := by
  simp only [requestUpdate, Wire.Command.encode_eq, send_taken takes, announced, announcement]

/-! ## The answer -/

/-- From one state to another a session waited for an answer, and got one in time. -/
structure Accepted (session waiting : Session) : Prop where
  image : waiting.image = session.image
  settings : waiting.settings = session.settings
  datagrams : waiting.link.datagrams = session.link.datagrams
  answered : ∃ passed answer, session.link.inbound = passed ++ answer :: waiting.link.inbound ∧
    answer.Accepts ∧ waiting.link.now = latest session.link.now (passed ++ [answer])
  inTime : waiting.link.now ≤ session.link.now + session.settings.ackTimeout

/-- How waiting for acceptance can end. -/
inductive AcceptanceEnds (session : Session) : EStateM.Result Error Session Unit → Prop
  | assumed (policy : session.settings.ackPolicy = .assume) :
      AcceptanceEnds session (.ok () session)
  | accepted (waiting : Session) (accepted : session.Accepted waiting) :
      AcceptanceEnds session (.ok () waiting)
  | failed (fault : Error) (now : Nat) (inbound : List Arrival) :
      AcceptanceEnds session (.error fault (session.waited now inbound))

theorem awaitAcceptance_assume {session : Session}
    (policy : session.settings.ackPolicy = .assume) : awaitAcceptance session = .ok () session := by
  unfold awaitAcceptance
  rw [Operation.get_bind, policy]
  rfl

theorem awaitAcceptance_require {session : Session}
    (policy : session.settings.ackPolicy = .require) :
    awaitAcceptance session =
      match await acceptance? session.settings.ackTimeout session with
      | .ok (some ()) waiting => .ok () waiting
      | .ok none waiting => .error .ackTimeout waiting
      | .error fault waiting => .error fault waiting := by
  unfold awaitAcceptance
  rw [Operation.get_bind, policy]
  cases awaited : await acceptance? session.settings.ackTimeout session with
  | error fault waiting => exact Operation.bind_error awaited
  | ok found waiting =>
    cases found with
    | none => exact Operation.bind_ok awaited
    | some accepted => exact Operation.bind_ok awaited

theorem awaitAcceptance_ends (session : Session) :
    AcceptanceEnds session (awaitAcceptance session) := by
  cases policy : session.settings.ackPolicy with
  | assume =>
    rw [awaitAcceptance_assume policy]
    exact .assumed policy
  | require =>
    rw [awaitAcceptance_require policy, await_eq]
    have ends := awaitWanted_ends acceptance? (session.link.now + session.settings.ackTimeout)
      session.link.now session.link.inbound
    generalize awaitWanted acceptance? (session.link.now + session.settings.ackTimeout)
      session.link.now session.link.inbound = awaited at ends
    have window := ends.now_le (Nat.le_add_right _ _)
    generalize inboundEq : session.link.inbound = inbound at ends
    cases ends with
    | failed passed failing later fault passes inTime event => exact .failed _ _ _
    | elapsed passed later passes late => exact .failed _ _ _
    | found passed answer later value passes inTime finds =>
      have accepts := Arrival.accepts_of_found? finds
      exact .accepted _ ⟨rfl, rfl, rfl, ⟨passed, answer, inboundEq, accepts, rfl⟩, window.2⟩

/-- When what arrives in time is no answer, the wait ends at its deadline. -/
theorem awaitAcceptance_unanswered {session : Session} {passed later : List Arrival}
    (policy : session.settings.ackPolicy = .require)
    (inbound : session.link.inbound = passed ++ later)
    (inTime : ∀ arrival ∈ passed, arrival.due ≤ session.link.now + session.settings.ackTimeout)
    (datagrams : ∀ arrival ∈ passed, arrival.IsDatagram)
    (refrains : ∀ arrival ∈ passed, ¬ arrival.Accepts)
    (late : ∀ arrival ∈ later.head?, session.link.now + session.settings.ackTimeout < arrival.due) :
    awaitAcceptance session = .error .ackTimeout
      (session.waited (session.link.now + session.settings.ackTimeout) later) := by
  have passes : ∀ arrival ∈ passed,
      arrival.Passes acceptance? (session.link.now + session.settings.ackTimeout) := by
    intro arrival member
    exact ⟨inTime arrival member, datagrams arrival member,
      Arrival.found?_of_not_accepts (refrains arrival member)⟩
  rw [awaitAcceptance_require policy, await_eq, inbound, awaitWanted_append _ _ passes,
    awaitWanted_elapsed _ _ late]

end Session

end Update
end FirmwareGateway
