import FirmwareGateway.Files
import FirmwareGateway.Update.Session

namespace FirmwareGateway
namespace Update

/-!
# Serving an update

The node asks for runs of chunks, and the gateway answers each run with reports
until the report marked as last has gone out.  When no request comes in time the
update is abandoned.  Serving ends because every request served is one arrival
less on the link, and sending takes none away.

A node is updated from a file.  Before any link is opened the image is read and the
node has to be known.
-/

/-- The image in a file. -/
def readImage (files : Files) (path : String) : Except Error Image :=
  (files.read path).map Image.mk

/-- What has to be there before a link to the node is opened: the image and the
address of the node. -/
def prepare (files : Files) (path : String) (settings : Settings) :
    Except Error (Image × SocketAddress) := do
  let image ← readImage files path
  match settings.node with
  | none => throw (.configuration .nodeMissing)
  | some node => return (image, .v6 (nodeHost node) settings.service 0 0)

/-! ## Reports and requests -/

/-- How serving requests ended, and how many reports the session has sent. -/
inductive Outcome
  | completed (reportsSent : Nat)
  | abandoned (reportsSent : Nat)
  deriving DecidableEq, Repr

namespace Outcome

/-- The number of reports that the session has sent. -/
def reportsSent : Outcome → Nat
  | .completed n => n
  | .abandoned n => n

/-- Whether the last report was sent. -/
def isCompleted : Outcome → Bool
  | .completed _ => true
  | .abandoned _ => false

end Outcome

namespace Session

/-- The report with the chunk of a given number.  Its number has fifteen bits. -/
def reportFor (session : Session) (number : Nat) : Wire.Report where
  number := UInt16.ofNat (number % (Wire.maxReportNumber + 1))
  last := session.totalChunks ≤ number
  chunk := session.image.chunk number

/-- Sends the report with the chunk of a given number, counts it, and lets the
interval between reports pass.  The result is whether it was the last. -/
def sendReport (number : Nat) : Operation Bool := do
  let report := reportFor (← get) number
  send report.encode (sequenceFor number)
  modify fun session =>
    { session with
      chunksSent := session.chunksSent + 1
      link := session.link.wait session.settings.reportInterval }
  return report.last

/-- Sends reports in order up to the one marked as last.  The result is whether
that one was sent. -/
def sendReports : List Nat → Operation Bool
  | [] => pure false
  | number :: rest => do
    if ← sendReport number then return true
    sendReports rest

/-- Answers a request for chunks. -/
def deliver (request : Wire.ChunkRequest) : Operation Bool :=
  sendReports request.numbers

end Session

/-! ## What operations leave alone -/

/-- The session after an operation, however the operation ended. -/
def sessionAfter {α : Type} : EStateM.Result Error Session α → Session
  | .ok _ session => session
  | .error _ session => session

/-- What a session's link will bring is the same after an operation as before. -/
def KeepsInbound {α : Type} (operation : Operation α) : Prop :=
  ∀ session, (sessionAfter (operation session)).link.inbound = session.link.inbound

namespace Session

theorem keepsInbound_send (command : Except Error Bytes) (sequence : UInt8) :
    KeepsInbound (send command sequence) := by
  intro session
  cases command with
  | error fault => rfl
  | ok payload =>
    simp only [send]
    cases (Wire.Envelope.around payload sequence session.settings.flags).encode with
    | error fault => rfl
    | ok datagram =>
      by_cases refuses : session.link.Refuses
      · simp only [Link.send_refused refuses]
        rfl
      · simp only [Link.send_taken refuses]
        rfl

theorem keepsInbound_sendReport (number : Nat) : KeepsInbound (sendReport number) := by
  intro session
  have kept := keepsInbound_send (reportFor session number).encode (sequenceFor number) session
  unfold sendReport
  rw [Operation.get_bind]
  cases sent : send (reportFor session number).encode (sequenceFor number) session with
  | ok done after =>
    rw [sent] at kept
    rw [Operation.bind_ok sent]
    exact kept
  | error fault after =>
    rw [sent] at kept
    rw [Operation.bind_error sent]
    exact kept

theorem keepsInbound_sendReports (numbers : List Nat) : KeepsInbound (sendReports numbers) := by
  induction numbers with
  | nil => intro session; rfl
  | cons number rest ih =>
    intro session
    have kept := keepsInbound_sendReport number session
    unfold sendReports
    cases sent : sendReport number session with
    | error fault after =>
      rw [sent] at kept
      rw [Operation.bind_error sent]
      exact kept
    | ok last after =>
      rw [sent] at kept
      rw [Operation.bind_ok sent]
      cases last with
      | true => exact kept
      | false => exact (ih after).trans kept

theorem inbound_awaitChunkRequest {timeout : Nat} {session after : Session}
    {request : Wire.ChunkRequest}
    (h : awaitChunkRequest timeout session = .ok request after) (asks : request.isNothing = false) :
    after.link.inbound.length < session.link.inbound.length := by
  simp only [awaitChunkRequest, bind, EStateM.bind, await, Link.await] at h
  generalize found : awaitWanted Wire.ChunkRequest.read? (session.link.now + timeout)
    session.link.now session.link.inbound = awaited at h
  rcases awaited with ⟨result, now, inbound⟩
  cases result with
  | error fault => simp at h
  | ok wanted =>
    simp only [pure, EStateM.pure, EStateM.Result.ok.injEq] at h
    rcases h with ⟨rfl, rfl⟩
    cases wanted with
    | none => simp [Wire.ChunkRequest.nothing, Wire.ChunkRequest.isNothing] at asks
    | some request =>
      have shorter := awaitWanted_shorter Wire.ChunkRequest.read? (session.link.now + timeout)
        session.link.now session.link.inbound request (by rw [found])
      rw [found] at shorter
      exact shorter

/-! ## Serving requests -/

/-- Waits for requests and answers them until the last report is sent or no
request comes in time. -/
def transfer (session : Session) : EStateM.Result Error Session Outcome :=
  match _awaited : awaitChunkRequest session.settings.requestTimeout session with
  | .error fault after => .error fault after
  | .ok request asked =>
    if _asks : request.isNothing then .ok (.abandoned asked.chunksSent) asked
    else
      match _delivered : deliver request asked with
      | .error fault after => .error fault after
      | .ok true after => .ok (.completed after.chunksSent) after
      | .ok false after => transfer after
  termination_by session.link.inbound.length
  decreasing_by
    have fewer := inbound_awaitChunkRequest _awaited (by simpa using _asks)
    have kept := keepsInbound_sendReports request.numbers asked
    simp only [deliver] at _delivered
    rw [_delivered] at kept
    simp only [sessionAfter] at kept
    rw [kept]
    exact fewer

/-- A whole update: announces it, waits for the node to accept, serves chunks, and
activates the image where the settings ask for it. -/
def run : Operation Outcome := do
  requestUpdate
  awaitAcceptance
  let outcome ← transfer
  let session ← get
  if outcome.isCompleted && session.settings.activate then activate
  return outcome

end Session

end Update
end FirmwareGateway
