import FirmwareGateway.Update.Link
import FirmwareGateway.Update.Settings
import FirmwareGateway.Wire.ChunkRequest
import FirmwareGateway.Wire.Report

namespace FirmwareGateway
namespace Update

/-!
# An update session

A session is an image on its way to a node over a link.  An operation takes a
session to a result and a session; after a failure the session still has what
happened before it.  Every command goes out in an envelope of the controller.
-/

/-- An image on its way to a node. -/
structure Session where
  link : Link
  image : Image
  settings : Settings
  chunksSent : Nat
  deriving DecidableEq, Repr

/-- An operation on a session. -/
abbrev Operation := EStateM Error Session

namespace Operation

section
variable {α β : Type} {first : Operation α} {next : α → Operation β} {session after : Session}

theorem bind_ok {value : α} (done : first session = .ok value after) :
    (first >>= next) session = next value after := by
  simp only [bind, EStateM.bind, done]

theorem bind_error {fault : Error} (failed : first session = .error fault after) :
    (first >>= next) session = .error fault after := by
  simp only [bind, EStateM.bind, failed]

theorem get_bind (next : Session → Operation β) (session : Session) :
    (get >>= next) session = next session session := rfl

end

end Operation

namespace Session

/-- How many chunks the session's image has. -/
def totalChunks (session : Session) : Nat :=
  session.image.totalChunks

/-- Opens a session, if the settings make sense and every chunk has a number. -/
def opened (link : Link) (image : Image) (settings : Settings) : Except Error Session := do
  settings.validate
  if image.totalChunks > Wire.maxReportNumber then
    throw (.firmwareTooLarge image.totalChunks)
  return ⟨link, image, settings, 0⟩

/-- The sequence number of what belongs to chunk `n`. -/
def sequenceFor (n : Nat) : UInt8 :=
  UInt8.ofNat (n + 2)

/-- Sends a command in an envelope, if the command has a form on the wire. -/
def send (command : Except Error Bytes) (sequence : UInt8) : Operation Unit := fun session =>
  match command with
  | .error fault => .error fault session
  | .ok payload =>
    match (Wire.Envelope.around payload sequence session.settings.flags).encode with
    | .error fault => .error fault session
    | .ok datagram =>
      match session.link.send datagram with
      | (.ok (), link) => .ok () { session with link := link }
      | (.error fault, link) => .error fault { session with link := link }

/-- Announces the update. -/
def requestUpdate : Operation Unit := fun session =>
  let settings := session.settings
  let command : Wire.Command :=
    .requestGet settings.vendor settings.firmware session.image.checksum settings.target
  send command.encode 1 session

/-- Makes the node use the image. -/
def activate : Operation Unit := fun session =>
  let settings := session.settings
  let command : Wire.Command :=
    .activeSet settings.vendor settings.firmware session.image.checksum settings.target
      settings.hardware
  send command.encode (sequenceFor session.totalChunks) session

/-- Asks the node for its firmware metadata. -/
def askMetadata : Operation Unit :=
  send Wire.Command.metadataGet.encode 10

/-- Asks the node for the version of its application. -/
def askVersion : Operation Unit :=
  send Wire.Command.versionGet.encode 11

/-- Waits for a datagram in which `wanted` finds something. -/
def await {α : Type} (wanted : Bytes → Option α) (timeout : Nat) : Operation (Option α) :=
  fun session =>
    match session.link.await wanted timeout with
    | (.ok found, link) => .ok found { session with link := link }
    | (.error fault, link) => .error fault { session with link := link }

/-- Waits until the node accepts the update, where the settings require it. -/
def awaitAcceptance : Operation Unit := do
  let session ← get
  match session.settings.ackPolicy with
  | .assume => pure ()
  | .require =>
    let accepted ← await (fun datagram => if Wire.isRequestReport datagram then some () else none)
      session.settings.ackTimeout
    match accepted with
    | some () => pure ()
    | none => throw .ackTimeout

/-- Waits for a request for chunks; when none comes in time, asks for nothing. -/
def awaitChunkRequest (timeout : Nat) : Operation Wire.ChunkRequest := do
  let request ← await Wire.ChunkRequest.read? timeout
  return request.getD .nothing

end Session

end Update
end FirmwareGateway
