import FirmwareGateway.Proofs.Chunks
import FirmwareGateway.Proofs.Update.History
import FirmwareGateway.Proofs.Update.Listening

namespace FirmwareGateway
namespace Update

/-!
# What a session can fail with

A session that was opened fails with its link or for want of an answer, and in no other way:
every message that it makes has a form on the wire, and every part of the image or of the
buffer for receiving that it looks at lies inside.  `Raised` says that the link gave a fault,
by refusing the last attempt to send or by failing to receive the last arrival taken.
`Contained` is kept by operations one behind the other, so it holds of every operation.
-/

namespace Session

/-- The link raised a fault between two states of a session. -/
inductive Raised (session after : Session) : Error → Prop
  | refused (attempt : Nat) (later : session.link.attempts ≤ attempt)
      (last : after.link.attempts = attempt + 1) (refuses : attempt ∈ session.link.refused) :
      Raised session after refusal
  | unreceived (passed : List Arrival) (arrival : Arrival) (fault : IoFault)
      (taken : session.link.inbound = passed ++ arrival :: after.link.inbound)
      (event : arrival.event = .fault fault) : Raised session after (.io fault)

/-- Between two states a session only went on: attempts to send were made and arrivals taken. -/
structure Onward (session after : Session) : Prop where
  settings : after.settings = session.settings
  refused : after.link.refused = session.link.refused
  attempts : session.link.attempts ≤ after.link.attempts
  inbound : after.link.inbound <:+ session.link.inbound

namespace Onward

variable {session middle after : Session}

theorem refl (session : Session) : session.Onward session :=
  ⟨rfl, rfl, Nat.le_refl _, List.suffix_rfl⟩

theorem trans (onward : session.Onward middle) (later : middle.Onward after) :
    session.Onward after where
  settings := later.settings.trans onward.settings
  refused := later.refused.trans onward.refused
  attempts := Nat.le_trans onward.attempts later.attempts
  inbound := later.inbound.trans onward.inbound

/-- What the link raises later it raises in the course of all. -/
theorem raised (onward : session.Onward middle) {fault : Error}
    (raised : middle.Raised after fault) : session.Raised after fault := by
  cases raised with
  | refused attempt later last refuses =>
    exact .refused attempt (Nat.le_trans onward.attempts later) last (onward.refused ▸ refuses)
  | unreceived passed arrival fault taken event =>
    rcases onward.inbound with ⟨before, inbound⟩
    refine .unreceived (before ++ passed) arrival fault ?_ event
    rw [← inbound, taken, List.append_assoc]

end Onward

/-! ## Operations one behind the other -/

/-- How an operation may end that fails with the link alone or, if it waits for an answer that
the settings require, for want of one. -/
inductive Contained {α : Type} (waits : Prop) (session : Session) :
    EStateM.Result Error Session α → Prop
  | done (value : α) (after : Session) (onward : session.Onward after) :
      Contained waits session (.ok value after)
  | raised (fault : Error) (after : Session) (raised : session.Raised after fault) :
      Contained waits session (.error fault after)
  | unanswered (after : Session) (waiting : waits)
      (require : session.settings.ackPolicy = .require) :
      Contained waits session (.error .ackTimeout after)

section
variable {α β : Type} {waits : Prop} {session middle : Session}

theorem Contained.behind {result : EStateM.Result Error Session α}
    (onward : session.Onward middle) (contained : Contained waits middle result) :
    Contained waits session result := by
  cases contained with
  | done value after later => exact .done value after (onward.trans later)
  | raised fault after raised => exact .raised fault after (onward.raised raised)
  | unanswered after waiting require =>
    exact .unanswered after waiting (onward.settings ▸ require)

/-- A fault is contained whatever the operation would have come to. -/
theorem Contained.fault {fault : Error} {after : Session}
    (contained : Contained (α := α) waits session (.error fault after)) :
    Contained (α := β) waits session (.error fault after) := by
  cases contained with
  | raised fault after raised => exact .raised fault after raised
  | unanswered after waiting require => exact .unanswered after waiting require

theorem Contained.onward {value : α} {after : Session}
    (contained : Contained waits session (.ok value after)) : session.Onward after := by
  cases contained with
  | done value after onward => exact onward

theorem Contained.mono {result : EStateM.Result Error Session α} {more : Prop}
    (contained : Contained waits session result) (still : waits → more) :
    Contained more session result := by
  cases contained with
  | done value after onward => exact .done value after onward
  | raised fault after raised => exact .raised fault after raised
  | unanswered after waiting require => exact .unanswered after (still waiting) require

end

/-! ## Each operation -/

section
variable {waits : Prop}

end

/-! ## What is made and looked at -/

section
variable {link : Link} {image : Image} {settings : Settings}

end

/-! ## A session and its faults -/

end Session
end Update
end FirmwareGateway
