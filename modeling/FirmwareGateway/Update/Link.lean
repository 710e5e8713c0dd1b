import FirmwareGateway.Error

namespace FirmwareGateway
namespace Update

/-!
# The link to a node

A link carries datagrams both ways and knows the time in milliseconds.  What is
going to arrive, and when, is fixed; time passes only while something is waited
for, and then exactly up to it.  Arrivals are received in their order: one that is
due later than now is waited for, one that was due before is received at once.

Waiting has a deadline.  What is due at the deadline is still received, and what
is due after it stays on the link.
-/

/-- What a link brings: a datagram, or a failure to receive. -/
inductive Event
  | datagram (bytes : Bytes)
  | fault (fault : IoFault)
  deriving DecidableEq, Repr

/-- An event and the time from which it can be received. -/
structure Arrival where
  due : Nat
  event : Event
  deriving DecidableEq, Repr

/-- A datagram and the time at which it was sent. -/
structure Transmission where
  time : Nat
  datagram : Bytes
  deriving DecidableEq, Repr

/-- A link: the time, what is still to arrive, how often sending was tried and
which of those attempts are refused, and what was sent, in order. -/
structure Link where
  now : Nat
  inbound : List Arrival
  attempts : Nat
  refused : List Nat
  sent : Array Transmission
  deriving DecidableEq, Repr

/-- The octets that one reception can hold; what is longer is cut. -/
def receiveLimit : Nat := 1024

/-- What waiting came to: what was found or that nothing was, the time, and what
is still to arrive. -/
structure Awaited (α : Type) where
  result : Except Error (Option α)
  now : Nat
  inbound : List Arrival

/-- Receives arrivals up to the deadline until `wanted` finds something in a
datagram or receiving fails. -/
def awaitWanted {α : Type} (wanted : Bytes → Option α) (deadline : Nat) :
    Nat → List Arrival → Awaited α
  | _, [] => ⟨.ok none, deadline, []⟩
  | now, arrival :: later =>
    if arrival.due ≤ deadline then
      let now := max now arrival.due
      match arrival.event with
      | .fault fault => ⟨.error (.io fault), now, later⟩
      | .datagram bytes =>
        match wanted (bytes.take receiveLimit) with
        | some found => ⟨.ok (some found), now, later⟩
        | none => awaitWanted wanted deadline now later
    else ⟨.ok none, deadline, arrival :: later⟩

/-- Finding something takes at least one arrival. -/
theorem awaitWanted_shorter {α : Type} (wanted : Bytes → Option α) (deadline now : Nat)
    (inbound : List Arrival) (found : α)
    (h : (awaitWanted wanted deadline now inbound).result = .ok (some found)) :
    (awaitWanted wanted deadline now inbound).inbound.length < inbound.length := by
  fun_induction awaitWanted wanted deadline now inbound with
  | case1 => simp at h
  | case2 now arrival later inTime latest fault received => simp at h
  | case3 now arrival later inTime latest bytes received other seen => simp
  | case4 now arrival later inTime latest bytes received unseen ih =>
    have shorter := ih h
    simp only [List.length_cons]
    omega
  | case5 now arrival later tooLate => simp at h

namespace Link

/-- A link at time zero. -/
def opened (inbound : List Arrival) (refused : List Nat) : Link :=
  ⟨0, inbound, 0, refused, #[]⟩

/-- Tries to send a datagram. -/
def send (link : Link) (datagram : Bytes) : Except Error Unit × Link :=
  if link.refused.contains link.attempts then
    (.error (.io (.other "send failed")), { link with attempts := link.attempts + 1 })
  else
    (.ok (), { link with
      attempts := link.attempts + 1
      sent := link.sent.push ⟨link.now, datagram⟩ })

/-- Whether the link refuses the next attempt to send. -/
def Refuses (link : Link) : Prop :=
  link.attempts ∈ link.refused

/-- The link after an attempt that was refused. -/
def refusing (link : Link) : Link :=
  { link with attempts := link.attempts + 1 }

/-- The link after an attempt that was not refused. -/
def sending (link : Link) (datagram : Bytes) : Link :=
  { link with
    attempts := link.attempts + 1
    sent := link.sent.push ⟨link.now, datagram⟩ }

theorem send_refused {link : Link} (refuses : link.Refuses) (datagram : Bytes) :
    link.send datagram = (.error (.io (.other "send failed")), link.refusing) := by
  rw [send, if_pos (List.contains_iff_mem.mpr refuses)]
  rfl

theorem send_taken {link : Link} (takes : ¬ link.Refuses) (datagram : Bytes) :
    link.send datagram = (.ok (), link.sending datagram) := by
  rw [send, if_neg (fun refuses => takes (List.contains_iff_mem.mp refuses))]
  rfl

/-- Lets time pass. -/
def wait (link : Link) (interval : Nat) : Link :=
  { link with now := link.now + interval }

/-- Waits for a datagram in which `wanted` finds something, for at most `timeout`. -/
def await {α : Type} (link : Link) (wanted : Bytes → Option α) (timeout : Nat) :
    Except Error (Option α) × Link :=
  let awaited := awaitWanted wanted (link.now + timeout) link.now link.inbound
  (awaited.result, { link with now := awaited.now, inbound := awaited.inbound })

end Link

end Update
end FirmwareGateway
