import FirmwareGateway.Proofs.Update.Waiting
import FirmwareGateway.Proofs.Wire.Requests

namespace FirmwareGateway
namespace Update

/-!
# Listening for a request

The window of a wait is what is next to arrive, up to the first arrival that is due
behind the deadline; what is due in time behind that one is not reached.  The first
arrival in the window that asks for chunks, or is a failure to receive, decides the wait.
Those before it are passed over, and those behind it stay on the link.

Datagrams are received into one buffer, and a short one leaves behind it what the buffer
held.  `awaitInto` is the wait with that buffer.  It comes to the same whatever the buffer
holds, because only the part that was received is looked at.
-/

namespace Arrival

/-- A datagram of which the part that is received ends in the octets of a request. -/
def AsksFor (arrival : Arrival) (request : Wire.ChunkRequest) : Prop :=
  ∃ bytes lead high low, arrival.event = .datagram bytes ∧
    bytes.take receiveLimit = lead ++ [0x7a, 0x05, request.size, high, low] ∧
    request.index.toNat = high.toNat * 256 + low.toNat

/-- An arrival with which a wait for a request ends. -/
def Decides (arrival : Arrival) : Prop :=
  (∃ request, arrival.AsksFor request) ∨ ∃ fault, arrival.event = .fault fault

theorem request?_eq_some_iff {arrival : Arrival} {request : Wire.ChunkRequest} :
    arrival.request? = some request ↔ arrival.AsksFor request := by
  constructor
  · intro found
    rcases event_of_found? found with ⟨bytes, event, read⟩
    rcases Wire.ChunkRequest.read?_eq_some_iff.mp read with ⟨lead, high, low, ends, index⟩
    exact ⟨bytes, lead, high, low, event, ends, index⟩
  · rintro ⟨bytes, lead, high, low, event, ends, index⟩
    simp only [request?, found?, event]
    exact Wire.ChunkRequest.read?_eq_some_iff.mpr ⟨lead, high, low, ends, index⟩

/-- What decides nothing is passed over while it is due in time. -/
theorem passes_of_not_decides {arrival : Arrival} {deadline : Nat}
    (inTime : arrival.due ≤ deadline) (undecided : ¬ arrival.Decides) :
    arrival.Passes Wire.ChunkRequest.read? deadline where
  inTime := inTime
  datagram := by
    cases event : arrival.event with
    | datagram bytes => exact ⟨bytes, event⟩
    | fault fault => exact absurd (Or.inr ⟨fault, event⟩) undecided
  unwanted := by
    cases found : arrival.request? with
    | none => exact found
    | some request => exact absurd (Or.inl ⟨request, request?_eq_some_iff.mp found⟩) undecided

end Arrival

/-! ## Receiving into a buffer -/

/-- A buffer behind the reception of a datagram, and how much of the buffer that is.  The
datagram is cut to the buffer, and what it does not fill stays as it was. -/
def receiveInto (buffer bytes : Bytes) : Bytes × Nat :=
  (bytes.take buffer.length ++ buffer.drop bytes.length, min buffer.length bytes.length)

theorem take_receiveInto (buffer bytes : Bytes) :
    (receiveInto buffer bytes).1.take (receiveInto buffer bytes).2 = bytes.take buffer.length := by
  apply List.take_left'
  exact List.length_take

theorem length_receiveInto (buffer bytes : Bytes) :
    (receiveInto buffer bytes).1.length = buffer.length := by
  rw [receiveInto, List.length_append, List.length_take, List.length_drop]
  omega

/-- A wait that receives every datagram into one buffer and looks at the part of the
buffer that was received. -/
def awaitInto {α : Type} (wanted : Bytes → Option α) (deadline : Nat) :
    Bytes → Nat → List Arrival → Awaited α
  | _, _, [] => ⟨.ok none, deadline, []⟩
  | buffer, now, arrival :: later =>
    if arrival.due ≤ deadline then
      let now := max now arrival.due
      match arrival.event with
      | .fault fault => ⟨.error (.io fault), now, later⟩
      | .datagram bytes =>
        let received := receiveInto buffer bytes
        match wanted (received.1.take received.2) with
        | some found => ⟨.ok (some found), now, later⟩
        | none => awaitInto wanted deadline received.1 now later
    else ⟨.ok none, deadline, arrival :: later⟩

theorem awaitInto_eq {α : Type} (wanted : Bytes → Option α) (deadline : Nat) {buffer : Bytes}
    (whole : buffer.length = receiveLimit) (now : Nat) (inbound : List Arrival) :
    awaitInto wanted deadline buffer now inbound = awaitWanted wanted deadline now inbound := by
  induction inbound generalizing buffer now with
  | nil => rfl
  | cons arrival later ih =>
    rw [awaitInto, awaitWanted]
    by_cases inTime : arrival.due ≤ deadline
    · rw [if_pos inTime, if_pos inTime]
      cases arrival.event with
      | fault fault => rfl
      | datagram bytes =>
        have next : (receiveInto buffer bytes).1.length = receiveLimit :=
          (length_receiveInto buffer bytes).trans whole
        simp only [take_receiveInto, whole]
        cases wanted (bytes.take receiveLimit) with
        | some found => rfl
        | none => exact ih next (max now arrival.due)
    · rw [if_neg inTime, if_neg inTime]

namespace Session

/-- Waits for a request for chunks with a buffer for what is received. -/
def awaitChunkRequestInto (buffer : Bytes) (timeout : Nat) : Operation Wire.ChunkRequest :=
  fun session =>
    match awaitInto Wire.ChunkRequest.read? (session.link.now + timeout) buffer session.link.now
      session.link.inbound with
    | ⟨.ok found, now, inbound⟩ => .ok (found.getD .nothing) (session.waited now inbound)
    | ⟨.error fault, now, inbound⟩ => .error fault (session.waited now inbound)

theorem awaitChunkRequestInto_eq {buffer : Bytes} (whole : buffer.length = receiveLimit)
    (timeout : Nat) (session : Session) :
    awaitChunkRequestInto buffer timeout session = awaitChunkRequest timeout session := by
  rw [awaitChunkRequest_eq, ← awaitInto_eq Wire.ChunkRequest.read? _ whole]
  rfl

/-! ## The window -/

/-- What is next to arrive, as far as it is due within a timeout. -/
def window (session : Session) (timeout : Nat) : List Arrival :=
  session.link.inbound.takeWhile fun arrival => arrival.due ≤ session.link.now + timeout

section
variable {session : Session} {timeout : Nat}

theorem window_inTime {arrival : Arrival} (member : arrival ∈ session.window timeout) :
    arrival.due ≤ session.link.now + timeout :=
  of_decide_eq_true (List.all_eq_true.mp List.all_takeWhile arrival member)

/-- Behind the window comes an arrival that is due too late, if any. -/
theorem exists_behind_window (session : Session) (timeout : Nat) :
    ∃ later, session.link.inbound = session.window timeout ++ later ∧
      ∀ arrival ∈ later.head?, session.link.now + timeout < arrival.due := by
  refine ⟨_, List.takeWhile_append_dropWhile.symm, ?_⟩
  intro arrival next
  have late := List.head?_dropWhile_not
    (fun arrival : Arrival => decide (arrival.due ≤ session.link.now + timeout))
    session.link.inbound
  rw [Option.mem_def.mp next] at late
  exact Nat.not_le.mp (of_decide_eq_false late)

/-- What is due in time, up to what is not, is the window. -/
theorem window_eq {passed later : List Arrival}
    (inbound : session.link.inbound = passed ++ later)
    (inTime : ∀ arrival ∈ passed, arrival.due ≤ session.link.now + timeout)
    (late : ∀ arrival ∈ later.head?, session.link.now + timeout < arrival.due) :
    session.window timeout = passed := by
  have all : ∀ arrival ∈ passed,
      decide (arrival.due ≤ session.link.now + timeout) = true :=
    fun arrival member => decide_eq_true (inTime arrival member)
  rw [window, inbound, List.takeWhile_append_of_pos all]
  cases later with
  | nil => exact List.append_nil passed
  | cons arrival later =>
    have tooLate : ¬ arrival.due ≤ session.link.now + timeout := Nat.not_le.mpr (late arrival rfl)
    rw [List.takeWhile_cons_of_neg (by simpa using tooLate), List.append_nil]

theorem passes_of_window {passed rest : List Arrival}
    (window : session.window timeout = passed ++ rest)
    (undecided : ∀ arrival ∈ passed, ¬ arrival.Decides) :
    ∀ arrival ∈ passed,
      arrival.Passes Wire.ChunkRequest.read? (session.link.now + timeout) := by
  intro arrival member
  have inside : arrival ∈ session.window timeout := window ▸ List.mem_append_left rest member
  exact Arrival.passes_of_not_decides (window_inTime inside) (undecided arrival member)

/-- What is left on the link behind some of the window. -/
theorem exists_left_of_window {passed rest : List Arrival} {first : Arrival}
    (window : session.window timeout = passed ++ first :: rest) :
    ∃ later, session.link.inbound = passed ++ first :: later ∧
      session.link.inbound.drop (passed.length + 1) = later := by
  rcases session.exists_behind_window timeout with ⟨behind, inbound, -⟩
  rw [window, List.append_assoc] at inbound
  refine ⟨rest ++ behind, inbound, ?_⟩
  rw [inbound, ← List.drop_drop, List.drop_left]
  rfl

end

/-! ## What a wait comes to -/

/-- The first arrival in the window that decides anything decides the wait.  A request is
the result, and a failure to receive is the fault; the arrivals up to it are taken, and
the time is that of the latest of them.  When nothing in the window decides, all of it is
taken, the wait lasts to its deadline, and nothing is asked for.  In every case nothing is
sent or counted, and it does not matter what the buffer for receiving held. -/
theorem awaitChunkRequest_of_window (session : Session) (timeout : Nat) :
    (∀ passed first rest, session.window timeout = passed ++ first :: rest →
      (∀ arrival ∈ passed, ¬ arrival.Decides) →
      (∀ request, first.AsksFor request →
        awaitChunkRequest timeout session =
          .ok request (session.waited (latest session.link.now (passed ++ [first]))
            (session.link.inbound.drop (passed.length + 1)))) ∧
      ∀ fault, first.event = .fault fault →
        awaitChunkRequest timeout session =
          .error (.io fault) (session.waited (latest session.link.now (passed ++ [first]))
            (session.link.inbound.drop (passed.length + 1)))) ∧
    ((∀ arrival ∈ session.window timeout, ¬ arrival.Decides) →
      awaitChunkRequest timeout session =
        .ok ⟨0, 0⟩ (session.waited (session.link.now + timeout)
          (session.link.inbound.drop (session.window timeout).length))) ∧
    (∃ now inbound, sessionAfter (awaitChunkRequest timeout session) =
      session.waited now inbound) ∧
    ∀ buffer : Bytes, buffer.length = receiveLimit →
      awaitChunkRequestInto buffer timeout session = awaitChunkRequest timeout session := by
  refine ⟨?_, ?_, ?_, ?_⟩
  · intro passed first rest window undecided
    have passes := passes_of_window window undecided
    have due : first.due ≤ session.link.now + timeout := by
      apply window_inTime
      rw [window]
      exact List.mem_append_right passed List.mem_cons_self
    have last : latest session.link.now (passed ++ [first]) =
        max (latest session.link.now passed) first.due := List.foldl_append
    rcases exists_left_of_window window with ⟨later, inbound, left⟩
    rw [left, last]
    constructor
    · intro request asks
      exact awaitChunkRequest_of_passed inbound passes due (Arrival.request?_eq_some_iff.mpr asks)
    · intro fault event
      rw [awaitChunkRequest_eq, inbound, awaitWanted_append _ _ passes,
        awaitWanted_fault _ _ due event]
  · intro undecided
    have passes := passes_of_window (List.append_nil _).symm undecided
    rcases session.exists_behind_window timeout with ⟨later, inbound, late⟩
    have left : session.link.inbound.drop (session.window timeout).length = later := by
      rw [inbound, List.drop_left]
    rw [left, awaitChunkRequest_eq, inbound, awaitWanted_append _ _ passes,
      awaitWanted_elapsed _ _ late]
    rfl
  · rw [awaitChunkRequest_eq]
    rcases awaitWanted Wire.ChunkRequest.read? (session.link.now + timeout) session.link.now
      session.link.inbound with ⟨fault | found, now, rest⟩
    · exact ⟨_, _, rfl⟩
    · exact ⟨_, _, rfl⟩
  · intro buffer whole
    exact awaitChunkRequestInto_eq whole timeout session

/-- A session whose deadline is 40, with another datagram due at that time, a request that
was due before it, and one that is due too late. -/
def askedAtDeadline : Session where
  link := .opened
    [⟨40, .datagram [0x7a, 0x05, 0x01, 0x00]⟩,
     ⟨10, .datagram [0x23, 0x02, 0x7a, 0x05, 0x02, 0x01, 0x00]⟩,
     ⟨41, .datagram [0x7a, 0x05, 0x01, 0x00, 0x01]⟩] []
  image := ⟨[0x2a]⟩
  settings := {}
  chunksSent := 0

theorem awaitChunkRequest_of_window_deadline :
    awaitChunkRequest 40 askedAtDeadline =
        .ok ⟨256, 2⟩ (askedAtDeadline.waited 40 (askedAtDeadline.link.inbound.drop 2)) ∧
      awaitChunkRequestInto (List.replicate 1024 0x7a) 40 askedAtDeadline =
        .ok ⟨256, 2⟩ (askedAtDeadline.waited 40 (askedAtDeadline.link.inbound.drop 2)) := by
  rcases awaitChunkRequest_of_window askedAtDeadline 40 with ⟨decided, -, -, same⟩
  have undecided : ∀ arrival ∈ [(⟨40, .datagram [0x7a, 0x05, 0x01, 0x00]⟩ : Arrival)],
      ¬ arrival.Decides := by
    intro arrival member
    rw [List.mem_singleton.mp member]
    rintro (⟨request, asks⟩ | ⟨fault, event⟩)
    · cases Arrival.request?_eq_some_iff.mpr asks
    · cases event
  have asks : Arrival.AsksFor ⟨10, .datagram [0x23, 0x02, 0x7a, 0x05, 0x02, 0x01, 0x00]⟩ ⟨256, 2⟩ :=
    ⟨_, [0x23, 0x02], 0x01, 0x00, rfl, rfl, rfl⟩
  have found := (decided _ _ _ rfl undecided).1 _ asks
  exact ⟨found, (same (List.replicate 1024 0x7a) List.length_replicate).trans found⟩

end Session

end Update
end FirmwareGateway
