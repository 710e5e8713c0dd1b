import FirmwareGateway.Update.Transfer

namespace FirmwareGateway
namespace Update

/-!
# How a wait ends

Someone who waits looks at arrivals in their order.  An arrival that is due by the
deadline and holds nothing wanted is passed over, and the clock moves on to it.  The
wait ends with the first arrival that holds something wanted, with the first failure
to receive, or at the deadline, when nothing more is due by then.  `WaitEnds` lists
these three ends, and `awaitWanted_ends` shows that there is no other.
-/

variable {α : Type}

namespace Arrival

/-- What is found in an arrival, as much of it as one reception holds. -/
def found? (wanted : Bytes → Option α) (arrival : Arrival) : Option α :=
  match arrival.event with
  | .datagram bytes => wanted (bytes.take receiveLimit)
  | .fault _ => none

/-- The request in an arrival, if it is one. -/
def request? (arrival : Arrival) : Option Wire.ChunkRequest :=
  arrival.found? Wire.ChunkRequest.read?

/-- An arrival that is a datagram. -/
def IsDatagram (arrival : Arrival) : Prop :=
  ∃ bytes, arrival.event = .datagram bytes

/-- An arrival that a wait passes over. -/
structure Passes (wanted : Bytes → Option α) (deadline : Nat) (arrival : Arrival) : Prop where
  inTime : arrival.due ≤ deadline
  datagram : arrival.IsDatagram
  unwanted : arrival.found? wanted = none

/-- Only a datagram holds anything. -/
theorem event_of_found? {wanted : Bytes → Option α} {arrival : Arrival} {value : α}
    (found : arrival.found? wanted = some value) :
    ∃ bytes, arrival.event = .datagram bytes ∧ wanted (bytes.take receiveLimit) = some value := by
  simp only [found?] at found
  cases event : arrival.event with
  | fault fault => simp only [event, reduceCtorEq] at found
  | datagram bytes =>
    simp only [event] at found
    exact ⟨bytes, rfl, found⟩

end Arrival

/-- The time at which the last of some arrivals was received. -/
def latest (now : Nat) (arrivals : List Arrival) : Nat :=
  arrivals.foldl (fun time arrival => max time arrival.due) now

theorem le_latest (now : Nat) (arrivals : List Arrival) : now ≤ latest now arrivals := by
  induction arrivals generalizing now with
  | nil => exact Nat.le_refl now
  | cons arrival arrivals ih => exact Nat.le_trans (Nat.le_max_left _ _) (ih _)

theorem latest_le {now deadline : Nat} {arrivals : List Arrival} (before : now ≤ deadline)
    (due : ∀ arrival ∈ arrivals, arrival.due ≤ deadline) : latest now arrivals ≤ deadline := by
  induction arrivals generalizing now with
  | nil => exact before
  | cons arrival arrivals ih =>
    rcases List.forall_mem_cons.mp due with ⟨first, others⟩
    exact ih (Nat.max_le.mpr ⟨before, first⟩) others

/-! ## Looking at one arrival -/

section
variable (wanted : Bytes → Option α) (deadline : Nat)

theorem awaitWanted_passes {arrival : Arrival} (passes : arrival.Passes wanted deadline) (now : Nat)
    (later : List Arrival) :
    awaitWanted wanted deadline now (arrival :: later) =
      awaitWanted wanted deadline (max now arrival.due) later := by
  rcases passes.datagram with ⟨bytes, event⟩
  have unwanted := passes.unwanted
  simp only [Arrival.found?, event] at unwanted
  rw [awaitWanted, if_pos passes.inTime]
  simp only [event, unwanted]

theorem awaitWanted_found {arrival : Arrival} {value : α} (inTime : arrival.due ≤ deadline)
    (found : arrival.found? wanted = some value) (now : Nat) (later : List Arrival) :
    awaitWanted wanted deadline now (arrival :: later) =
      ⟨.ok (some value), max now arrival.due, later⟩ := by
  rcases Arrival.event_of_found? found with ⟨bytes, event, finds⟩
  rw [awaitWanted, if_pos inTime]
  simp only [event, finds]

theorem awaitWanted_fault {arrival : Arrival} {fault : IoFault} (inTime : arrival.due ≤ deadline)
    (event : arrival.event = .fault fault) (now : Nat) (later : List Arrival) :
    awaitWanted wanted deadline now (arrival :: later) =
      ⟨.error (.io fault), max now arrival.due, later⟩ := by
  rw [awaitWanted, if_pos inTime]
  simp only [event]

/-- Nothing is received any more when the next arrival is due too late. -/
theorem awaitWanted_elapsed {inbound : List Arrival}
    (late : ∀ arrival ∈ inbound.head?, deadline < arrival.due) (now : Nat) :
    awaitWanted wanted deadline now inbound = ⟨.ok none, deadline, inbound⟩ := by
  cases inbound with
  | nil => rfl
  | cons arrival later =>
    have tooLate : ¬ arrival.due ≤ deadline := Nat.not_le.mpr (late arrival rfl)
    rw [awaitWanted, if_neg tooLate]

theorem awaitWanted_append {passed : List Arrival}
    (passes : ∀ arrival ∈ passed, arrival.Passes wanted deadline) (now : Nat)
    (inbound : List Arrival) :
    awaitWanted wanted deadline now (passed ++ inbound) =
      awaitWanted wanted deadline (latest now passed) inbound := by
  induction passed generalizing now with
  | nil => rfl
  | cons arrival passed ih =>
    rcases List.forall_mem_cons.mp passes with ⟨first, others⟩
    rw [List.cons_append, awaitWanted_passes wanted deadline first]
    exact ih others _

/-! ## The three ends -/

/-- How a wait that began at `now` can end, by what was to arrive. -/
inductive WaitEnds (now : Nat) : List Arrival → Awaited α → Prop
  | found (passed : List Arrival) (arrival : Arrival) (later : List Arrival) (value : α)
      (passes : ∀ arrival ∈ passed, arrival.Passes wanted deadline)
      (inTime : arrival.due ≤ deadline) (finds : arrival.found? wanted = some value) :
      WaitEnds now (passed ++ arrival :: later)
        ⟨.ok (some value), latest now (passed ++ [arrival]), later⟩
  | failed (passed : List Arrival) (arrival : Arrival) (later : List Arrival) (fault : IoFault)
      (passes : ∀ arrival ∈ passed, arrival.Passes wanted deadline)
      (inTime : arrival.due ≤ deadline) (event : arrival.event = .fault fault) :
      WaitEnds now (passed ++ arrival :: later)
        ⟨.error (.io fault), latest now (passed ++ [arrival]), later⟩
  | elapsed (passed later : List Arrival)
      (passes : ∀ arrival ∈ passed, arrival.Passes wanted deadline)
      (late : ∀ arrival ∈ later.head?, deadline < arrival.due) :
      WaitEnds now (passed ++ later) ⟨.ok none, deadline, later⟩

theorem WaitEnds.passing {now : Nat} {arrival : Arrival} {later : List Arrival}
    {awaited : Awaited α} (passes : arrival.Passes wanted deadline)
    (ends : WaitEnds wanted deadline (max now arrival.due) later awaited) :
    WaitEnds wanted deadline now (arrival :: later) awaited := by
  cases ends with
  | found passed found later value others inTime finds =>
    have both := List.forall_mem_cons.mpr ⟨passes, others⟩
    exact .found (arrival :: passed) found later value both inTime finds
  | failed passed failing later fault others inTime event =>
    have both := List.forall_mem_cons.mpr ⟨passes, others⟩
    exact .failed (arrival :: passed) failing later fault both inTime event
  | elapsed passed later others late =>
    have both := List.forall_mem_cons.mpr ⟨passes, others⟩
    exact .elapsed (arrival :: passed) later both late

theorem awaitWanted_ends (now : Nat) (inbound : List Arrival) :
    WaitEnds wanted deadline now inbound (awaitWanted wanted deadline now inbound) := by
  induction inbound generalizing now with
  | nil => exact .elapsed [] [] nofun nofun
  | cons arrival later ih =>
    by_cases inTime : arrival.due ≤ deadline
    · cases event : arrival.event with
      | fault fault =>
        rw [awaitWanted_fault wanted deadline inTime event]
        exact .failed [] arrival later fault nofun inTime event
      | datagram bytes =>
        cases finds : arrival.found? wanted with
        | some value =>
          rw [awaitWanted_found wanted deadline inTime finds]
          exact .found [] arrival later value nofun inTime finds
        | none =>
          have passes : arrival.Passes wanted deadline := ⟨inTime, ⟨bytes, event⟩, finds⟩
          rw [awaitWanted_passes wanted deadline passes]
          exact (ih (max now arrival.due)).passing wanted deadline passes
    · have late : ∀ each ∈ (arrival :: later).head?, deadline < each.due := by
        intro each same
        cases same
        exact Nat.not_le.mp inTime
      rw [awaitWanted_elapsed wanted deadline late]
      exact .elapsed [] (arrival :: later) nofun late

end

section
variable {wanted : Bytes → Option α} {deadline : Nat}

/-- What a wait finds is the first of all that there is to find. -/
theorem WaitEnds.filterMap_found? {now later : Nat} {inbound rest : List Arrival} {value : α}
    (ends : WaitEnds wanted deadline now inbound ⟨.ok (some value), later, rest⟩) :
    inbound.filterMap (·.found? wanted) = value :: rest.filterMap (·.found? wanted) := by
  cases ends with
  | found passed arrival later value passes inTime finds =>
    have unwanted : passed.filterMap (·.found? wanted) = [] :=
      List.filterMap_eq_nil_iff.mpr fun arrival member => (passes arrival member).unwanted
    rw [List.filterMap_append, unwanted, List.nil_append, List.filterMap_cons, finds]

theorem WaitEnds.fault_eq {now later : Nat} {inbound rest : List Arrival} {fault : Error}
    (ends : WaitEnds wanted deadline now inbound ⟨.error fault, later, rest⟩) :
    ∃ unreceived, fault = .io unreceived := by
  cases ends with
  | failed passed arrival later unreceived passes inTime event => exact ⟨unreceived, rfl⟩

/-- Time passes in a wait, but not beyond the deadline. -/
theorem WaitEnds.now_le {now : Nat} {inbound : List Arrival} {awaited : Awaited α}
    (ends : WaitEnds wanted deadline now inbound awaited) (opens : now ≤ deadline) :
    now ≤ awaited.now ∧ awaited.now ≤ deadline := by
  have taken : ∀ passed arrival, (∀ each ∈ passed, each.Passes wanted deadline) →
      arrival.due ≤ deadline → latest now (passed ++ [arrival]) ≤ deadline := by
    intro passed arrival passes inTime
    have others : ∀ each ∈ passed, each.due ≤ deadline :=
      fun each member => (passes each member).inTime
    have all : ∀ each ∈ passed ++ [arrival], each.due ≤ deadline :=
      List.forall_mem_append.mpr ⟨others, List.forall_mem_singleton.mpr inTime⟩
    exact latest_le opens all
  cases ends with
  | found passed arrival later value passes inTime finds =>
    exact ⟨le_latest now _, taken passed arrival passes inTime⟩
  | failed passed arrival later fault passes inTime event =>
    exact ⟨le_latest now _, taken passed arrival passes inTime⟩
  | elapsed passed later passes late => exact ⟨opens, Nat.le_refl deadline⟩

end

/-! ## Waiting in a session -/

namespace Session

/-- A session whose link has come to another time, with other arrivals to come. -/
def waited (session : Session) (now : Nat) (inbound : List Arrival) : Session :=
  { session with link := { session.link with now := now, inbound := inbound } }

theorem await_eq (wanted : Bytes → Option α) (timeout : Nat) (session : Session) :
    await wanted timeout session =
      match awaitWanted wanted (session.link.now + timeout) session.link.now
        session.link.inbound with
      | ⟨.ok found, now, inbound⟩ => .ok found (session.waited now inbound)
      | ⟨.error fault, now, inbound⟩ => .error fault (session.waited now inbound) := by
  simp only [await, Link.await]
  generalize awaitWanted wanted (session.link.now + timeout) session.link.now
    session.link.inbound = awaited
  rcases awaited with ⟨result, now, inbound⟩
  cases result with
  | ok found => rfl
  | error fault => rfl

theorem awaitChunkRequest_eq (timeout : Nat) (session : Session) :
    awaitChunkRequest timeout session =
      match awaitWanted Wire.ChunkRequest.read? (session.link.now + timeout) session.link.now
        session.link.inbound with
      | ⟨.ok found, now, inbound⟩ => .ok (found.getD .nothing) (session.waited now inbound)
      | ⟨.error fault, now, inbound⟩ => .error fault (session.waited now inbound) := by
  have awaited := await_eq Wire.ChunkRequest.read? timeout session
  generalize awaitWanted Wire.ChunkRequest.read? (session.link.now + timeout) session.link.now
    session.link.inbound = ending at awaited
  rcases ending with ⟨result, now, inbound⟩
  cases result with
  | ok found => exact Operation.bind_ok awaited
  | error fault => exact Operation.bind_error awaited

section
variable {session after : Session} {timeout : Nat}

/-- A request for something was found by the wait; it is never made up. -/
theorem waitEnds_of_request {request : Wire.ChunkRequest}
    (awaited : awaitChunkRequest timeout session = .ok request after)
    (asks : request.isNothing = false) :
    ∃ now later, after = session.waited now later ∧
      WaitEnds Wire.ChunkRequest.read? (session.link.now + timeout) session.link.now
        session.link.inbound ⟨.ok (some request), now, later⟩ := by
  rw [awaitChunkRequest_eq] at awaited
  have ends := awaitWanted_ends Wire.ChunkRequest.read? (session.link.now + timeout)
    session.link.now session.link.inbound
  generalize awaitWanted Wire.ChunkRequest.read? (session.link.now + timeout) session.link.now
    session.link.inbound = ending at awaited ends
  rcases ending with ⟨(fault | (none | found)), now, later⟩
  · cases awaited
  · cases awaited
    cases asks
  · cases awaited
    exact ⟨now, later, rfl, ends⟩

/-- The only fault of a wait is that of receiving. -/
theorem fault_of_awaitChunkRequest {fault : Error}
    (awaited : awaitChunkRequest timeout session = .error fault after) :
    ∃ unreceived, fault = .io unreceived := by
  rw [awaitChunkRequest_eq] at awaited
  have ends := awaitWanted_ends Wire.ChunkRequest.read? (session.link.now + timeout)
    session.link.now session.link.inbound
  generalize awaitWanted Wire.ChunkRequest.read? (session.link.now + timeout) session.link.now
    session.link.inbound = ending at awaited ends
  rcases ending with ⟨(unreceived | found), now, later⟩
  · cases awaited
    exact ends.fault_eq
  · cases awaited

end

theorem sessionAfter_awaitChunkRequest (timeout : Nat) (session : Session) :
    sessionAfter (awaitChunkRequest timeout session) =
      let awaited := awaitWanted Wire.ChunkRequest.read? (session.link.now + timeout)
        session.link.now session.link.inbound
      session.waited awaited.now awaited.inbound := by
  rw [awaitChunkRequest_eq]
  rcases awaitWanted Wire.ChunkRequest.read? (session.link.now + timeout) session.link.now
    session.link.inbound with ⟨fault | found, now, later⟩
  · rfl
  · rfl

/-- A request behind other datagrams is found by the wait that they are due in. -/
theorem awaitChunkRequest_of_passed {session : Session} {timeout : Nat}
    {passed later : List Arrival} {asking : Arrival} {request : Wire.ChunkRequest}
    (inbound : session.link.inbound = passed ++ asking :: later)
    (passes : ∀ arrival ∈ passed,
      arrival.Passes Wire.ChunkRequest.read? (session.link.now + timeout))
    (due : asking.due ≤ session.link.now + timeout) (asks : asking.request? = some request) :
    awaitChunkRequest timeout session =
      .ok request (session.waited (max (latest session.link.now passed) asking.due) later) := by
  rw [awaitChunkRequest_eq, inbound, awaitWanted_append _ _ passes,
    awaitWanted_found _ _ due asks]
  rfl

end Session

end Update
end FirmwareGateway
