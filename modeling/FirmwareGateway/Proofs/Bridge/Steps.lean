import FirmwareGateway.Bridge.Floor
import FirmwareGateway.Proofs.Relay.Carrying

namespace FirmwareGateway
namespace Bridge

/-!
# What can happen to a connection

A connection takes one of a few steps at an event.  Work ends in one of two ways: the
connection is idle again, or it leaves.  Leaving is the only thing that ends a
connection, and a connection that has ended stays as it is.
-/

/-- What the outcome of a relay is answered. -/
def resultOf : Relay.Outcome → Answer
  | .finished summary _ => .relayed summary
  | .failed fault => .failed fault

/-- What came behind the last pull of a relay. -/
def remainderOf : Relay.Outcome → Bytes
  | .finished _ remainder => remainder
  | .failed _ => []

/-- Whether an outcome leaves the stream in the middle of a record. -/
def breaks : Relay.Outcome → Bool
  | .finished _ _ => false
  | .failed fault => Connection.isFatal fault

namespace Connection

variable {connection : Connection}

/-- A connection whose work is done is idle again, unless the work ended it. -/
def proceed (connection : Connection) (ends : Bool) : Connection × List Effect :=
  if ends then connection.leave else ({ connection with phase := .idle }, [])

theorem settle_eq (connection : Connection) (ticket : Nat) (outcome : Relay.Outcome) :
    connection.settle ticket outcome =
      ((connection.proceed (breaks outcome)).1,
        note (remainderOf outcome) ++ [.answered ticket (resultOf outcome)] ++
          (connection.proceed (breaks outcome)).2) := by
  cases outcome with
  | finished summary remainder => exact congrArg _ (List.append_nil _).symm
  | failed fault =>
    have broken : breaks (.failed fault) = isFatal fault := rfl
    rw [proceed, broken, settle]
    cases isFatal fault <;> rfl

theorem follow_waiting (connection : Connection) (ticket : Nat) {turn : Relay.Turn}
    {session : Relay.Session} (waits : turn.stage = .waiting session) :
    connection.follow ticket turn =
      ({ connection with sink := turn.sink, phase := .relaying ticket session },
        turn.moves.map Effect.ofMove) := by
  simp only [follow, waits]

theorem follow_ended (connection : Connection) (ticket : Nat) {turn : Relay.Turn}
    {outcome : Relay.Outcome} (gone : turn.stage = .ended outcome) :
    connection.follow ticket turn =
      (({ connection with sink := turn.sink }.proceed (breaks outcome)).1,
        turn.moves.map Effect.ofMove ++ note (remainderOf outcome) ++
          [.answered ticket (resultOf outcome)] ++
          ({ connection with sink := turn.sink }.proceed (breaks outcome)).2) := by
  simp only [follow, gone, settle_eq, List.append_assoc]

/-- The steps of a connection: what an event does to it, and with what effects. -/
inductive Steps (connection : Connection) : Event → Connection × List Effect → Prop
  | refuses (submission : Submission) (gone : connection.phase = .ended) :
      Steps connection (.submit submission) (connection, [connection.refusal submission])
  | defers (submission : Submission) (alive : connection.phase ≠ .ended) :
      Steps connection (.submit submission)
        ({ connection with waiting := connection.waiting ++ [submission] }, [])
  | enters (submission : Submission) (later : List Submission)
      (first : connection.waiting = submission :: later)
      (room : connection.queue.length < connection.depth) :
      Steps connection .enter
        ({ connection with queue := connection.queue ++ [submission], waiting := later },
          if submission.job = .close then [.answered submission.ticket .closed] else [])
  | deafens : Steps connection .deaf ({ connection with sink := .broken }, [])
  | stays (event : Event) (unsubmitted : ∀ submission, event ≠ .submit submission)
      (unheard : ∀ read, event = .read read → connection.phase = .ended)
      (listening : event ≠ .deaf) : Steps connection event (connection, [])
  | notes (octet : UInt8) (octets : Bytes) (idle : connection.phase = .idle) :
      Steps connection (.read (.octets (octet :: octets)))
        (connection, [.noted (octet :: octets)])
  | loses (read : Relay.Read) (idle : connection.phase = .idle)
      (lost : read = .octets [] ∨ ∃ fault, read = .fault fault) :
      Steps connection (.read read) connection.leave
  | takes (submission : Submission) (later : List Submission) (idle : connection.phase = .idle)
      (first : connection.queue = submission :: later) :
      Steps connection .take ({ connection with queue := later }.execute submission)
  | hears (ticket : Nat) (session : Relay.Session) (read : Relay.Read)
      (relaying : connection.phase = .relaying ticket session) :
      Steps connection (.read read)
        (connection.follow ticket (session.hear connection.sink read))

/-- How writing octets can end: there are none, they are written, or the peer takes none and
the connection leaves. -/
inductive WriteEnds (connection : Connection) (ticket : Nat) (bytes : Bytes) :
    Connection × List Effect → Prop
  | nothing (none : bytes = []) :
      WriteEnds connection ticket bytes (connection, [.answered ticket .sent])
  | taken (some : bytes ≠ []) (sink : Relay.Sink) (took : connection.sink.write = .ok sink) :
      WriteEnds connection ticket bytes
        ({ connection with sink := sink }, [.wrote bytes, .answered ticket .sent])
  | refused (some : bytes ≠ []) (fault : Error) (full : connection.sink.write = .error fault) :
      WriteEnds connection ticket bytes
        (connection.leave.1, .answered ticket (.failed fault) :: connection.leave.2)

theorem write_ends (connection : Connection) (ticket : Nat) (bytes : Bytes) :
    WriteEnds connection ticket bytes (connection.write ticket bytes) := by
  cases bytes with
  | nil => exact .nothing rfl
  | cons octet octets =>
    cases wrote : connection.sink.write with
    | ok sink =>
      simp only [write, wrote]
      exact .taken (List.cons_ne_nil _ _) sink wrote
    | error fault =>
      simp only [write, wrote]
      exact .refused (List.cons_ne_nil _ _) fault wrote

theorem hasEnded_iff (connection : Connection) :
    connection.hasEnded = true ↔ connection.phase = .ended := by
  rcases connection with ⟨id, address, depth, size, sink, _ | ⟨ticket, session⟩ | _, queue, waiting⟩
  · exact ⟨nofun, nofun⟩
  · exact ⟨nofun, nofun⟩
  · exact ⟨fun _ => rfl, fun _ => rfl⟩

theorem alive_of_idle (idle : connection.phase = .idle) : connection.phase ≠ .ended := by
  intro ended
  cases idle.symm.trans ended

theorem alive_of_relaying {ticket : Nat} {session : Relay.Session}
    (relaying : connection.phase = .relaying ticket session) : connection.phase ≠ .ended := by
  intro ended
  cases relaying.symm.trans ended

theorem receive_relaying {ticket : Nat} {session : Relay.Session}
    (relaying : connection.phase = .relaying ticket session) (read : Relay.Read) :
    connection.receive read = connection.follow ticket (session.hear connection.sink read) := by
  rcases read with (_ | ⟨octet, octets⟩) | fault <;> simp only [receive, relaying] <;> rfl

theorem steps_take (connection : Connection) : Steps connection .take connection.takeUp := by
  have stays : Steps connection .take (connection, []) := .stays _ nofun nofun nofun
  cases phase : connection.phase with
  | idle =>
    cases first : connection.queue with
    | nil =>
      simp only [takeUp, phase, first]
      exact stays
    | cons submission later =>
      have taken : connection.takeUp = { connection with queue := later }.execute submission := by
        simp only [takeUp, phase, first]
      rw [taken]
      exact .takes submission later phase first
  | relaying ticket session =>
    simp only [takeUp, phase]
    exact stays
  | ended =>
    simp only [takeUp, phase]
    exact stays

theorem steps_read (connection : Connection) (read : Relay.Read) :
    Steps connection (.read read) (connection.receive read) := by
  cases phase : connection.phase with
  | ended =>
    have ignored : connection.receive read = (connection, []) := by
      simp only [receive, phase]
    rw [ignored]
    exact .stays _ nofun (fun _ _ => phase) nofun
  | idle =>
    rcases read with (_ | ⟨octet, octets⟩) | fault
    · simp only [receive, phase]
      exact .loses _ phase (Or.inl rfl)
    · simp only [receive, phase]
      exact .notes octet octets phase
    · simp only [receive, phase]
      exact .loses _ phase (Or.inr ⟨fault, rfl⟩)
  | relaying ticket session =>
    rw [receive_relaying phase]
    exact .hears ticket session read phase

theorem steps (connection : Connection) (event : Event) :
    Steps connection event (connection.step event) := by
  cases event with
  | submit submission =>
    by_cases gone : connection.hasEnded = true
    · rw [step, if_pos gone]
      exact .refuses submission (connection.hasEnded_iff.mp gone)
    · rw [step, if_neg gone]
      exact .defers submission fun ended => gone (connection.hasEnded_iff.mpr ended)
  | enter =>
    cases first : connection.waiting with
    | nil =>
      simp only [step, enter, first]
      exact .stays _ nofun nofun nofun
    | cons submission later =>
      by_cases room : connection.queue.length < connection.depth
      · simp only [step, enter, first, if_pos room]
        exact .enters submission later first room
      · simp only [step, enter, first, if_neg room]
        exact .stays _ nofun nofun nofun
  | take => exact connection.steps_take
  | read read => exact connection.steps_read read
  | deaf => exact .deafens

/-! ## Ending and leaving -/

/-- The connection is the same still, and it has ended if and only if it left. -/
structure Persists (connection : Connection) (result : Connection × List Effect) : Prop where
  id : result.1.id = connection.id
  address : result.1.address = connection.address
  left : .left ∈ result.2 ↔ result.1.phase = .ended

theorem persists_leave (connection : Connection) : connection.Persists connection.leave := by
  constructor
  case id => rfl
  case address => rfl
  case left => exact ⟨fun _ => rfl, fun _ => List.mem_append_right _ List.mem_cons_self⟩

theorem persists_proceed (connection : Connection) (ends : Bool) :
    connection.Persists (connection.proceed ends) := by
  cases ends with
  | true => exact connection.persists_leave
  | false => exact ⟨rfl, rfl, nofun, nofun⟩

/-- Effects other than leaving make no difference. -/
theorem Persists.behind {result : Connection × List Effect} (persists : connection.Persists result)
    {effects : List Effect} (stays : .left ∉ effects) :
    connection.Persists (result.1, effects ++ result.2) := by
  constructor
  case id => exact persists.id
  case address => exact persists.address
  case left =>
    rw [← persists.left, List.mem_append]
    exact ⟨fun left => left.resolve_left stays, Or.inr⟩

theorem left_not_mem_moves (moves : List Relay.Move) : .left ∉ moves.map Effect.ofMove := by
  intro left
  rcases List.mem_map.mp left with ⟨move, -, same⟩
  cases move <;> cases same

theorem left_not_mem_note (text : Bytes) : .left ∉ note text := by
  intro left
  cases List.mem_singleton.mp (List.mem_ite_nil_left.mp left).2

theorem persists_follow (connection : Connection) (ticket : Nat) (turn : Relay.Turn) :
    connection.Persists (connection.follow ticket turn) := by
  cases stage : turn.stage with
  | waiting session =>
    rw [connection.follow_waiting ticket stage]
    refine ⟨rfl, rfl, fun left => ?_, nofun⟩
    exact absurd left (left_not_mem_moves turn.moves)
  | ended outcome =>
    rw [connection.follow_ended ticket stage]
    have proceeds := persists_proceed { connection with sink := turn.sink } (breaks outcome)
    have persists : connection.Persists ({ connection with sink := turn.sink }.proceed _) :=
      ⟨proceeds.id, proceeds.address, proceeds.left⟩
    apply persists.behind
    intro left
    rcases List.mem_append.mp left with earlier | answer
    · rcases List.mem_append.mp earlier with move | noted
      · exact left_not_mem_moves turn.moves move
      · exact left_not_mem_note _ noted
    · cases List.mem_singleton.mp answer

theorem persists_write (alive : connection.phase ≠ .ended) (ticket : Nat) (bytes : Bytes) :
    connection.Persists (connection.write ticket bytes) := by
  have ongoing : ∀ {effects : List Effect} {sink : Relay.Sink}, .left ∉ effects →
      connection.Persists ({ connection with sink := sink }, effects) := by
    intro effects sink stays
    exact ⟨rfl, rfl, fun left => absurd left stays, fun gone => absurd gone alive⟩
  have ends := connection.write_ends ticket bytes
  generalize connection.write ticket bytes = result at ends ⊢
  cases ends with
  | nothing none => exact ongoing (by simp)
  | taken some sink took => exact ongoing (by simp)
  | refused some fault full =>
    have stays : .left ∉ [Effect.answered ticket (.failed fault)] := by simp
    exact connection.persists_leave.behind stays

theorem persists_execute (connection : Connection) (alive : connection.phase ≠ .ended)
    (submission : Submission) : connection.Persists (connection.execute submission) := by
  rcases submission with ⟨ticket, ⟨target, info, source⟩ | bytes | _⟩
  · exact connection.persists_follow _ _
  · exact persists_write alive _ _
  · exact connection.persists_leave

/-- An event may end a connection, and then it leaves, once. -/
theorem persists_step (alive : connection.phase ≠ .ended) (event : Event) :
    connection.Persists (connection.step event) := by
  have ongoing : ∀ {next : Connection} {effects : List Effect}, next.id = connection.id →
      next.address = connection.address → next.phase = connection.phase → .left ∉ effects →
      connection.Persists (next, effects) := by
    intro next effects id address phase stays
    refine ⟨id, address, fun left => absurd left stays, fun gone => ?_⟩
    exact absurd (phase.symm.trans gone) alive
  have steps := connection.steps event
  generalize connection.step event = result at steps ⊢
  cases steps with
  | refuses submission gone => exact absurd gone alive
  | defers submission _ => exact ongoing rfl rfl rfl (by simp)
  | enters submission later first room => exact ongoing rfl rfl rfl (by split <;> simp)
  | deafens => exact ongoing rfl rfl rfl (by simp)
  | stays event unsubmitted unheard listening => exact ongoing rfl rfl rfl (by simp)
  | notes octet octets idle => exact ongoing rfl rfl rfl (by simp)
  | loses read idle lost => exact connection.persists_leave
  | takes submission later idle first =>
    have persists := persists_execute { connection with queue := later } alive submission
    exact ⟨persists.id, persists.address, persists.left⟩
  | hears ticket session read relaying => exact connection.persists_follow ticket _

/-- A connection that has ended does nothing but refuse. -/
theorem step_of_ended (gone : connection.phase = .ended) (event : Event) :
    (connection.step event).1.id = connection.id ∧
      (connection.step event).1.address = connection.address ∧
      (connection.step event).1.phase = .ended ∧ .left ∉ (connection.step event).2 := by
  have steps := connection.steps event
  generalize connection.step event = result at steps ⊢
  cases steps with
  | refuses submission _ => exact ⟨rfl, rfl, gone, by simp [refusal]⟩
  | defers submission alive => exact absurd gone alive
  | enters submission later first room => exact ⟨rfl, rfl, gone, by split <;> simp⟩
  | deafens => exact ⟨rfl, rfl, gone, by simp⟩
  | stays event unsubmitted unheard listening => exact ⟨rfl, rfl, gone, by simp⟩
  | notes octet octets idle => exact absurd gone (alive_of_idle idle)
  | loses read idle lost => exact absurd gone (alive_of_idle idle)
  | takes submission later idle first => exact absurd gone (alive_of_idle idle)
  | hears ticket session read relaying => exact absurd gone (alive_of_relaying relaying)

theorem identity_step (connection : Connection) (event : Event) :
    (connection.step event).1.id = connection.id ∧
      (connection.step event).1.address = connection.address := by
  by_cases gone : connection.phase = .ended
  · rcases step_of_ended gone event with ⟨id, address, -, -⟩
    exact ⟨id, address⟩
  · have persists := persists_step gone event
    exact ⟨persists.id, persists.address⟩

end Connection

end Bridge
end FirmwareGateway
