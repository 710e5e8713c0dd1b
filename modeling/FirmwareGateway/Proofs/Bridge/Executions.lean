import FirmwareGateway.Proofs.Bridge.Steps

namespace FirmwareGateway
namespace Bridge

/-!
# Jobs on their own

What a job does when it has the stream to itself depends on the sink that it finds and,
for a relay, on what is read meanwhile: a relay is a whole session over these reads.
A connection does the same, but a relay of its own is cut into one piece for each read.
`Runs` is a relay that is not over, and `Finishes` says that work came to its end the
way it does on its own.
-/

/-- A job that was taken up, the sink it found and what was read for it. -/
structure Execution where
  submission : Submission
  sink : Relay.Sink
  reads : List Relay.Read

namespace Execution

/-- What a job writes, write by write. -/
def output (execution : Execution) : List Bytes :=
  match execution.submission.job with
  | .relay target info source =>
    Relay.writes (Relay.run target info source execution.sink execution.reads).moves
  | .send bytes =>
    if bytes.isEmpty then []
    else
      match execution.sink.write with
      | .ok _ => [bytes]
      | .error _ => []
  | .close => []

/-- What a job comes to.  Closing is answered when it enters the queue. -/
def answer? (execution : Execution) : Option Answer :=
  match execution.submission.job with
  | .relay target info source =>
    some (resultOf (Relay.run target info source execution.sink execution.reads).outcome)
  | .send bytes =>
    if bytes.isEmpty then some .sent
    else
      match execution.sink.write with
      | .ok _ => some .sent
      | .error fault => some (.failed fault)
  | .close => none

/-- Whether a job ends the connection: closing does, data that cannot be written, and a
relay that fails in the middle of its session. -/
def ends (execution : Execution) : Bool :=
  match execution.submission.job with
  | .relay target info source =>
    breaks (Relay.run target info source execution.sink execution.reads).outcome
  | .send bytes =>
    if bytes.isEmpty then false
    else
      match execution.sink.write with
      | .ok _ => false
      | .error _ => true
  | .close => true

/-- The job is done: a relay is over with the last of its reads, and other jobs read
nothing. -/
def Over (execution : Execution) : Prop :=
  match execution.submission.job with
  | .relay target info source => ∀ later,
    (Relay.run target info source execution.sink (execution.reads ++ later)).unread = later
  | _ => execution.reads = []

/-- The job is not done: it is a relay that takes whatever is read next. -/
def Underway (execution : Execution) : Prop :=
  match execution.submission.job with
  | .relay target info source => ∀ read,
    (Relay.run target info source execution.sink (execution.reads ++ [read])).unread = []
  | _ => False

end Execution

/-- What a connection did: it carried out a job, or it read something between jobs. -/
inductive Act
  | carried (execution : Execution)
  | heard (read : Relay.Read)

namespace Act

/-- The job, if there was one. -/
def execution? : Act → Option Execution
  | .carried execution => some execution
  | .heard _ => none

/-- What was written, write by write. -/
def output : Act → List Bytes
  | .carried execution => execution.output
  | .heard _ => []

/-- The answers that were given, with their tickets. -/
def answers : Act → List (Nat × Answer)
  | .carried execution =>
    execution.answer?.toList.map fun answer => (execution.submission.ticket, answer)
  | .heard _ => []

/-- What was read. -/
def reads : Act → List Relay.Read
  | .carried execution => execution.reads
  | .heard read => [read]

/-- Whether the connection ends with it: the end of the stream and a failure to read
end it as some jobs do. -/
def ends : Act → Bool
  | .carried execution => execution.ends
  | .heard (.octets octets) => octets.isEmpty
  | .heard (.fault _) => true

/-- A job that was carried out is done. -/
def Over : Act → Prop
  | .carried execution => execution.Over
  | .heard _ => True

theorem output_eq (act : Act) :
    act.execution?.toList.flatMap Execution.output = act.output := by
  cases act with
  | carried execution => exact List.append_nil _
  | heard read => rfl

end Act

/-! ## Effects seen from outside -/

/-- What some effects wrote, write by write. -/
def outputOf (effects : List Effect) : List Bytes :=
  effects.filterMap fun
    | .wrote bytes => some bytes
    | _ => none

/-- The results and refusals among some effects, with their tickets. -/
def answersOf (effects : List Effect) : List (Nat × Answer) :=
  effects.filterMap fun
    | .answered _ .closed => none
    | .answered ticket answer => some (ticket, answer)
    | _ => none

/-- The tickets of the jobs that some effects accepted for closing. -/
def closingsOf (effects : List Effect) : List Nat :=
  effects.filterMap fun
    | .answered ticket .closed => some ticket
    | _ => none

theorem outputOf_append (first second : List Effect) :
    outputOf (first ++ second) = outputOf first ++ outputOf second :=
  List.filterMap_append

theorem answersOf_append (first second : List Effect) :
    answersOf (first ++ second) = answersOf first ++ answersOf second :=
  List.filterMap_append

theorem closingsOf_append (first second : List Effect) :
    closingsOf (first ++ second) = closingsOf first ++ closingsOf second :=
  List.filterMap_append

theorem outputOf_moves (moves : List Relay.Move) :
    outputOf (moves.map Effect.ofMove) = Relay.writes moves := by
  induction moves with
  | nil => rfl
  | cons move moves ih =>
    cases move with
    | pulled pull => exact ih
    | wrote bytes => exact congrArg (bytes :: ·) ih

/-- Effects among which nothing is answered. -/
def Unanswering (effects : List Effect) : Prop :=
  ∀ ticket answer, .answered ticket answer ∉ effects

theorem Unanswering.answersOf_eq {effects : List Effect} (unanswering : Unanswering effects) :
    answersOf effects = [] := by
  apply List.filterMap_eq_nil_iff.mpr
  intro effect member
  cases effect with
  | answered ticket answer => exact absurd member (unanswering ticket answer)
  | _ => rfl

theorem Unanswering.closingsOf_eq {effects : List Effect} (unanswering : Unanswering effects) :
    closingsOf effects = [] := by
  apply List.filterMap_eq_nil_iff.mpr
  intro effect member
  cases effect with
  | answered ticket answer => exact absurd member (unanswering ticket answer)
  | _ => rfl

theorem unanswering_moves (moves : List Relay.Move) :
    Unanswering (moves.map Effect.ofMove) := by
  intro ticket answer member
  rcases List.mem_map.mp member with ⟨move, -, same⟩
  cases move <;> cases same

theorem unanswering_note (text : Bytes) : Unanswering (note text) := by
  intro ticket answer member
  cases List.mem_singleton.mp (List.mem_ite_nil_left.mp member).2

theorem outputOf_note (text : Bytes) : outputOf (note text) = [] := by
  rw [note]
  split <;> rfl

/-! ## Relays in pieces -/

namespace Execution

/-- A relay that is not over: it has come to the given session, and the given sink is
what is left of the sink that it found. -/
def Runs (execution : Execution) (session : Relay.Session) (sink : Relay.Sink) : Prop :=
  ∃ target info source moves, execution.submission.job = .relay target info source ∧
    Relay.Underway target info source execution.reads moves session ∧
    execution.sink = sink.ahead (Relay.writes moves).length

/-- The execution with one more read for it. -/
def heard (execution : Execution) (read : Relay.Read) : Execution :=
  { execution with reads := execution.reads ++ [read] }

section
variable {execution : Execution} {target : Relay.Target} {info : Relay.FileInfo}
  {source : Relay.Source}

theorem output_relay (execution : Execution)
    (job : execution.submission.job = .relay target info source) :
    execution.output =
      Relay.writes (Relay.run target info source execution.sink execution.reads).moves := by
  simp only [output, job]

theorem output_underway (execution : Execution)
    (job : execution.submission.job = .relay target info source)
    {moves : List Relay.Move} {session : Relay.Session}
    (underway : Relay.Underway target info source execution.reads moves session)
    {sink : Relay.Sink} (found : execution.sink = sink.ahead (Relay.writes moves).length) :
    execution.output = Relay.writes moves := by
  rw [execution.output_relay job, found, underway.moves_eq]

/-- A relay that is over whatever is read later. -/
structure Came (execution : Execution) (moves : List Relay.Move) (outcome : Relay.Outcome) :
    Prop where
  settled : execution.Over
  output : execution.output = Relay.writes moves
  answer : execution.answer? = some (resultOf outcome)
  ends : execution.ends = breaks outcome

theorem came_of_run (execution : Execution)
    (job : execution.submission.job = .relay target info source)
    {moves : List Relay.Move} {outcome : Relay.Outcome}
    (ran : ∀ later, Relay.run target info source execution.sink (execution.reads ++ later) =
      ⟨moves, outcome, later⟩) : execution.Came moves outcome := by
  have whole := ran []
  rw [List.append_nil] at whole
  constructor
  case settled =>
    simp only [Over, job]
    intro later
    rw [ran]
  case output => rw [execution.output_relay job, whole]
  case answer => simp only [answer?, job, whole]
  case ends => simp only [Execution.ends, job, whole]

theorem Runs.underway {session : Relay.Session} {sink : Relay.Sink}
    (runs : execution.Runs session sink) : execution.Underway := by
  rcases runs with ⟨target, info, source, moves, job, underway, found⟩
  simp only [Underway, job, found]
  exact underway.unread sink

theorem Runs.found {session : Relay.Session} {sink : Relay.Sink}
    (runs : execution.Runs session sink) :
    execution.sink = sink.ahead execution.output.length := by
  rcases runs with ⟨target, info, source, moves, job, underway, found⟩
  rw [execution.output_underway job underway found]
  exact found

theorem Runs.hear {session next : Relay.Session} {sink : Relay.Sink} {read : Relay.Read}
    (runs : execution.Runs session sink)
    (waits : (session.hear sink read).stage = .waiting next) :
    (execution.heard read).Runs next (session.hear sink read).sink ∧
      (execution.heard read).output =
        execution.output ++ Relay.writes (session.hear sink read).moves := by
  rcases runs with ⟨target, info, source, moves, job, underway, found⟩
  have later := underway.hear waits
  have left : (execution.heard read).sink = (session.hear sink read).sink.ahead
      (Relay.writes (moves ++ (session.hear sink read).moves)).length := by
    have spent : sink = (session.hear sink read).sink.ahead
        (Relay.writes (session.hear sink read).moves).length := session.hear_spends sink read
    rw [Relay.writes_append, List.length_append, Nat.add_comm, ← Relay.Sink.ahead_ahead, ← spent]
    exact found
  refine ⟨⟨target, info, source, _, job, later, left⟩, ?_⟩
  rw [(execution.heard read).output_underway job later left,
    execution.output_underway job underway found, Relay.writes_append]

theorem Runs.hear_ended {session : Relay.Session} {sink : Relay.Sink} {read : Relay.Read}
    {outcome : Relay.Outcome} (runs : execution.Runs session sink)
    (stopped : (session.hear sink read).stage = .ended outcome) :
    ∃ moves, (execution.heard read).Came moves outcome ∧
      Relay.writes moves = execution.output ++ Relay.writes (session.hear sink read).moves := by
  rcases runs with ⟨target, info, source, moves, job, underway, found⟩
  refine ⟨moves ++ (session.hear sink read).moves,
    (execution.heard read).came_of_run job ?_, ?_⟩
  · intro later
    change Relay.run target info source execution.sink _ = _
    rw [found]
    exact underway.hear_ended stopped later
  · rw [Relay.writes_append, execution.output_underway job underway found]

/-- The execution as it would be with a sink that takes only what it wrote already. -/
def deafened (execution : Execution) : Execution :=
  { execution with sink := Relay.Sink.broken.ahead execution.output.length }

theorem Runs.deafened {session : Relay.Session} {sink : Relay.Sink}
    (runs : execution.Runs session sink) :
    execution.deafened.Runs session .broken ∧ execution.deafened.output = execution.output := by
  rcases runs with ⟨target, info, source, moves, job, underway, found⟩
  have output := execution.output_underway job underway found
  have left : execution.deafened.sink =
      Relay.Sink.broken.ahead (Relay.writes moves).length := by
    rw [← output]
    rfl
  refine ⟨⟨target, info, source, moves, job, underway, left⟩, ?_⟩
  rw [execution.deafened.output_underway job underway left, output]

end

end Execution

/-! ## Work that ends and work that goes on -/

/-- An act came to its end, apart from what it had written earlier. -/
structure Finishes (connection : Connection) (act : Act) (earlier : List Bytes)
    (result : Connection × List Effect) : Prop where
  settled : act.Over
  does : ∃ (sink : Relay.Sink) (done : List Effect),
    result = (({ connection with sink := sink }.proceed act.ends).1,
      done ++ ({ connection with sink := sink }.proceed act.ends).2) ∧
    act.output = earlier ++ outputOf done ∧ answersOf done = act.answers ∧
    closingsOf done = [] ∧ connection.sink = sink.ahead (outputOf done).length

/-- A relay goes on, apart from what it had written earlier. -/
structure Continues (connection : Connection) (execution : Execution) (earlier : List Bytes)
    (result : Connection × List Effect) : Prop where
  does : ∃ (sink : Relay.Sink) (session : Relay.Session) (moves : List Relay.Move),
    result = ({ connection with
        sink := sink, phase := .relaying execution.submission.ticket session },
      moves.map Effect.ofMove) ∧
    execution.Runs session sink ∧ execution.output = earlier ++ Relay.writes moves ∧
    connection.sink = sink.ahead (Relay.writes moves).length

namespace Connection

variable {connection : Connection}

theorem finishes_follow (connection : Connection) {execution : Execution} {turn : Relay.Turn}
    {outcome : Relay.Outcome} {moves : List Relay.Move} {earlier : List Bytes}
    (came : execution.Came moves outcome) (stopped : turn.stage = .ended outcome)
    (spends : turn.Spends connection.sink)
    (wrote : Relay.writes moves = earlier ++ Relay.writes turn.moves) :
    Finishes connection (.carried execution) earlier
      (connection.follow execution.submission.ticket turn) := by
  have output : outputOf (turn.moves.map Effect.ofMove ++ note (remainderOf outcome) ++
      [.answered execution.submission.ticket (resultOf outcome)]) = Relay.writes turn.moves := by
    rw [outputOf_append, outputOf_append, outputOf_moves, outputOf_note, List.append_nil]
    exact List.append_nil _
  have result : answersOf [.answered execution.submission.ticket (resultOf outcome)] =
      (Act.carried execution).answers := by
    rw [Act.answers, came.answer]
    cases outcome <;> rfl
  have unclosing :
      closingsOf [.answered execution.submission.ticket (resultOf outcome)] = [] := by
    cases outcome <;> rfl
  refine ⟨came.settled, turn.sink, turn.moves.map Effect.ofMove ++ note (remainderOf outcome) ++
    [.answered execution.submission.ticket (resultOf outcome)], ?_, ?_, ?_, ?_, ?_⟩
  · rw [connection.follow_ended _ stopped, Act.ends, came.ends]
  · rw [output, ← wrote]
    exact came.output
  · rw [answersOf_append, answersOf_append, (unanswering_moves _).answersOf_eq,
      (unanswering_note _).answersOf_eq]
    exact result
  · rw [closingsOf_append, closingsOf_append, (unanswering_moves _).closingsOf_eq,
      (unanswering_note _).closingsOf_eq]
    exact unclosing
  · rw [output]
    exact spends

theorem proceed_idle (connection : Connection) (idle : connection.phase = .idle) :
    connection.proceed false = (connection, []) := by
  rw [proceed, ← idle]
  rfl

theorem finishes_write (connection : Connection) (idle : connection.phase = .idle)
    (ticket : Nat) (bytes : Bytes) :
    Finishes connection (.carried ⟨⟨ticket, .send bytes⟩, connection.sink, []⟩) []
      (connection.write ticket bytes) := by
  cases empty : bytes.isEmpty with
  | true =>
    refine ⟨rfl, connection.sink, [.answered ticket .sent], ?_, ?_, ?_, rfl,
      (Relay.Sink.ahead_zero _).symm⟩
    · simp only [write, Act.ends, Execution.ends, empty, if_true, connection.proceed_idle idle]
      rfl
    · simp only [Act.output, Execution.output, empty, if_true]
      rfl
    · simp only [Act.answers, Execution.answer?, empty, if_true]
      rfl
  | false =>
    rcases connection.sink.full_or_ahead with ⟨fault, full⟩ | ⟨later, spent⟩
    · have refused : connection.sink.write = .error (.io fault) := by rw [full]; rfl
      refine ⟨rfl, connection.sink, [.answered ticket (.failed (.io fault))], ?_, ?_, ?_, rfl,
        (Relay.Sink.ahead_zero _).symm⟩
      · simp only [write, Act.ends, Execution.ends, empty, refused, proceed]
        rfl
      · simp only [Act.output, Execution.output, empty, refused]
        rfl
      · simp only [Act.answers, Execution.answer?, empty, refused]
        rfl
    · have taken : connection.sink.write = .ok later := by rw [spent, Relay.Sink.write_ahead]
      refine ⟨rfl, later, [.wrote bytes, .answered ticket .sent], ?_, ?_, ?_, rfl, spent⟩
      · have still : ({ connection with sink := later } : Connection).proceed false =
            ({ connection with sink := later }, []) := proceed_idle _ idle
        simp only [write, Act.ends, Execution.ends, empty, taken, Bool.false_eq_true, if_false,
          still]
        rfl
      · simp only [Act.output, Execution.output, empty, taken]
        rfl
      · simp only [Act.answers, Execution.answer?, empty, taken]
        rfl

theorem finishes_close (connection : Connection) {submission : Submission}
    (close : submission.job = .close) :
    Finishes connection (.carried ⟨submission, connection.sink, []⟩) [] connection.leave := by
  refine ⟨?_, connection.sink, [], ?_, ?_, ?_, rfl, (Relay.Sink.ahead_zero _).symm⟩
  · simp only [Act.Over, Execution.Over, close]
  · simp only [Act.ends, Execution.ends, close, proceed]
    rfl
  · simp only [Act.output, Execution.output, close]
    rfl
  · simp only [Act.answers, Execution.answer?, close]
    rfl

theorem finishes_notes (connection : Connection) (idle : connection.phase = .idle)
    (octet : UInt8) (octets : Bytes) :
    Finishes connection (.heard (.octets (octet :: octets))) []
      (connection, [.noted (octet :: octets)]) := by
  refine ⟨trivial, connection.sink, [.noted (octet :: octets)], ?_, rfl, rfl, rfl,
    (Relay.Sink.ahead_zero _).symm⟩
  change _ = ((connection.proceed false).1, _ ++ (connection.proceed false).2)
  rw [connection.proceed_idle idle]
  rfl

theorem finishes_loses (connection : Connection) {read : Relay.Read}
    (lost : read = .octets [] ∨ ∃ fault, read = .fault fault) :
    Finishes connection (.heard read) [] connection.leave := by
  refine ⟨trivial, connection.sink, [], ?_, rfl, rfl, rfl, (Relay.Sink.ahead_zero _).symm⟩
  rcases lost with rfl | ⟨fault, rfl⟩ <;> rfl

/-- Taking up a job either does all of it or begins a relay. -/
theorem finishes_or_continues_execute (connection : Connection)
    (idle : connection.phase = .idle) (submission : Submission) :
    Finishes connection (.carried ⟨submission, connection.sink, []⟩) []
        (connection.execute submission) ∨
      Continues connection ⟨submission, connection.sink, []⟩ []
        (connection.execute submission) := by
  rcases submission with ⟨ticket, ⟨target, info, source⟩ | bytes | _⟩
  · have spends := Relay.start_spends target info source connection.sink
    cases stage : (Relay.start target info source connection.sink).stage with
    | ended outcome =>
      left
      have came : Execution.Came ⟨⟨ticket, .relay target info source⟩, connection.sink, []⟩
          (Relay.start target info source connection.sink).moves outcome :=
        Execution.came_of_run _ rfl (Relay.run_of_start_ended stage)
      exact connection.finishes_follow came stage spends rfl
    | waiting session =>
      right
      have underway := Relay.underway_start stage
      have output := Execution.output_underway
        ⟨⟨ticket, .relay target info source⟩, connection.sink, []⟩ rfl underway spends
      refine ⟨(Relay.start target info source connection.sink).sink, session,
        (Relay.start target info source connection.sink).moves, ?_, ?_, output, spends⟩
      · exact connection.follow_waiting ticket stage
      · exact ⟨target, info, source, _, rfl, underway, spends⟩
  · left
    exact connection.finishes_write idle ticket bytes
  · left
    exact connection.finishes_close rfl

/-- A relay that hears something either ends or goes on. -/
theorem finishes_or_continues_hear (connection : Connection) {execution : Execution}
    {session : Relay.Session}
    (runs : execution.Runs session connection.sink) (read : Relay.Read) :
    Finishes connection (.carried (execution.heard read)) execution.output
        (connection.follow execution.submission.ticket (session.hear connection.sink read)) ∨
      Continues connection (execution.heard read) execution.output
        (connection.follow execution.submission.ticket (session.hear connection.sink read)) := by
  have spends := session.hear_spends connection.sink read
  cases stage : (session.hear connection.sink read).stage with
  | ended outcome =>
    left
    rcases runs.hear_ended stage with ⟨moves, came, wrote⟩
    exact connection.finishes_follow came stage spends wrote
  | waiting next =>
    right
    rcases runs.hear stage with ⟨later, output⟩
    refine ⟨(session.hear connection.sink read).sink, next,
      (session.hear connection.sink read).moves, ?_, later, output, spends⟩
    exact connection.follow_waiting _ stage

end Connection

end Bridge
end FirmwareGateway
