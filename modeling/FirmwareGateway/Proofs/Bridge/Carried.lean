import FirmwareGateway.Proofs.Bridge.Exclusive

namespace FirmwareGateway
namespace Bridge

/-!
# Jobs and their answers

Whoever gets a result from a connection had his job carried out: it was submitted under
the ticket of the answer, it came to that result on its own, what it read is one stretch
of what the connection read, and what it wrote one stretch of what the connection wrote.
And a connection that takes up a relay which can finish over what comes to be read does
finish it.
-/

/-! ## The job behind an answer -/

theorem mem_answersOf {effects : List Effect} {ticket : Nat} {answer : Answer}
    (answered : .answered ticket answer ∈ effects) (unclosed : answer ≠ .closed) :
    (ticket, answer) ∈ answersOf effects := by
  refine List.mem_filterMap.mpr ⟨_, answered, ?_⟩
  cases answer with
  | closed => exact absurd rfl unclosed
  | _ => rfl

theorem mem_closingsOf {effects : List Effect} {ticket : Nat}
    (answered : .answered ticket .closed ∈ effects) : ticket ∈ closingsOf effects :=
  List.mem_filterMap.mpr ⟨_, answered, rfl⟩

/-- A job that a connection carried out in the course of some events. -/
structure Connection.Carried (start : Connection) (events : List Event) (execution : Execution) :
    Prop where
  submitted : execution.submission ∈ submittedIn events
  read : execution.reads <:+: readIn events
  written : execution.output <:+: outputOf (start.run events).2

namespace Account

section
variable {account : Account} {start last : Connection} {events : List Event}
  {effects : List Effect}

/-- The jobs of an account were submitted. -/
theorem Tells.mem_submittedIn (tells : account.Tells start events last effects)
    {submission : Submission} (entered : submission ∈ account.entered last) :
    submission ∈ submittedIn events := by
  rw [tells.submitted]
  exact List.mem_append_left _ entered

theorem mem_executions {execution : Execution} (carried : .carried execution ∈ account.acts) :
    execution ∈ account.executions :=
  List.mem_append_left _ (List.mem_filterMap.mpr ⟨_, carried, rfl⟩)

theorem Tells.carried (tells : account.Tells start events (start.run events).1 (start.run events).2)
    {execution : Execution} (carried : .carried execution ∈ account.acts) :
    start.Carried events execution where
  submitted := by
    apply tells.mem_submittedIn
    exact List.mem_append_left _ (List.mem_map_of_mem (mem_executions carried))
  read := by
    have among : execution.reads <:+: account.acts.flatMap Act.reads :=
      List.infix_of_mem_flatten (List.mem_map_of_mem carried)
    rw [tells.read, List.append_assoc]
    exact among.trans (List.prefix_append _ _).isInfix
  written := by
    rw [tells.written]
    exact List.infix_of_mem_flatten (List.mem_map_of_mem (mem_executions carried))

/-- A result that is no failure is that of a job that was carried out. -/
theorem Tells.of_answered (tells : account.Tells start events last effects) {ticket : Nat}
    {answer : Answer} (answered : (ticket, answer) ∈ answersOf effects)
    (unfailed : ∀ fault, answer ≠ .failed fault) :
    ∃ execution, .carried execution ∈ account.acts ∧ execution.submission.ticket = ticket ∧
      execution.answer? = some answer := by
  rw [tells.answered] at answered
  rcases List.mem_append.mp answered with given | refused
  · rcases List.mem_flatMap.mp given with ⟨act, done, result⟩
    cases act with
    | heard read => cases result
    | carried execution =>
      rcases List.mem_map.mp result with ⟨given, came, same⟩
      cases same
      exact ⟨execution, done, rfl, Option.mem_toList.mp came⟩
  · rcases List.mem_map.mp refused with ⟨submission, -, same⟩
    cases same
    exact absurd rfl (unfailed _)

end

end Account

namespace Connection

variable {start : Connection} {events : List Event} {ticket : Nat}

theorem carried_of_answered (idle : start.phase = .idle) (queue : start.queue = [])
    (waiting : start.waiting = []) {answer : Answer}
    (answered : .answered ticket answer ∈ (start.run events).2) (unclosed : answer ≠ .closed)
    (unfailed : ∀ fault, answer ≠ .failed fault) :
    ∃ execution, start.Carried events execution ∧ execution.submission.ticket = ticket ∧
      execution.answer? = some answer := by
  rcases (Account.keeps_blank start idle queue waiting).run events with ⟨account, keeps⟩
  rcases keeps.tells.of_answered (mem_answersOf answered unclosed) unfailed with
    ⟨execution, done, same, came⟩
  exact ⟨execution, keeps.tells.carried done, same, came⟩

/-- Only closing is answered so. -/
theorem close_of_answered_closed (idle : start.phase = .idle) (queue : start.queue = [])
    (waiting : start.waiting = []) (answered : .answered ticket .closed ∈ (start.run events).2) :
    ∃ submission ∈ submittedIn events, submission.ticket = ticket ∧ submission.job = .close := by
  rcases (Account.keeps_blank start idle queue waiting).run events with ⟨account, keeps⟩
  have closing := mem_closingsOf answered
  rw [← List.nil_append (start.run events).2, keeps.tells.closings] at closing
  rcases List.mem_map.mp closing with ⟨submission, among, same⟩
  rcases List.mem_filter.mp among with ⟨entered, close⟩
  exact ⟨submission, keeps.tells.mem_submittedIn entered, same, beq_iff_eq.mp close⟩

/-- If an answer to a relay is no failure, the relay has finished. -/
theorem finished_of_answered {target : Relay.Target} {info : Relay.FileInfo}
    {source : Relay.Source} (idle : start.phase = .idle) (queue : start.queue = [])
    (waiting : start.waiting = [])
    (own : ∀ submission ∈ submittedIn events, submission.ticket = ticket →
      submission.job = .relay target info source)
    {answer : Answer} (answered : .answered ticket answer ∈ (start.run events).2)
    (unfailed : ∀ fault, answer ≠ .failed fault) :
    ∃ summary remainder sink reads, answer = .relayed summary ∧
      (Relay.run target info source sink reads).outcome = .finished summary remainder ∧
      reads <:+: readIn events ∧
      Relay.writes (Relay.run target info source sink reads).moves <:+:
        outputOf (start.run events).2 := by
  by_cases closed : answer = .closed
  · subst closed
    rcases close_of_answered_closed idle queue waiting answered with
      ⟨submission, submitted, same, close⟩
    cases close.symm.trans (own submission submitted same)
  · rcases carried_of_answered idle queue waiting answered closed unfailed with
      ⟨execution, carried, same, came⟩
    have job := own execution.submission carried.submitted same
    have wrote := carried.written
    rw [execution.output_relay job] at wrote
    simp only [Execution.answer?, job, Option.some.injEq] at came
    cases outcome : (Relay.run target info source execution.sink execution.reads).outcome with
    | finished summary remainder =>
      rw [outcome] at came
      exact ⟨summary, remainder, execution.sink, execution.reads, came.symm, outcome,
        carried.read, wrote⟩
    | failed fault =>
      rw [outcome] at came
      exact absurd came.symm (unfailed fault)

/-! ## The answer behind a job -/

/-- While a relay runs, what is not read leaves it where it is. -/
theorem undisturbed {connection : Connection} {session : Relay.Session} {event : Event}
    (relaying : connection.phase = .relaying ticket session) (listening : event ≠ .deaf)
    (unheard : readIn [event] = []) :
    (connection.step event).1.phase = connection.phase ∧
      (connection.step event).1.sink = connection.sink ∧
      outputOf (connection.step event).2 = [] := by
  have alive := alive_of_relaying relaying
  have steps := connection.steps event
  generalize connection.step event = result at steps ⊢
  cases steps with
  | refuses submission gone => exact absurd gone alive
  | defers submission => exact ⟨rfl, rfl, rfl⟩
  | enters submission later first room =>
    refine ⟨rfl, rfl, ?_⟩
    dsimp only
    split <;> rfl
  | deafens => exact absurd rfl listening
  | stays => exact ⟨rfl, rfl, rfl⟩
  | notes | loses | hears => cases unheard
  | takes submission later idle => cases idle.symm.trans relaying

/-- A relay under way that finishes over what is read is answered, whatever else happens
meanwhile, so long as the peer takes what is written. -/
theorem answered_of_relaying {connection : Connection} {session : Relay.Session}
    {moves : List Relay.Move} {summary : Relay.Summary} {remainder : Bytes}
    (relaying : connection.phase = .relaying ticket session) (listening : .deaf ∉ events)
    (finished : (Relay.conclude ⟨moves, connection.sink, .waiting session⟩
      (readIn events)).outcome = .finished summary remainder) :
    .answered ticket (.relayed summary) ∈ (connection.run events).2 ∧
      Relay.writes (Relay.conclude ⟨moves, connection.sink, .waiting session⟩
        (readIn events)).moves <+: Relay.writes moves ++ outputOf (connection.run events).2 := by
  induction events generalizing connection session moves with
  | nil => cases finished
  | cons event events ih =>
    have calm : event ≠ .deaf := fun deaf => listening (deaf ▸ List.mem_cons_self)
    have later : .deaf ∉ events := fun deaf => listening (List.mem_cons_of_mem event deaf)
    rw [run, outputOf_append]
    -- What is read carries the session on; all else leaves it, and its sink, as they are.
    by_cases unheard : readIn [event] = []
    · rcases undisturbed relaying calm unheard with ⟨phase, sink, silent⟩
      have same : readIn (event :: events) = readIn events := by
        rw [← List.singleton_append, readIn_append, unheard, List.nil_append]
      rw [same, ← sink] at finished ⊢
      rcases ih (phase.trans relaying) later finished with ⟨answered, wrote⟩
      rw [silent]
      exact ⟨List.mem_append_right _ answered, wrote⟩
    · cases event with
      | read read =>
        change (Relay.conclude _ (read :: readIn events)).outcome = _ at finished
        change _ ∧ Relay.writes (Relay.conclude _ (read :: readIn events)).moves <+: _
        rw [Relay.conclude_hear] at finished ⊢
        have follows : connection.step (.read read) =
            connection.follow ticket (session.hear connection.sink read) :=
          receive_relaying relaying read
        rw [follows]
        cases stage : (session.hear connection.sink read).stage with
        | waiting next =>
          have relays : ({ connection with
              sink := (session.hear connection.sink read).sink
              phase := .relaying ticket next } : Connection).phase = .relaying ticket next := rfl
          rw [Relay.Turn.after, stage] at finished ⊢
          rcases ih relays later finished with ⟨answered, wrote⟩
          rw [Relay.writes_append, List.append_assoc] at wrote
          rw [connection.follow_waiting ticket stage, outputOf_moves]
          exact ⟨List.mem_append_right _ answered, wrote⟩
        | ended outcome =>
          have stopped : ((session.hear connection.sink read).after moves).stage =
              .ended outcome := stage
          rw [Relay.conclude_ended stopped] at finished ⊢
          cases finished
          rw [connection.follow_ended ticket stage]
          constructor
          · simp only [List.mem_append, List.mem_singleton]
            exact Or.inl (Or.inl (Or.inr rfl))
          · simp only [outputOf_append, outputOf_moves, List.append_assoc, Relay.Turn.after,
              Relay.writes_append]
            exact (List.prefix_append_right_inj _).mpr (List.prefix_append _ _)
      | _ => exact absurd rfl unheard

/-- A relay that is first in the queue and can finish over what comes to be read is
answered when it is taken up. -/
theorem answered_of_finished {connection : Connection} {target : Relay.Target}
    {info : Relay.FileInfo} {source : Relay.Source} {queue : List Submission}
    {summary : Relay.Summary} {remainder : Bytes} (idle : connection.phase = .idle)
    (first : connection.queue = ⟨ticket, .relay target info source⟩ :: queue)
    (listening : .deaf ∉ events)
    (finished : (Relay.run target info source connection.sink (readIn events)).outcome =
      .finished summary remainder) :
    .answered ticket (.relayed summary) ∈ (connection.run (.take :: events)).2 ∧
      Relay.writes (Relay.run target info source connection.sink (readIn events)).moves <+:
        outputOf (connection.run (.take :: events)).2 := by
  have taken : connection.step .take = { connection with queue := queue }.follow ticket
      (Relay.start target info source connection.sink) := by
    simp only [step, takeUp, idle, first]
    rfl
  rw [run, outputOf_append, taken]
  rcases Relay.start_failed_or_announced target info source connection.sink with
    ⟨fault, failed⟩ | ⟨-, later, -, announced⟩
  · rw [Relay.run, failed, Relay.conclude_ended rfl] at finished
    cases finished
  · rw [Relay.run, announced] at finished ⊢
    have relays : ({ connection with
        queue := queue
        sink := later
        phase := .relaying ticket (.opened target source) } : Connection).phase =
          .relaying ticket (.opened target source) := rfl
    rcases answered_of_relaying relays listening finished with ⟨answered, wrote⟩
    rw [follow_waiting _ ticket rfl, outputOf_moves]
    exact ⟨List.mem_append_right _ answered, wrote⟩

end Connection

end Bridge
end FirmwareGateway
