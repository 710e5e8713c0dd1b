import FirmwareGateway.Proofs.Bridge.Executions

namespace FirmwareGateway
namespace Bridge

/-!
# Accounts of connections

An account of a connection says what it did and with whom: the jobs it carried out one
after the other, what it read in between, the relay that is under way, and who was
refused.  `Tells` relates an account to the events that happened and to the effects that
were seen.  An account that is to be continued has to know more, how far the relay has
come and what is left of the sink; `Keeps` is that.
-/

/-- The submissions among some events. -/
def submittedIn (events : List Event) : List Submission :=
  events.filterMap fun
    | .submit submission => some submission
    | _ => none

/-- What was read in some events. -/
def readIn (events : List Event) : List Relay.Read :=
  events.filterMap fun
    | .read read => some read
    | _ => none

theorem submittedIn_append (first second : List Event) :
    submittedIn (first ++ second) = submittedIn first ++ submittedIn second :=
  List.filterMap_append

theorem readIn_append (first second : List Event) :
    readIn (first ++ second) = readIn first ++ readIn second :=
  List.filterMap_append

/-- What a connection did: its acts, and the relay that is under way, if one is.  A
connection that has ended dropped what was in its queue, turned away who waited or came
later, and left unheard what came after. -/
structure Account where
  acts : List Act
  running : Option Execution
  dropped : List Submission
  turnedAway : List Submission
  unheard : List Relay.Read

namespace Account

/-- The jobs that were taken up, in order. -/
def executions (account : Account) : List Execution :=
  account.acts.filterMap Act.execution? ++ account.running.toList

/-- The submissions that entered the queue, in order. -/
def entered (account : Account) (connection : Connection) : List Submission :=
  account.executions.map Execution.submission ++ (account.dropped ++ connection.queue)

/-- Either the connection lives and nobody was refused, or the last of its acts, and no
other, ended it. -/
inductive Fate (account : Account) (connection : Connection) : Prop
  | lives (alive : connection.phase ≠ .ended)
      (lasting : ∀ act ∈ account.acts, act.ends = false) (dropped : account.dropped = [])
      (turnedAway : account.turnedAway = []) (unheard : account.unheard = [])
  | gone (ended : connection.phase = .ended) (earlier : List Act) (final : Act)
      (acts : account.acts = earlier ++ [final])
      (lasting : ∀ act ∈ earlier, act.ends = false) (ends : final.ends = true)
      (running : account.running = none) (queue : connection.queue = [])
      (waiting : connection.waiting = [])

/-- Each job found the sink that those before it left, unless the peer went deaf before
the job was done: then it found one that takes what the job wrote and no more. -/
def Pinned (sink : Relay.Sink) (deaf : Prop) (executions : List Execution) : Prop :=
  ∀ before execution after, executions = before ++ execution :: after →
    execution.sink.ahead (before.flatMap Execution.output).length = sink ∨
      deaf ∧ execution.sink = Relay.Sink.broken.ahead execution.output.length

/-- The account of a connection that was at `start` and is at `last` now, after the given
events and with the given effects.  Jobs are taken up in the order in which they were
submitted, and the stream carries what each job writes on its own, one job behind the other.
A job is answered its own result; who was not taken up is refused, each once; closing is
answered by being let into the queue.  What is read while a relay runs belongs to the relay. -/
structure Tells (account : Account) (start : Connection) (events : List Event)
    (last : Connection) (effects : List Effect) : Prop where
  submitted : submittedIn events =
    account.entered last ++ (account.turnedAway ++ last.waiting)
  written : outputOf effects = account.executions.flatMap Execution.output
  answered : answersOf effects = account.acts.flatMap Act.answers ++
    ((account.dropped.filter fun submission => submission.job != .close) ++
      account.turnedAway).map fun submission =>
        (submission.ticket, .failed (.connectionClosed start.address))
  closings : closingsOf effects =
    ((account.entered last).filter fun submission => submission.job == .close).map
      Submission.ticket
  read : readIn events = account.acts.flatMap Act.reads ++
    account.running.toList.flatMap Execution.reads ++ account.unheard
  settled : ∀ act ∈ account.acts, act.Over
  underway : ∀ execution ∈ account.running, execution.Underway
  fate : account.Fate last
  found : Pinned start.sink (.deaf ∈ events) account.executions

/-- The account and how things stand. -/
structure Keeps (account : Account) (start : Connection) (events : List Event)
    (last : Connection) (effects : List Effect) : Prop where
  tells : account.Tells start events last effects
  address : last.address = start.address
  idle : last.phase = .idle → account.running = none
  relaying : ∀ ticket session, last.phase = .relaying ticket session →
    ∃ execution, account.running = some execution ∧ execution.submission.ticket = ticket ∧
      execution.Runs session last.sink
  sink : last.sink.ahead (account.executions.flatMap Execution.output).length = start.sink ∨
    .deaf ∈ events ∧ last.sink = .broken

/-! ## Sinks along the account -/

section
variable {sink : Relay.Sink} {deaf : Prop} {executions : List Execution}

theorem Pinned.mono (pinned : Pinned sink deaf executions) {deafer : Prop}
    (still : deaf → deafer) : Pinned sink deafer executions := by
  intro before execution after split
  rcases pinned before execution after split with kept | ⟨is, broken⟩
  · exact Or.inl kept
  · exact Or.inr ⟨still is, broken⟩

theorem Pinned.front {more : List Execution} (pinned : Pinned sink deaf (executions ++ more)) :
    Pinned sink deaf executions := by
  intro before execution after split
  apply pinned before execution (after ++ more)
  rw [split, List.append_assoc]
  rfl

theorem Pinned.snoc (pinned : Pinned sink deaf executions) {execution : Execution}
    (found : execution.sink.ahead (executions.flatMap Execution.output).length = sink ∨
      deaf ∧ execution.sink = Relay.Sink.broken.ahead execution.output.length) :
    Pinned sink deaf (executions ++ [execution]) := by
  intro before other after split
  rcases List.eq_nil_or_concat after with rfl | ⟨after, final, rfl⟩
  · rcases List.append_inj' split rfl with ⟨rfl, same⟩
    cases same
    exact found
  · rw [List.concat_eq_append, ← List.cons_append, ← List.append_assoc] at split
    exact pinned before other after (List.append_inj' split rfl).1

end

/-- Writing to a sink that takes nothing comes to nothing. -/
theorem eq_broken_of_ahead {sink : Relay.Sink} {count : Nat}
    (same : Relay.Sink.broken = sink.ahead count) : sink = .broken ∧ count = 0 := by
  rcases sink with ⟨_ | room, fault⟩
  · cases same
  · rw [Relay.Sink.ahead, Option.map_some] at same
    injection same with rooms faults
    have none : 0 = room + count := Option.some.inj rooms
    have first : room = 0 := by omega
    have second : count = 0 := by omega
    subst first second faults
    exact ⟨rfl, rfl⟩

/-! ## The job that is up -/

/-- The job that is up is the one that was running or the first of the queue, with more
written for it; `queue` and `sink` are what is left. -/
structure Advances (account : Account) (last : Connection) (next : Option Execution)
    (queue : List Submission) (sink : Relay.Sink) (wrote : List Bytes) : Prop where
  taken : account.running.toList.map Execution.submission ++ last.queue =
    next.toList.map Execution.submission ++ queue
  output : next.toList.flatMap Execution.output =
    account.running.toList.flatMap Execution.output ++ wrote
  found : ∀ execution ∈ next,
    execution.sink = last.sink.ahead (account.running.toList.flatMap Execution.output).length
  spent : last.sink = sink.ahead wrote.length

section
variable {account : Account} {start last : Connection} {events : List Event}
  {effects : List Effect} {next : Option Execution} {queue : List Submission}
  {sink : Relay.Sink} {wrote : List Bytes}

theorem Advances.entered (advances : account.Advances last next queue sink wrote)
    (dropped : account.dropped = []) :
    account.entered last =
      (account.acts.filterMap Act.execution? ++ next.toList).map Execution.submission ++ queue := by
  rw [Account.entered, executions, dropped, List.nil_append, List.map_append, List.map_append,
    List.append_assoc, List.append_assoc, advances.taken]

theorem Advances.written (advances : account.Advances last next queue sink wrote) :
    (account.acts.filterMap Act.execution? ++ next.toList).flatMap Execution.output =
      account.executions.flatMap Execution.output ++ wrote := by
  rw [executions, List.flatMap_append, List.flatMap_append, advances.output, List.append_assoc]

theorem Advances.sink_left (advances : account.Advances last next queue sink wrote)
    (keeps : account.Keeps start events last effects) :
    sink.ahead ((account.acts.filterMap Act.execution? ++ next.toList).flatMap
        Execution.output).length = start.sink ∨
      .deaf ∈ events ∧ sink = .broken := by
  rcases keeps.sink with kept | ⟨deaf, broken⟩
  · left
    rw [advances.written, List.length_append, Nat.add_comm, ← Relay.Sink.ahead_ahead,
      ← advances.spent, kept]
  · right
    exact ⟨deaf, (eq_broken_of_ahead (broken.symm.trans advances.spent)).1⟩

theorem Advances.pinned (advances : account.Advances last next queue sink wrote)
    (keeps : account.Keeps start events last effects) :
    Pinned start.sink (.deaf ∈ events)
      (account.acts.filterMap Act.execution? ++ next.toList) := by
  have earlier := keeps.tells.found.front
  cases next with
  | none => exact (List.append_nil _).symm ▸ earlier
  | some execution =>
    apply earlier.snoc
    have output : execution.output =
        account.running.toList.flatMap Execution.output ++ wrote := by
      rw [← advances.output]
      exact (List.append_nil _).symm
    rw [advances.found execution rfl]
    rcases keeps.sink with kept | ⟨deaf, broken⟩
    · left
      rw [executions, List.flatMap_append, List.length_append, Nat.add_comm] at kept
      rw [Relay.Sink.ahead_ahead, kept]
    · right
      have nothing : wrote = [] :=
        List.length_eq_zero_iff.mp (eq_broken_of_ahead (broken.symm.trans advances.spent)).2
      rw [output, nothing, List.append_nil, broken]
      exact ⟨deaf, rfl⟩

end

end Account

end Bridge
end FirmwareGateway
