import FirmwareGateway.Proofs.Bridge.Account

namespace FirmwareGateway
namespace Bridge

/-!
# One job at a time

Whatever happens to a connection, and in which order, there is an account of it.  The
jobs that it carried out are the first that were submitted, and each was carried out as
if it were alone.  Nothing is carried out behind the act that ends the connection, and
who is left then, in the queue, waiting or coming later, is refused.

The account is kept event by event.  Work that ends becomes an act of the account, a
relay that goes on stays what is under way, and all other events only move submissions.
-/

namespace Account

/-! ## An act ends -/

theorem Fate.of_alive {account : Account} {connection : Connection}
    (fate : account.Fate connection) (alive : connection.phase ≠ .ended) :
    (∀ act ∈ account.acts, act.ends = false) ∧ account.dropped = [] ∧
      account.turnedAway = [] ∧ account.unheard = [] := by
  cases fate with
  | lives _ lasting dropped turnedAway unheard => exact ⟨lasting, dropped, turnedAway, unheard⟩
  | gone ended => exact absurd ended alive

/-- The account with one more act, by which nothing is under way any more. -/
def after (account : Account) (act : Act) (dropped turnedAway : List Submission) : Account :=
  ⟨account.acts ++ [act], none, dropped, turnedAway, []⟩

theorem executions_after (account : Account) (act : Act) (dropped turnedAway : List Submission) :
    (account.after act dropped turnedAway).executions =
      account.acts.filterMap Act.execution? ++ act.execution?.toList := by
  rw [executions, after, List.filterMap_append]
  change _ ++ [] = _
  rw [List.append_nil]
  cases act <;> rfl

theorem outputOf_refusals (connection : Connection) (refused : List Submission) :
    outputOf (refused.map connection.refusal ++ [.left]) = [] := by
  induction refused with
  | nil => rfl
  | cons submission later ih => exact ih

theorem answersOf_refusals (connection : Connection) (refused : List Submission) :
    answersOf (refused.map connection.refusal ++ [.left]) =
      refused.map fun submission =>
        (submission.ticket, .failed (.connectionClosed connection.address)) := by
  induction refused with
  | nil => rfl
  | cons submission later ih => exact congrArg (_ :: ·) ih

theorem closingsOf_refusals (connection : Connection) (refused : List Submission) :
    closingsOf (refused.map connection.refusal ++ [.left]) = [] := by
  induction refused with
  | nil => rfl
  | cons submission later ih => exact ih

section
variable {account : Account} {start last : Connection} {events : List Event}
  {effects done : List Effect} {act : Act} {queue : List Submission} {sink : Relay.Sink}
  {event : Event}

/-- What can be told about an act that has ended before it is known whether the connection
ends with it.  `queue` is still in the queue then. -/
structure Done (account : Account) (act : Act) (start : Connection) (events : List Event)
    (last : Connection) (queue : List Submission) (sink : Relay.Sink) (effects : List Effect) :
    Prop where
  submitted : submittedIn events = account.entered last ++ last.waiting
  entered : account.entered last =
    (account.acts.filterMap Act.execution? ++ act.execution?.toList).map Execution.submission ++
      queue
  written : outputOf effects =
    (account.acts.filterMap Act.execution? ++ act.execution?.toList).flatMap Execution.output
  answered : answersOf effects = (account.acts ++ [act]).flatMap Act.answers
  closings : closingsOf effects =
    ((account.entered last).filter fun submission => submission.job == .close).map
      Submission.ticket
  read : readIn events = (account.acts ++ [act]).flatMap Act.reads
  settled : ∀ each ∈ account.acts ++ [act], each.Over
  lasting : ∀ each ∈ account.acts, each.ends = false
  address : last.address = start.address
  found : Pinned start.sink (.deaf ∈ events)
    (account.acts.filterMap Act.execution? ++ act.execution?.toList)
  left : sink.ahead ((account.acts.filterMap Act.execution? ++ act.execution?.toList).flatMap
      Execution.output).length = start.sink ∨
    .deaf ∈ events ∧ sink = .broken

theorem Keeps.finish (keeps : account.Keeps start events last effects)
    (alive : last.phase ≠ .ended)
    (advances : account.Advances last act.execution? queue sink (outputOf done))
    (settled : act.Over) (answers : answersOf done = act.answers) (closings : closingsOf done = [])
    (read : act.reads = account.running.toList.flatMap Execution.reads ++ readIn [event])
    (unsubmitted : submittedIn [event] = []) :
    account.Done act start (events ++ [event]) last queue sink (effects ++ done) := by
  rcases keeps.tells.fate.of_alive alive with ⟨lasting, dropped, turnedAway, unheard⟩
  have still : .deaf ∈ events → .deaf ∈ events ++ [event] := List.mem_append_left _
  constructor
  case submitted =>
    rw [submittedIn_append, unsubmitted, keeps.tells.submitted, turnedAway, List.append_nil,
      List.nil_append]
  case entered => exact advances.entered dropped
  case written => rw [outputOf_append, keeps.tells.written, advances.written]
  case answered =>
    rw [answersOf_append, keeps.tells.answered, dropped, turnedAway, answers,
      List.flatMap_append, List.flatMap_singleton]
    exact congrArg (· ++ _) (List.append_nil _)
  case closings => rw [closingsOf_append, keeps.tells.closings, closings, List.append_nil]
  case read =>
    rw [readIn_append, keeps.tells.read, unheard, List.append_nil, List.flatMap_append,
      List.flatMap_singleton, read, List.append_assoc]
  case settled =>
    intro each member
    rcases List.mem_append.mp member with before | this
    · exact keeps.tells.settled each before
    · cases List.mem_singleton.mp this
      exact settled
  case lasting => exact lasting
  case address => exact keeps.address
  case found => exact (advances.pinned keeps).mono still
  case left =>
    rcases advances.sink_left keeps with kept | ⟨deaf, broken⟩
    · exact Or.inl kept
    · exact Or.inr ⟨still deaf, broken⟩

/-- The connection goes on. -/
theorem Done.stays (finished : account.Done act start events last queue sink effects)
    (lasting : act.ends = false) :
    (account.after act [] []).Keeps start events
      { last with queue := queue, sink := sink, phase := .idle } effects := by
  have executed := account.executions_after act [] []
  have same : (account.after act [] []).entered
      { last with queue := queue, sink := sink, phase := .idle } = account.entered last := by
    rw [finished.entered, Account.entered, executed]
    rfl
  constructor
  case tells =>
    constructor
    case submitted => exact same ▸ finished.submitted
    case written => exact executed ▸ finished.written
    case answered => exact finished.answered.trans (List.append_nil _).symm
    case closings => exact same ▸ finished.closings
    case read =>
      rw [finished.read, after, Option.toList_none, List.flatMap_nil, List.append_nil,
        List.append_nil]
    case settled => exact finished.settled
    case underway =>
      intro execution none
      cases none
    case fate =>
      refine .lives (Connection.alive_of_idle rfl) ?_ rfl rfl rfl
      intro each member
      rcases List.mem_append.mp member with before | this
      · exact finished.lasting each before
      · cases List.mem_singleton.mp this
        exact lasting
    case found => exact executed ▸ finished.found
  case address => exact finished.address
  case idle => exact fun _ => rfl
  case relaying =>
    intro ticket session relaying
    cases relaying
  case sink => exact executed ▸ finished.left

/-- The connection leaves. -/
theorem Done.leaves (finished : account.Done act start events last queue sink effects)
    (ends : act.ends = true) :
    (account.after act queue last.waiting).Keeps start events
      { last with queue := [], waiting := [], sink := sink, phase := .ended }
      (effects ++ (((queue.filter fun submission => submission.job != .close) ++
        last.waiting).map last.refusal ++ [.left])) := by
  have executed := account.executions_after act queue last.waiting
  have same : (account.after act queue last.waiting).entered
      { last with queue := [], waiting := [], sink := sink, phase := .ended } =
        account.entered last := by
    rw [finished.entered, Account.entered, executed, after, List.append_nil]
  constructor
  case tells =>
    constructor
    case submitted =>
      rw [same, finished.submitted]
      exact congrArg _ (List.append_nil _).symm
    case written =>
      rw [outputOf_append, outputOf_refusals, List.append_nil, executed]
      exact finished.written
    case answered =>
      rw [answersOf_append, finished.answered, answersOf_refusals, finished.address]
      rfl
    case closings =>
      rw [same, closingsOf_append, closingsOf_refusals, List.append_nil]
      exact finished.closings
    case read =>
      rw [finished.read, after, Option.toList_none, List.flatMap_nil, List.append_nil,
        List.append_nil]
    case settled => exact finished.settled
    case underway =>
      intro execution none
      cases none
    case fate => exact .gone rfl account.acts act rfl finished.lasting ends rfl rfl rfl
    case found => exact executed ▸ finished.found
  case address => exact finished.address
  case idle =>
    intro idle
    cases idle
  case relaying =>
    intro ticket session relaying
    cases relaying
  case sink => exact executed ▸ finished.left

/-- The account goes on with an act that ended, whether or not the connection ends with
it. -/
theorem Done.proceeds {earlier : List Effect}
    (finished : account.Done act start events last queue sink (earlier ++ done)) :
    ∃ next : Account, next.Keeps start events
      ({ last with queue := queue, sink := sink }.proceed act.ends).1
      (earlier ++
        (done ++ ({ last with queue := queue, sink := sink }.proceed act.ends).2)) := by
  rw [← List.append_assoc]
  cases ends : act.ends with
  | false =>
    refine ⟨account.after act [] [], ?_⟩
    change Keeps _ _ _ _ ((earlier ++ done) ++ [])
    rw [List.append_nil]
    exact finished.stays ends
  | true => exact ⟨account.after act queue last.waiting, finished.leaves ends⟩

/-! ## A relay goes on -/

/-- The account while the given job is under way. -/
def during (account : Account) (execution : Execution) : Account :=
  { account with running := some execution }

theorem Keeps.carry (keeps : account.Keeps start events last effects)
    (alive : last.phase ≠ .ended) {execution : Execution} {session : Relay.Session}
    {moves : List Relay.Move}
    (advances : account.Advances last (some execution) queue sink (Relay.writes moves))
    (runs : execution.Runs session sink)
    (read : execution.reads = account.running.toList.flatMap Execution.reads ++ readIn [event])
    (unsubmitted : submittedIn [event] = []) :
    (account.during execution).Keeps start (events ++ [event])
      { last with
        queue := queue, sink := sink, phase := .relaying execution.submission.ticket session }
      (effects ++ moves.map Effect.ofMove) := by
  rcases keeps.tells.fate.of_alive alive with ⟨lasting, dropped, turnedAway, unheard⟩
  have still : .deaf ∈ events → .deaf ∈ events ++ [event] := List.mem_append_left _
  have unanswering := unanswering_moves moves
  have same : (account.during execution).entered
      { last with
        queue := queue, sink := sink, phase := .relaying execution.submission.ticket session } =
        account.entered last := by
    rw [advances.entered dropped, Account.entered, during, dropped]
    rfl
  constructor
  case tells =>
    constructor
    case submitted =>
      rw [same, submittedIn_append, unsubmitted, keeps.tells.submitted, List.append_nil]
      rfl
    case written =>
      rw [outputOf_append, outputOf_moves, keeps.tells.written, ← advances.written]
      rfl
    case answered =>
      rw [answersOf_append, unanswering.answersOf_eq, keeps.tells.answered, List.append_nil]
      rfl
    case closings =>
      rw [same, closingsOf_append, unanswering.closingsOf_eq, keeps.tells.closings,
        List.append_nil]
    case read =>
      rw [readIn_append, keeps.tells.read, unheard, List.append_nil, List.append_assoc, ← read,
        during, unheard, List.append_nil]
      exact congrArg _ (List.append_nil _).symm
    case settled => exact keeps.tells.settled
    case underway =>
      intro each running
      cases running
      exact runs.underway
    case fate => exact .lives (Connection.alive_of_relaying rfl) lasting dropped turnedAway unheard
    case found => exact (advances.pinned keeps).mono still
  case address => exact keeps.address
  case idle =>
    intro idle
    cases idle
  case relaying =>
    intro ticket other phase
    cases phase
    exact ⟨execution, rfl, rfl, runs⟩
  case sink =>
    exact (advances.sink_left keeps).imp_right (And.imp_left still)

/-! ## Nothing is done -/

/-- Nothing was written and nothing read for a job. -/
theorem Keeps.rest (keeps : account.Keeps start events last effects) {next : Account}
    {here : Connection} {more : List Effect} (acts : next.acts = account.acts)
    (running : next.running = account.running) (address : here.address = last.address)
    (phase : here.phase = last.phase) (sink : here.sink = last.sink)
    (unwritten : outputOf more = [])
    (submitted : submittedIn (events ++ [event]) =
      next.entered here ++ (next.turnedAway ++ here.waiting))
    (answered : answersOf (effects ++ more) = next.acts.flatMap Act.answers ++
      ((next.dropped.filter fun submission => submission.job != .close) ++
        next.turnedAway).map fun submission =>
          (submission.ticket, .failed (.connectionClosed start.address)))
    (closings : closingsOf (effects ++ more) =
      ((next.entered here).filter fun submission => submission.job == .close).map
        Submission.ticket)
    (read : readIn (events ++ [event]) = next.acts.flatMap Act.reads ++
      next.running.toList.flatMap Execution.reads ++ next.unheard)
    (fate : next.Fate here) :
    next.Keeps start (events ++ [event]) here (effects ++ more) := by
  have still : .deaf ∈ events → .deaf ∈ events ++ [event] := List.mem_append_left _
  have same : next.executions = account.executions := by
    rw [executions, executions, acts, running]
  constructor
  case tells =>
    constructor
    case submitted => exact submitted
    case written =>
      rw [outputOf_append, unwritten, List.append_nil, same]
      exact keeps.tells.written
    case answered => exact answered
    case closings => exact closings
    case read => exact read
    case settled => exact acts ▸ keeps.tells.settled
    case underway => exact running ▸ keeps.tells.underway
    case fate => exact fate
    case found => exact same ▸ keeps.tells.found.mono still
  case address => exact address.trans keeps.address
  case idle =>
    intro idle
    exact running.trans (keeps.idle (phase.symm.trans idle))
  case relaying =>
    intro ticket session relaying
    rw [running, sink]
    exact keeps.relaying ticket session (phase.symm.trans relaying)
  case sink =>
    rw [sink, same]
    exact keeps.sink.imp_right (And.imp_left still)

theorem Fate.of_ended {connection : Connection} (fate : account.Fate connection)
    (ended : connection.phase = .ended) :
    account.running = none ∧ connection.queue = [] ∧ connection.waiting = [] := by
  cases fate with
  | lives alive => exact absurd ended alive
  | gone _ earlier final acts lasting ends running queue waiting =>
    exact ⟨running, queue, waiting⟩

/-- A submission that comes too late. -/
theorem Keeps.refuse (keeps : account.Keeps start events last effects)
    (ended : last.phase = .ended) (submission : Submission) :
    ∃ next : Account, next.Keeps start (events ++ [.submit submission]) last
      (effects ++ [last.refusal submission]) := by
  rcases keeps.tells.fate.of_ended ended with ⟨-, -, waiting⟩
  refine ⟨{ account with turnedAway := account.turnedAway ++ [submission] },
    keeps.rest rfl rfl rfl rfl rfl rfl ?submitted ?answered ?closings ?read ?fate⟩
  case submitted =>
    rw [submittedIn_append, keeps.tells.submitted, waiting, List.append_nil, List.append_nil,
      List.append_assoc]
    rfl
  case answered =>
    rw [answersOf_append, keeps.tells.answered, ← keeps.address]
    simp only [List.map_append, List.append_assoc]
    rfl
  case closings =>
    rw [closingsOf_append, keeps.tells.closings]
    exact List.append_nil _
  case read =>
    rw [readIn_append, keeps.tells.read]
    exact List.append_nil _
  case fate =>
    cases keeps.tells.fate with
    | lives alive => exact absurd ended alive
    | gone _ earlier final acts lasting ends running queue waiting =>
      exact .gone ended earlier final acts lasting ends running queue waiting

/-- A submission that has to wait. -/
theorem Keeps.defer (keeps : account.Keeps start events last effects)
    (alive : last.phase ≠ .ended) (submission : Submission) :
    account.Keeps start (events ++ [.submit submission])
      { last with waiting := last.waiting ++ [submission] } (effects ++ []) := by
  rcases keeps.tells.fate.of_alive alive with ⟨lasting, dropped, turnedAway, unheard⟩
  refine keeps.rest rfl rfl rfl rfl rfl rfl ?submitted ?answered ?closings ?read ?fate
  case submitted =>
    rw [submittedIn_append, keeps.tells.submitted, List.append_assoc, List.append_assoc]
    rfl
  case answered =>
    rw [List.append_nil]
    exact keeps.tells.answered
  case closings =>
    rw [List.append_nil]
    exact keeps.tells.closings
  case read =>
    rw [readIn_append, keeps.tells.read]
    exact List.append_nil _
  case fate => exact .lives alive lasting dropped turnedAway unheard

/-- The first submission that waits enters the queue. -/
theorem Keeps.enter (keeps : account.Keeps start events last effects)
    {submission : Submission} {later : List Submission}
    (first : last.waiting = submission :: later) :
    account.Keeps start (events ++ [.enter])
      { last with queue := last.queue ++ [submission], waiting := later }
      (effects ++
        if submission.job = .close then [.answered submission.ticket .closed] else []) := by
  have alive : last.phase ≠ .ended := by
    intro ended
    rcases keeps.tells.fate.of_ended ended with ⟨-, -, none⟩
    cases none.symm.trans first
  rcases keeps.tells.fate.of_alive alive with ⟨lasting, dropped, turnedAway, unheard⟩
  have entered : account.entered
      { last with queue := last.queue ++ [submission], waiting := later } =
        account.entered last ++ [submission] := by
    rw [Account.entered, Account.entered, List.append_assoc, List.append_assoc]
  have unwritten : outputOf
      (if submission.job = .close then [.answered submission.ticket .closed] else []) = [] := by
    split <;> rfl
  have unanswered : answersOf
      (if submission.job = .close then [.answered submission.ticket .closed] else []) = [] := by
    split <;> rfl
  refine keeps.rest rfl rfl rfl rfl rfl unwritten ?submitted ?answered ?closings ?read ?fate
  case submitted =>
    rw [submittedIn_append, keeps.tells.submitted, entered, turnedAway, first]
    change account.entered last ++ submission :: later ++ [] =
      account.entered last ++ [submission] ++ later
    rw [List.append_nil, List.append_assoc]
    rfl
  case answered =>
    rw [answersOf_append, unanswered, List.append_nil]
    exact keeps.tells.answered
  case closings =>
    rw [closingsOf_append, keeps.tells.closings, entered, List.filter_append, List.map_append]
    congr 1
    by_cases close : submission.job = .close
    · rw [if_pos close, List.filter_cons_of_pos (by exact beq_iff_eq.mpr close)]
      rfl
    · rw [if_neg close, List.filter_cons_of_neg (by simpa using close)]
      rfl
  case read =>
    rw [readIn_append, keeps.tells.read]
    exact List.append_nil _
  case fate => exact .lives alive lasting dropped turnedAway unheard

/-- Nothing happens. -/
theorem Keeps.stay (keeps : account.Keeps start events last effects)
    (unsubmitted : submittedIn [event] = [])
    (unheard : readIn [event] ≠ [] → last.phase = .ended) :
    ∃ next : Account, next.Keeps start (events ++ [event]) last (effects ++ []) := by
  refine ⟨{ account with unheard := account.unheard ++ readIn [event] },
    keeps.rest rfl rfl rfl rfl rfl rfl ?submitted ?answered ?closings ?read ?fate⟩
  case submitted =>
    rw [submittedIn_append, unsubmitted, List.append_nil]
    exact keeps.tells.submitted
  case answered =>
    rw [List.append_nil]
    exact keeps.tells.answered
  case closings =>
    rw [List.append_nil]
    exact keeps.tells.closings
  case read => rw [readIn_append, keeps.tells.read, List.append_assoc]
  case fate =>
    cases keeps.tells.fate with
    | lives alive lasting dropped turnedAway still =>
      have nothing : readIn [event] = [] :=
        Decidable.byContradiction fun some => alive (unheard some)
      refine .lives alive lasting dropped turnedAway ?_
      rw [nothing, List.append_nil, still]
    | gone ended earlier final acts lasting ends running queue waiting =>
      exact .gone ended earlier final acts lasting ends running queue waiting

/-- What is under way is the relay that the connection is at. -/
theorem Keeps.runs (keeps : account.Keeps start events last effects) {execution : Execution}
    (running : account.running = some execution) :
    ∃ session, last.phase = .relaying execution.submission.ticket session ∧
      execution.Runs session last.sink := by
  cases phase : last.phase with
  | idle => cases running.symm.trans (keeps.idle phase)
  | ended => cases running.symm.trans (keeps.tells.fate.of_ended phase).1
  | relaying ticket session =>
    rcases keeps.relaying ticket session phase with ⟨other, same, rfl, runs⟩
    cases running.symm.trans same
    exact ⟨session, rfl, runs⟩

/-- The account when the peer takes no more. -/
def deafened (account : Account) : Account :=
  { account with running := account.running.map Execution.deafened }

theorem Keeps.output_deafened (keeps : account.Keeps start events last effects) :
    account.deafened.executions.flatMap Execution.output =
      account.executions.flatMap Execution.output := by
  rw [executions, executions, deafened, List.flatMap_append, List.flatMap_append]
  cases running : account.running with
  | none => rfl
  | some execution =>
    rcases keeps.runs running with ⟨session, -, runs⟩
    exact congrArg (fun output => _ ++ (output ++ [])) runs.deafened.2

theorem entered_deafened (account : Account) (connection : Connection) :
    account.deafened.entered connection = account.entered connection := by
  rw [Account.entered, Account.entered, executions, executions, deafened, List.map_append,
    List.map_append]
  cases account.running <;> rfl

theorem Keeps.pinned_deafened (keeps : account.Keeps start events last effects) {deaf : Prop}
    (now : deaf) : Pinned start.sink deaf account.deafened.executions := by
  have found := keeps.tells.found.mono fun _ => now
  rw [executions] at found ⊢
  cases running : account.running with
  | none =>
    rw [running] at found
    rw [deafened, running]
    exact found
  | some execution =>
    rcases keeps.runs running with ⟨session, -, runs⟩
    rw [deafened, running]
    apply found.front.snoc
    right
    refine ⟨now, ?_⟩
    rw [runs.deafened.2]
    rfl

/-- The peer takes no more. -/
theorem Keeps.deafen (keeps : account.Keeps start events last effects) :
    account.deafened.Keeps start (events ++ [.deaf]) { last with sink := .broken }
      (effects ++ []) := by
  have now : .deaf ∈ events ++ [Event.deaf] := List.mem_append_right _ List.mem_cons_self
  have entered := account.entered_deafened last
  rw [List.append_nil]
  constructor
  case tells =>
    constructor
    case submitted =>
      rw [submittedIn_append, keeps.tells.submitted, ← entered]
      exact List.append_nil _
    case written => exact keeps.tells.written.trans keeps.output_deafened.symm
    case answered => exact keeps.tells.answered
    case closings => exact entered ▸ keeps.tells.closings
    case read =>
      rw [readIn_append, keeps.tells.read, deafened]
      cases account.running <;> exact List.append_nil _
    case settled => exact keeps.tells.settled
    case underway =>
      intro execution member
      rcases Option.map_eq_some_iff.mp member with ⟨before, running, rfl⟩
      rcases keeps.runs running with ⟨session, -, runs⟩
      exact runs.deafened.1.underway
    case fate =>
      cases keeps.tells.fate with
      | lives alive lasting dropped turnedAway unheard =>
        exact .lives alive lasting dropped turnedAway unheard
      | gone ended earlier final acts lasting ends running queue waiting =>
        refine .gone ended earlier final acts lasting ends ?_ queue waiting
        rw [deafened, running]
        rfl
    case found => exact keeps.pinned_deafened now
  case address => exact keeps.address
  case idle =>
    intro idle
    rw [deafened, keeps.idle idle]
    rfl
  case relaying =>
    intro ticket session phase
    rcases keeps.relaying ticket session phase with ⟨execution, running, same, runs⟩
    refine ⟨execution.deafened, ?_, same, runs.deafened.1⟩
    rw [deafened, running]
    rfl
  case sink => exact Or.inr ⟨now, rfl⟩

/-! ## Whatever happens -/

theorem Keeps.finishes (keeps : account.Keeps start events last effects)
    (alive : last.phase ≠ .ended) {earlier : List Bytes} {result : Connection × List Effect}
    (finishes : Finishes { last with queue := queue } act earlier result)
    (before : account.running.toList.flatMap Execution.output = earlier)
    (taken : account.running.toList.map Execution.submission ++ last.queue =
      act.execution?.toList.map Execution.submission ++ queue)
    (found : ∀ execution ∈ act.execution?, execution.sink = last.sink.ahead earlier.length)
    (read : act.reads = account.running.toList.flatMap Execution.reads ++ readIn [event])
    (unsubmitted : submittedIn [event] = []) :
    ∃ next : Account, next.Keeps start (events ++ [event]) result.1 (effects ++ result.2) := by
  rcases finishes with ⟨settled, sink, done, rfl, output, answers, closings, spent⟩
  have advances : account.Advances last act.execution? queue sink (outputOf done) := by
    constructor
    case taken => exact taken
    case output => rw [act.output_eq, output, before]
    case found => exact before.symm ▸ found
    case spent => exact spent
  exact (keeps.finish alive advances settled answers closings read unsubmitted).proceeds

theorem Keeps.continues (keeps : account.Keeps start events last effects)
    (alive : last.phase ≠ .ended) {execution : Execution} {earlier : List Bytes}
    {result : Connection × List Effect}
    (continues : Continues { last with queue := queue } execution earlier result)
    (before : account.running.toList.flatMap Execution.output = earlier)
    (taken : account.running.toList.map Execution.submission ++ last.queue =
      execution.submission :: queue)
    (found : execution.sink = last.sink.ahead earlier.length)
    (read : execution.reads = account.running.toList.flatMap Execution.reads ++ readIn [event])
    (unsubmitted : submittedIn [event] = []) :
    ∃ next : Account, next.Keeps start (events ++ [event]) result.1 (effects ++ result.2) := by
  rcases continues with ⟨sink, session, moves, rfl, runs, output, spent⟩
  have advances : account.Advances last (some execution) queue sink (Relay.writes moves) := by
    constructor
    case taken => exact taken
    case output =>
      rw [before, ← output]
      exact List.append_nil _
    case found =>
      intro other same
      cases same
      exact before.symm ▸ found
    case spent => exact spent
  exact ⟨account.during execution, keeps.carry alive advances runs read unsubmitted⟩

theorem Keeps.step (keeps : account.Keeps start events last effects) (event : Event) :
    ∃ next : Account, next.Keeps start (events ++ [event]) (last.step event).1
      (effects ++ (last.step event).2) := by
  have steps := last.steps event
  generalize last.step event = result at steps ⊢
  cases steps with
  | refuses submission ended => exact keeps.refuse ended submission
  | defers submission alive => exact ⟨account, keeps.defer alive submission⟩
  | enters submission later first room => exact ⟨account, keeps.enter first⟩
  | deafens => exact ⟨account.deafened, keeps.deafen⟩
  | stays event unsubmitted unheard listening =>
    apply keeps.stay
    · cases event with
      | submit submission => exact absurd rfl (unsubmitted submission)
      | _ => rfl
    · intro some
      cases event with
      | read read => exact unheard read rfl
      | _ => exact absurd rfl some
  | notes octet octets idle =>
    have none := keeps.idle idle
    have alive := Connection.alive_of_idle idle
    apply keeps.finishes alive (last.finishes_notes idle octet octets)
    case before => rw [none]; rfl
    case taken => rw [none]; rfl
    case found =>
      intro execution absent
      cases absent
    case read => rw [none]; rfl
    case unsubmitted => rfl
  | loses read idle lost =>
    have none := keeps.idle idle
    have alive := Connection.alive_of_idle idle
    apply keeps.finishes alive (last.finishes_loses lost)
    case before => rw [none]; rfl
    case taken => rw [none]; rfl
    case found =>
      intro execution absent
      cases absent
    case read => rw [none]; rfl
    case unsubmitted => rfl
  | takes submission later idle first =>
    have none := keeps.idle idle
    have alive := Connection.alive_of_idle idle
    have found : last.sink = last.sink.ahead ([] : List Bytes).length :=
      (Relay.Sink.ahead_zero _).symm
    have taken : account.running.toList.map Execution.submission ++ last.queue =
        submission :: later := by
      rw [none, first]
      rfl
    rcases { last with queue := later }.finishes_or_continues_execute idle submission with
      finishes | continues
    · apply keeps.finishes alive finishes _ taken
      · intro execution same
        cases same
        exact found
      · rw [none]; rfl
      · rfl
      · rw [none]; rfl
    · apply keeps.continues alive continues _ taken found
      · rw [none]; rfl
      · rfl
      · rw [none]; rfl
  | hears ticket session read relaying =>
    have alive := Connection.alive_of_relaying relaying
    rcases keeps.relaying ticket session relaying with ⟨execution, running, rfl, runs⟩
    have before : account.running.toList.flatMap Execution.output = execution.output := by
      rw [running]
      exact List.append_nil _
    have taken : account.running.toList.map Execution.submission ++ last.queue =
        (execution.heard read).submission :: last.queue := by
      rw [running]
      rfl
    have heard : (execution.heard read).reads =
        account.running.toList.flatMap Execution.reads ++ readIn [.read read] := by
      rw [running]
      exact congrArg (· ++ _) (List.append_nil _).symm
    have found : execution.sink = last.sink.ahead execution.output.length := runs.found
    rcases last.finishes_or_continues_hear runs read with finishes | continues
    · apply keeps.finishes alive finishes before taken _ heard rfl
      intro other same
      cases same
      exact found
    · exact keeps.continues alive continues before taken found heard rfl

theorem Keeps.run (keeps : account.Keeps start events last effects) (later : List Event) :
    ∃ next : Account, next.Keeps start (events ++ later) (last.run later).1
      (effects ++ (last.run later).2) := by
  induction later generalizing account events last effects with
  | nil =>
    rw [List.append_nil]
    exact ⟨account, (List.append_nil effects).symm ▸ keeps⟩
  | cons event later ih =>
    rcases keeps.step event with ⟨next, kept⟩
    rcases ih kept with ⟨final, done⟩
    rw [List.append_assoc, List.append_assoc] at done
    exact ⟨final, done⟩

/-- The account of a connection that did nothing yet. -/
def blank : Account := ⟨[], none, [], [], []⟩

theorem keeps_blank (start : Connection) (idle : start.phase = .idle) (queue : start.queue = [])
    (waiting : start.waiting = []) : blank.Keeps start [] start [] := by
  constructor
  case tells =>
    constructor
    case submitted => rw [Account.entered, queue, waiting]; rfl
    case written => rfl
    case answered => rfl
    case closings => rw [Account.entered, queue]; rfl
    case read => rfl
    case settled => exact List.forall_mem_nil _
    case underway =>
      intro execution none
      cases none
    case fate => exact .lives (Connection.alive_of_idle idle) (List.forall_mem_nil _) rfl rfl rfl
    case found =>
      intro before execution after split
      cases before <;> cases split
  case address => rfl
  case idle => exact fun _ => rfl
  case relaying =>
    intro ticket session relaying
    cases idle.symm.trans relaying
  case sink => exact Or.inl start.sink.ahead_zero

end

end Account

namespace Connection

end Connection

end Bridge
end FirmwareGateway
