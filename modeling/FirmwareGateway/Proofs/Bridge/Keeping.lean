import FirmwareGateway.Proofs.Bridge.Exclusive
import FirmwareGateway.Proofs.Bridge.Intake
import FirmwareGateway.Proofs.Bridge.Registration
import FirmwareGateway.Proofs.Relay.Boundaries

namespace FirmwareGateway
namespace Bridge

/-!
# Where a relay leaves its connection

A relay has its connection to itself until it is over.  What the connection does meanwhile
is what the session does; besides, it only lets submissions into its queue.  How the
session came out then decides.  Behind an ending record, or if nothing was written or read
at all, the connection serves on.  In every other case its stream or its file has given
out in the middle, and the connection leaves.
-/

/-! ## Effects of a relay under way -/

/-- The moves of a session among some effects. -/
def movesOf (effects : List Effect) : List Relay.Move :=
  effects.filterMap fun
    | .pulled pull => some (.pulled pull)
    | .wrote bytes => some (.wrote bytes)
    | _ => none

theorem movesOf_append (first second : List Effect) :
    movesOf (first ++ second) = movesOf first ++ movesOf second :=
  List.filterMap_append

theorem movesOf_moves (moves : List Relay.Move) : movesOf (moves.map Effect.ofMove) = moves := by
  induction moves with
  | nil => rfl
  | cons move moves ih =>
    cases move with
    | pulled pull => exact congrArg (.pulled pull :: ·) ih
    | wrote bytes => exact congrArg (.wrote bytes :: ·) ih

theorem movesOf_note (text : Bytes) : movesOf (note text) = [] := by
  rw [note]
  split <;> rfl

theorem movesOf_leave (connection : Connection) : movesOf connection.leave.2 = [] := by
  have still : ∀ refused : List Submission,
      movesOf (refused.map connection.refusal ++ [.left]) = [] := by
    intro refused
    induction refused with
    | nil => rfl
    | cons submission later ih => exact ih
  exact still _

theorem outputOf_eq_writes (effects : List Effect) :
    outputOf effects = Relay.writes (movesOf effects) := by
  induction effects with
  | nil => rfl
  | cons effect effects ih =>
    cases effect with
    | wrote bytes => exact congrArg (bytes :: ·) ih
    | _ => exact ih

/-- The effects while a relay is under way: it moves, and jobs that close are accepted. -/
def Busy (effects : List Effect) : Prop :=
  ∀ effect ∈ effects,
    (∃ move, effect = .ofMove move) ∨ ∃ ticket, effect = .answered ticket .closed

theorem busy_moves (moves : List Relay.Move) : Busy (moves.map Effect.ofMove) := by
  intro effect member
  rcases List.mem_map.mp member with ⟨move, -, rfl⟩
  exact Or.inl ⟨move, rfl⟩

theorem Busy.append {first second : List Effect} (busy : Busy first) (more : Busy second) :
    Busy (first ++ second) := by
  intro effect member
  exact (List.mem_append.mp member).elim (busy effect) (more effect)

theorem Busy.answersOf_eq {effects : List Effect} (busy : Busy effects) :
    answersOf effects = [] := by
  apply List.filterMap_eq_nil_iff.mpr
  intro effect member
  rcases busy effect member with ⟨move, rfl⟩ | ⟨ticket, rfl⟩
  · cases move <;> rfl
  · rfl

theorem Busy.left_not_mem {effects : List Effect} (busy : Busy effects) : .left ∉ effects := by
  intro left
  rcases busy .left left with ⟨move, same⟩ | ⟨ticket, same⟩
  · cases move <;> cases same
  · cases same

/-! ## Relays that last -/

/-- The sink that a relay may count on: the one of its connection, unless the peer stops
taking what is written meanwhile; then it is one that takes some writes more. -/
def Offers (sink : Relay.Sink) (events : List Event) (found : Relay.Sink) : Prop :=
  found = sink ∨ .deaf ∈ events ∧ ∃ count, found = Relay.Sink.broken.ahead count

theorem Offers.behind {sink found : Relay.Sink} {events : List Event}
    (offers : Offers sink events found) (event : Event) : Offers sink (event :: events) found :=
  offers.imp_right fun ⟨deaf, taken⟩ => ⟨List.mem_cons_of_mem event deaf, taken⟩

theorem Offers.of_take {sink found : Relay.Sink} {events : List Event}
    (offers : Offers (sink.ahead 0) (.take :: events) found) : Offers sink events found := by
  rw [Relay.Sink.ahead_zero] at offers
  exact offers.imp_right fun ⟨deaf, taken⟩ => ⟨(List.mem_cons.mp deaf).resolve_left nofun, taken⟩

namespace Connection

/-- A connection in the middle of a relay. -/
def Relays (connection : Connection) : Prop :=
  ∃ ticket session, connection.phase = .relaying ticket session

/-- A relay under way is over with the last of some events and not before. -/
structure Lasts (connection : Connection) (events : List Event) : Prop where
  during : ∀ before after, events = before ++ after → after ≠ [] →
    (connection.run before).1.Relays
  stopped : ¬ (connection.run events).1.Relays

variable {connection : Connection} {events : List Event}

theorem Lasts.tail {event : Event} (lasts : connection.Lasts (event :: events)) :
    (connection.step event).1.Lasts events where
  during before after split more :=
    lasts.during (event :: before) after (congrArg (event :: ·) split) more
  stopped := lasts.stopped

/-- Nothing happens behind the end. -/
theorem Lasts.eq_nil (lasts : connection.Lasts events) (stopped : ¬ connection.Relays) :
    events = [] := by
  apply Decidable.byContradiction
  intro more
  exact stopped (lasts.during [] events rfl more)

theorem lasts_nil (stopped : ¬ connection.Relays) : connection.Lasts [] where
  during _ _ split more := absurd (List.append_eq_nil_iff.mp split.symm).2 more
  stopped := stopped

theorem Lasts.behind {event : Event} (lasts : (connection.step event).1.Lasts events)
    (relays : connection.Relays) : connection.Lasts (event :: events) where
  during before after split more := by
    rcases before with _ | ⟨first, before⟩
    · exact relays
    · cases List.head_eq_of_cons_eq split
      exact lasts.during before after (List.tail_eq_of_cons_eq split) more
  stopped := lasts.stopped

/-- A relay came to an outcome, and its connection took it up: what stood behind the last
pull is noted, the submission is answered, and the connection goes on or leaves. -/
def Settles (connection : Connection) (ticket : Nat) (moves : List Relay.Move)
    (outcome : Relay.Outcome) (result : Connection × List Effect) : Prop :=
  ∃ (busy : List Effect) (last : Connection), Busy busy ∧ movesOf busy = moves ∧
    last.id = connection.id ∧ last.address = connection.address ∧
    result = ((last.proceed (breaks outcome)).1,
      busy ++ note (remainderOf outcome) ++ [.answered ticket (resultOf outcome)] ++
        (last.proceed (breaks outcome)).2)

theorem settles_follow (connection : Connection) (ticket : Nat) {turn : Relay.Turn}
    {outcome : Relay.Outcome} (stopped : turn.stage = .ended outcome) :
    connection.Settles ticket turn.moves outcome (connection.follow ticket turn) :=
  ⟨turn.moves.map Effect.ofMove, { connection with sink := turn.sink }, busy_moves _,
    movesOf_moves _, rfl, rfl, connection.follow_ended ticket stopped⟩

theorem not_relays_proceed (connection : Connection) (ends : Bool) :
    ¬ (connection.proceed ends).1.Relays := by
  rintro ⟨ticket, session, relaying⟩
  cases ends <;> cases relaying

theorem Settles.stopped {ticket : Nat} {moves : List Relay.Move} {outcome : Relay.Outcome}
    {result : Connection × List Effect} (settles : connection.Settles ticket moves outcome result) :
    ¬ result.1.Relays := by
  rcases settles with ⟨busy, last, -, -, -, -, rfl⟩
  exact last.not_relays_proceed _

theorem Settles.behind {next : Connection} {ticket : Nat} {moves : List Relay.Move}
    {outcome : Relay.Outcome} {result : Connection × List Effect}
    (settles : next.Settles ticket moves outcome result) (id : next.id = connection.id)
    (address : next.address = connection.address) {effects : List Effect} (busy : Busy effects) :
    connection.Settles ticket (movesOf effects ++ moves) outcome
      (result.1, effects ++ result.2) := by
  rcases settles with ⟨more, last, busier, rfl, sameId, sameAddress, rfl⟩
  refine ⟨effects ++ more, last, busy.append busier, movesOf_append _ _, sameId.trans id,
    sameAddress.trans address, ?_⟩
  simp only [List.append_assoc]

section
variable {target : Relay.Target} {info : Relay.FileInfo} {source : Relay.Source}

/-- A relay under way, behind some reads and with some moves made, comes out in the course
of some events as the session does on its own, over what is read meanwhile. -/
def ComesOut (connection : Connection) (ticket : Nat) (target : Relay.Target)
    (info : Relay.FileInfo) (source : Relay.Source) (reads : List Relay.Read)
    (moves : List Relay.Move) (events : List Event) (result : Connection × List Effect) : Prop :=
  ∃ (found : Relay.Sink) (later : List Relay.Move),
    Offers (connection.sink.ahead (Relay.writes moves).length) events found ∧
    (Relay.run target info source found (reads ++ readIn events)).moves = moves ++ later ∧
    (Relay.run target info source found (reads ++ readIn events)).unread = [] ∧
    connection.Settles ticket later
      (Relay.run target info source found (reads ++ readIn events)).outcome result

/-- A session that is over with the last of what is read. -/
theorem comesOut_of_run {ticket : Nat} {reads : List Relay.Read} {moves later : List Relay.Move}
    {found : Relay.Sink} {outcome : Relay.Outcome} {result : Connection × List Effect}
    (ran : Relay.run target info source found (reads ++ readIn events) =
      ⟨moves ++ later, outcome, []⟩)
    (offers : Offers (connection.sink.ahead (Relay.writes moves).length) events found)
    (settles : connection.Settles ticket later outcome result) :
    connection.ComesOut ticket target info source reads moves events result := by
  refine ⟨found, later, offers, ?_⟩
  rw [ran]
  exact ⟨rfl, rfl, settles⟩

/-- One event that leaves the relay under way. -/
theorem ComesOut.behind {next : Connection} {ticket : Nat} {reads read : List Relay.Read}
    {moves moved : List Relay.Move} {event : Event} {effects : List Effect}
    {result : Connection × List Effect}
    (comes : next.ComesOut ticket target info source read moved events result)
    (hears : read = reads ++ readIn [event]) (moves_eq : moved = moves ++ movesOf effects)
    (id : next.id = connection.id) (address : next.address = connection.address)
    (busy : Busy effects)
    (offers : ∀ found, Offers (next.sink.ahead (Relay.writes moved).length) events found →
      Offers (connection.sink.ahead (Relay.writes moves).length) (event :: events) found) :
    connection.ComesOut ticket target info source reads moves (event :: events)
      (result.1, effects ++ result.2) := by
  rcases comes with ⟨found, later, offered, did, unread, settles⟩
  have all : reads ++ readIn (event :: events) = read ++ readIn events := by
    rw [hears, ← List.singleton_append, readIn_append, List.append_assoc]
  refine ⟨found, movesOf effects ++ later, offers found offered, ?_, ?_, ?_⟩
  · rw [all, did, moves_eq, List.append_assoc]
  · rw [all, unread]
  · rw [all]
    exact settles.behind id address busy

/-- One event that is nothing to the session. -/
theorem ComesOut.aside {next : Connection} {ticket : Nat} {reads : List Relay.Read}
    {moves : List Relay.Move} {event : Event} {effects : List Effect}
    {result : Connection × List Effect}
    (comes : next.ComesOut ticket target info source reads moves events result)
    (id : next.id = connection.id) (address : next.address = connection.address)
    (sink : next.sink = connection.sink) (busy : Busy effects) (still : movesOf effects = [])
    (unheard : readIn [event] = []) :
    connection.ComesOut ticket target info source reads moves (event :: events)
      (result.1, effects ++ result.2) := by
  apply comes.behind _ _ id address busy
  · intro found offers
    rw [sink] at offers
    exact offers.behind event
  · rw [unheard, List.append_nil]
  · rw [still, List.append_nil]

/-- Each event is one step of the induction.  The read that ends the session is the last
event, since the relay does not last longer. -/
theorem comesOut_run {ticket : Nat} {session : Relay.Session} {reads : List Relay.Read}
    {moves : List Relay.Move} (relaying : connection.phase = .relaying ticket session)
    (underway : Relay.Underway target info source reads moves session)
    (lasts : connection.Lasts events) :
    connection.ComesOut ticket target info source reads moves events
      (connection.run events) := by
  induction events generalizing connection session reads moves with
  | nil => exact absurd ⟨ticket, session, relaying⟩ lasts.stopped
  | cons event events ih =>
    have alive := alive_of_relaying relaying
    have later := lasts.tail
    have goesOn : ∀ next : Connection, next.Lasts events → next.phase = connection.phase →
        next.ComesOut ticket target info source reads moves events (next.run events) :=
      fun next lasts same => ih (same.trans relaying) underway lasts
    have steps := connection.steps event
    rw [run]
    generalize connection.step event = result at steps later ⊢
    cases steps with
    | refuses submission gone => exact absurd gone alive
    | notes octet octets idle => cases idle.symm.trans relaying
    | loses read idle lost => cases idle.symm.trans relaying
    | takes submission waiting idle first => cases idle.symm.trans relaying
    | defers submission alive =>
      exact (goesOn _ later rfl).aside rfl rfl rfl (busy_moves []) rfl rfl
    | enters submission waiting first room =>
      refine (goesOn _ later rfl).aside rfl rfl rfl ?_ ?_ rfl
      · intro effect member
        exact Or.inr ⟨_, List.mem_singleton.mp (List.mem_ite_nil_right.mp member).2⟩
      · split <;> rfl
    | deafens =>
      refine (goesOn _ later rfl).behind (List.append_nil _).symm (List.append_nil _).symm
        rfl rfl (busy_moves []) ?_
      intro found offers
      right
      refine ⟨List.mem_cons_self, ?_⟩
      rcases offers with rfl | ⟨-, taken⟩
      · exact ⟨_, rfl⟩
      · exact taken
    | stays event unsubmitted unheard listening =>
      refine (goesOn _ later rfl).aside rfl rfl rfl (busy_moves []) rfl ?_
      cases event with
      | read read => exact absurd (unheard read rfl) alive
      | _ => rfl
    | hears heardTicket heard read relays =>
      cases relaying.symm.trans relays
      have spends : connection.sink = (session.hear connection.sink read).sink.ahead
          (Relay.writes (session.hear connection.sink read).moves).length :=
        session.hear_spends connection.sink read
      cases stage : (session.hear connection.sink read).stage with
      | waiting next =>
        rw [connection.follow_waiting ticket stage] at later ⊢
        refine (ih rfl (underway.hear stage) later).behind rfl ?_ rfl rfl (busy_moves _) ?_
        · rw [movesOf_moves]
        · intro found offers
          rw [Relay.writes_append, List.length_append, Nat.add_comm, ← Relay.Sink.ahead_ahead,
            ← spends] at offers
          exact offers.behind _
      | ended outcome =>
        have settles := connection.settles_follow ticket stage
        cases later.eq_nil settles.stopped
        have ran := underway.hear_ended stage []
        rw [List.append_nil] at ran
        apply comesOut_of_run ran (Or.inl rfl)
        simpa only [run, List.append_nil] using settles

/-! ## From taking up the job on -/

section
variable {start : Connection} {ticket : Nat} {queue : List Submission}

theorem step_take (idle : start.phase = .idle)
    (first : start.queue = ⟨ticket, .relay target info source⟩ :: queue) :
    start.step .take = { start with queue := queue }.follow ticket
      (Relay.start target info source start.sink) := by
  simp only [step, takeUp, idle, first, execute]

/-- A relay that is taken up comes out the way the session does on its own. -/
theorem comesOut_take (idle : start.phase = .idle)
    (first : start.queue = ⟨ticket, .relay target info source⟩ :: queue)
    (lasts : (start.step .take).1.Lasts events) :
    start.ComesOut ticket target info source [] [] (.take :: events)
      (start.run (.take :: events)) := by
  have taken := step_take idle first
  rw [run]
  rw [taken] at lasts ⊢
  cases stage : (Relay.start target info source start.sink).stage with
  | waiting session =>
    have spends := Relay.start_spends target info source start.sink
    rw [follow_waiting _ ticket stage] at lasts ⊢
    refine (comesOut_run rfl (Relay.underway_start stage) lasts).behind rfl ?_ rfl rfl
      (busy_moves _) ?_
    · rw [movesOf_moves]
      rfl
    · intro found offers
      rw [← spends] at offers
      change Offers (start.sink.ahead 0) _ found
      rw [Relay.Sink.ahead_zero]
      exact offers.behind .take
  | ended outcome =>
    have settles : start.Settles ticket _ outcome _ :=
      settles_follow { start with queue := queue } ticket stage
    cases lasts.eq_nil settles.stopped
    apply comesOut_of_run (Relay.run_of_start_ended stage []) (Or.inl start.sink.ahead_zero.symm)
    simpa only [run, List.append_nil] using settles

/-! ## Serving on, or leaving -/

/-- A connection serves on: it is idle, it has answered its relay and nobody else, and its
registration stays. -/
structure Serves (connection : Connection) (ticket : Nat) (answer : Answer)
    (result : Connection × List Effect) : Prop where
  idle : result.1.phase = .idle
  answered : answersOf result.2 = [(ticket, answer)]
  registered : ∀ registry, Floor.deregister registry connection result.2 = registry

/-- A connection is gone: it has answered its relay and refused the others, and it is not
registered any more. -/
structure Leaves (connection : Connection) (ticket : Nat) (answer : Answer)
    (result : Connection × List Effect) : Prop where
  ended : result.1.phase = .ended
  answered : ∃ refused : List Submission, answersOf result.2 =
    (ticket, answer) :: refused.map fun submission =>
      (submission.ticket, .failed (.connectionClosed connection.address))
  unregistered : ∀ registry handle,
    (Floor.deregister registry connection result.2).resolve connection.address = some handle →
      handle.id ≠ connection.id

/-- What is left at the address of a connection that left is not its own. -/
theorem id_ne_of_left {registry : Registry Handle} {effects : List Effect} {handle : Handle}
    (left : .left ∈ effects)
    (found : (Floor.deregister registry start effects).resolve start.address = some handle) :
    handle.id ≠ start.id := by
  by_cases own : ∃ stored, registry.resolve start.address = some stored ∧ stored.id = start.id
  · rcases own with ⟨stored, registered, same⟩
    rw [Floor.resolve_deregister_self registered same left] at found
    cases found
  · have replaced : ∀ stored, registry.resolve start.address = some stored →
        stored.id ≠ start.id := fun stored registered same => own ⟨stored, registered, same⟩
    rw [Floor.deregister_of_replaced replaced] at found
    exact replaced handle found

theorem answersOf_settled {busy : List Effect} (quiet : Busy busy) (text : Bytes) (ticket : Nat)
    (outcome : Relay.Outcome) (more : List Effect) :
    answersOf (busy ++ note text ++ [.answered ticket (resultOf outcome)] ++ more) =
      (ticket, resultOf outcome) :: answersOf more := by
  have answer : answersOf [.answered ticket (resultOf outcome)] =
      [(ticket, resultOf outcome)] := by
    cases outcome <;> rfl
  rw [answersOf_append, answersOf_append, answersOf_append, quiet.answersOf_eq,
    (unanswering_note text).answersOf_eq, answer]
  rfl

theorem left_not_mem_settled {busy : List Effect} (quiet : Busy busy) (text : Bytes) (ticket : Nat)
    (answer : Answer) : .left ∉ busy ++ note text ++ [.answered ticket answer] := by
  intro left
  rcases List.mem_append.mp left with before | last
  · rcases List.mem_append.mp before with early | noted
    · exact quiet.left_not_mem early
    · exact left_not_mem_note text noted
  · cases List.mem_singleton.mp last

theorem Settles.serves {moves : List Relay.Move} {outcome : Relay.Outcome}
    {result : Connection × List Effect} (settles : start.Settles ticket moves outcome result)
    (whole : breaks outcome = false) : start.Serves ticket (resultOf outcome) result := by
  rcases settles with ⟨busy, last, quiet, -, -, -, rfl⟩
  rw [whole, proceed, if_neg Bool.false_ne_true]
  constructor
  case idle => rfl
  case answered => exact answersOf_settled quiet _ ticket outcome []
  case registered =>
    intro registry
    apply Floor.deregister_of_stays
    rw [List.append_nil]
    exact left_not_mem_settled quiet _ ticket _

theorem Settles.leaves {moves : List Relay.Move} {outcome : Relay.Outcome}
    {result : Connection × List Effect} (settles : start.Settles ticket moves outcome result)
    (broken : breaks outcome = true) : start.Leaves ticket (resultOf outcome) result := by
  rcases settles with ⟨busy, last, quiet, -, id, address, rfl⟩
  rw [broken, proceed, if_pos rfl]
  constructor
  case ended => rfl
  case answered =>
    rw [answersOf_settled quiet _ ticket outcome, ← address]
    exact ⟨_, congrArg _ (Account.answersOf_refusals last _)⟩
  case unregistered =>
    intro registry handle found
    refine id_ne_of_left ?_ found
    exact List.mem_append_right _ ((persists_leave last).left.mpr rfl)

theorem Settles.idle_iff {moves : List Relay.Move} {outcome : Relay.Outcome}
    {result : Connection × List Effect} (settles : start.Settles ticket moves outcome result) :
    result.1.phase = .idle ↔ breaks outcome = false := by
  cases broken : breaks outcome with
  | false => exact ⟨fun _ => rfl, fun _ => (settles.serves broken).idle⟩
  | true =>
    refine ⟨fun idle => ?_, nofun⟩
    cases idle.symm.trans (settles.leaves broken).ended

/-- Only a session that has finished or has not touched its stream leaves it whole. -/
theorem breaks_eq_false_iff (target : Relay.Target) (info : Relay.FileInfo)
    (source : Relay.Source) (sink : Relay.Sink) (reads : List Relay.Read) :
    breaks (Relay.run target info source sink reads).outcome = false ↔
      (∃ summary remainder,
        (Relay.run target info source sink reads).outcome = .finished summary remainder) ∨
      Relay.Target.maxFileSize < info.size := by
  cases outcome : (Relay.run target info source sink reads).outcome with
  | finished summary remainder => exact ⟨fun _ => Or.inl ⟨_, _, rfl⟩, fun _ => rfl⟩
  | failed fault =>
    rcases Relay.unannounced_or_severed outcome with ⟨large, -, rfl⟩ | ⟨announceable, severs⟩
    · exact ⟨fun _ => Or.inr large, fun _ => rfl⟩
    · have fatal : breaks (.failed fault) = true := isFatal_of_severs severs
      rw [fatal]
      constructor
      · exact nofun
      · rintro (⟨summary, remainder, same⟩ | large)
        · cases same
        · exact absurd large (Nat.not_lt.mpr announceable)

theorem failed_of_breaks {sink : Relay.Sink} {reads : List Relay.Read}
    (broken : breaks (Relay.run target info source sink reads).outcome = true) :
    ∃ fault, Relay.Severs fault ∧
      (Relay.run target info source sink reads).outcome = .failed fault := by
  cases outcome : (Relay.run target info source sink reads).outcome with
  | finished summary remainder =>
    rw [outcome] at broken
    cases broken
  | failed fault =>
    rcases Relay.unannounced_or_severed outcome with ⟨-, -, rfl⟩ | ⟨-, severs⟩
    · rw [outcome] at broken
      cases broken
    · exact ⟨fault, severs, rfl⟩

/-! ## Clean boundaries -/

/-- A relay of a file that is too large to be announced is over when it is taken up. -/
theorem step_take_large (idle : start.phase = .idle)
    (first : start.queue = ⟨ticket, .relay target info source⟩ :: queue)
    (large : Relay.Target.maxFileSize < info.size) :
    ¬ (start.step .take).1.Relays ∧
      (start.step .take).2 = [.answered ticket (.failed Relay.overflow)] := by
  have refused : target.metadata info = .error Relay.overflow := if_pos large
  have opens : Relay.start target info source start.sink =
      .failed start.sink Relay.overflow := by
    simp only [Relay.start, refused]
  rw [step_take idle first, opens]
  constructor
  · rintro ⟨_, session, relaying⟩
    cases relaying
  · rfl

/-- A relay that has finished is over behind its ending record.  What was read is the pulls
that it took and the text that was noted before it was answered. -/
structure Clean (target : Relay.Target) (ticket : Nat) (exchange : Relay.Exchange)
    (reads : List Relay.Read) (effects : List Effect) (summary : Relay.Summary)
    (remainder : Bytes) : Prop where
  marked : ∃ earlier, outputOf effects = earlier ++ [(Relay.Record.ending target.channel).octets]
  noted : ∃ busy, Busy busy ∧
    effects = busy ++ note remainder ++ [.answered ticket (.relayed summary)]
  read : reads.flatMap Relay.Read.content =
    (Relay.taken exchange.moves).flatMap Relay.Pull.octets ++ remainder

theorem movesOf_proceed (connection : Connection) (ends : Bool) :
    movesOf (connection.proceed ends).2 = [] := by
  cases ends with
  | true => exact movesOf_leave connection
  | false => rfl

theorem Settles.moves {moves : List Relay.Move} {outcome : Relay.Outcome}
    {result : Connection × List Effect} (settles : start.Settles ticket moves outcome result) :
    movesOf result.2 = moves := by
  rcases settles with ⟨busy, last, quiet, rfl, id, address, rfl⟩
  have answer : movesOf [.answered ticket (resultOf outcome)] = [] := rfl
  rw [movesOf_append, movesOf_append, movesOf_append, movesOf_note, movesOf_proceed, answer,
    List.append_nil, List.append_nil, List.append_nil]

theorem Settles.noted {moves : List Relay.Move} {summary : Relay.Summary} {remainder : Bytes}
    {result : Connection × List Effect}
    (settles : start.Settles ticket moves (.finished summary remainder) result) :
    ∃ busy, Busy busy ∧
      result.2 = busy ++ note remainder ++ [.answered ticket (.relayed summary)] := by
  rcases settles with ⟨busy, last, quiet, -, -, -, rfl⟩
  exact ⟨busy, quiet, List.append_nil _⟩

/-- A connection serves on behind a relay if and only if the session has finished or the
file was too large to be announced.  Then the stream stands at a clean boundary: behind the
ending record, with everything told that was read, or where it stood before.  Otherwise the
connection leaves, and the submission is answered with what severed the session. -/
theorem serves_iff_clean {later : List Event} (idle : start.phase = .idle)
    (first : start.queue = ⟨ticket, .relay target info source⟩ :: queue)
    (lasts : (start.step .take).1.Lasts later) :
    ∃ sink, Offers start.sink later sink ∧
      let exchange := Relay.run target info source sink (readIn later)
      let result := start.run (.take :: later)
      movesOf result.2 = exchange.moves ∧ exchange.unread = [] ∧
      (result.1.phase = .idle ↔
        (∃ summary remainder, exchange.outcome = .finished summary remainder) ∨
          Relay.Target.maxFileSize < info.size) ∧
      (result.1.phase = .idle → start.Serves ticket (resultOf exchange.outcome) result) ∧
      (∀ summary remainder, exchange.outcome = .finished summary remainder →
        Clean target ticket exchange (readIn later) result.2 summary remainder) ∧
      (Relay.Target.maxFileSize < info.size →
        later = [] ∧ result.2 = [.answered ticket (.failed Relay.overflow)]) ∧
      (result.1.phase ≠ .idle → ∃ fault, Relay.Severs fault ∧
        exchange.outcome = .failed fault ∧ start.Leaves ticket (.failed fault) result) := by
  rcases comesOut_take idle first lasts with ⟨sink, moves, offers, did, unread, settles⟩
  change (Relay.run target info source sink (readIn later)).moves = moves at did
  change (Relay.run target info source sink (readIn later)).unread = [] at unread
  change start.Settles ticket moves (Relay.run target info source sink (readIn later)).outcome _
    at settles
  refine ⟨sink, offers.of_take, settles.moves.trans did.symm, unread, ?_, ?_, ?_, ?_, ?_⟩
  · exact settles.idle_iff.trans (breaks_eq_false_iff target info source sink (readIn later))
  · exact fun rests => settles.serves (settles.idle_iff.mp rests)
  · intro summary remainder finished
    rw [finished] at settles
    constructor
    case marked =>
      rw [outputOf_eq_writes, settles.moves, ← did]
      exact Relay.ends_with_ending finished
    case noted => exact settles.noted
    case read =>
      have read := Relay.read_of_finished finished
      rwa [unread, List.flatMap_nil, List.append_nil] at read
  · intro large
    rcases step_take_large idle first large with ⟨stopped, effects⟩
    cases lasts.eq_nil stopped
    refine ⟨rfl, ?_⟩
    simp only [run, effects, List.append_nil]
  · intro gone
    have broken := eq_true_of_ne_false fun whole => gone (settles.idle_iff.mpr whole)
    rcases failed_of_breaks broken with ⟨fault, severs, failed⟩
    have leaves := settles.leaves broken
    rw [failed] at leaves
    exact ⟨fault, severs, failed, leaves⟩

end

end

/-- A relay of three octets to the bridge, first in the queue of a connection, and data
behind it. -/
def relayFirst : Connection where
  id := 1
  address := .v4 10 40000
  depth := 4
  bufferSize := 16
  sink := .endless
  phase := .idle
  queue := [⟨7, .relay .bridge (.of [1, 2, 3]) (.ofBytes [1, 2, 3])⟩, ⟨8, .send [1]⟩]
  waiting := []

/-- The peer pulls more than the file holds and has an octet of text behind that; or it is
gone with one octet of a pull sent. -/
theorem serves_iff_clean_or_cut_off :
    relayFirst.Serves 7 (.relayed ⟨1, 3⟩)
      (relayFirst.run [.take, .read (.octets [0, 5, 0, 111])]) ∧
    relayFirst.Leaves 7 (.failed (.peerClosed 3 1))
      (relayFirst.run [.take, .read (.octets [0]), .read (.octets [])]) := by
  have relays : (relayFirst.step .take).1.Relays := ⟨_, _, rfl⟩
  have waits : ((relayFirst.step .take).1.step (.read (.octets [0]))).1.Relays := by
    refine ⟨7, ⟨.bridge, .ofBytes [1, 2, 3], [0], ⟨0, 0⟩⟩, ?_⟩
    decide +kernel
  constructor
  · have stopped : ((relayFirst.step .take).1.step (.read (.octets [0, 5, 0, 111]))).1.phase =
        .idle := by decide +kernel
    have lasts : (relayFirst.step .take).1.Lasts [.read (.octets [0, 5, 0, 111])] := by
      refine (lasts_nil ?_).behind relays
      rintro ⟨ticket, session, relaying⟩
      cases stopped.symm.trans relaying
    rcases serves_iff_clean rfl rfl lasts with ⟨sink, same | ⟨deaf, -⟩, -, -, -, serves, -⟩
    · subst same
      have finished : resultOf (Relay.run .bridge (.of [1, 2, 3]) (.ofBytes [1, 2, 3])
          relayFirst.sink [.octets [0, 5, 0, 111]]).outcome = .relayed ⟨1, 3⟩ := by
        decide +kernel
      exact finished ▸ serves stopped
    · exact absurd deaf (by decide)
  · have stopped : (((relayFirst.step .take).1.step (.read (.octets [0]))).1.step
        (.read (.octets []))).1.phase = .ended := by decide +kernel
    have lasts : (relayFirst.step .take).1.Lasts
        [.read (.octets [0]), .read (.octets [])] := by
      refine ((lasts_nil ?_).behind waits).behind relays
      rintro ⟨ticket, session, relaying⟩
      cases stopped.symm.trans relaying
    rcases serves_iff_clean rfl rfl lasts with ⟨sink, same | ⟨deaf, -⟩, -, -, -, -, -, -, leaves⟩
    · subst same
      rcases leaves (fun idle => by cases stopped.symm.trans idle) with ⟨fault, -, failed, gone⟩
      have closed : (Relay.run .bridge (.of [1, 2, 3]) (.ofBytes [1, 2, 3])
          relayFirst.sink [.octets [0], .octets []]).outcome = .failed (.peerClosed 3 1) := by
        decide +kernel
      cases closed.symm.trans failed
      exact gone
    · exact absurd deaf (by decide)

end Connection

end Bridge
end FirmwareGateway
