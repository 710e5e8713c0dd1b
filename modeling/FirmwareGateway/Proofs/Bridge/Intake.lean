import FirmwareGateway.Proofs.Bridge.Account
import FirmwareGateway.Proofs.Relay.Intake

namespace FirmwareGateway
namespace Bridge

/-!
# Nothing that is read gets lost

What a connection reads goes to one of two places: a relay takes it as pulls, or it is
noted as status text.  In between, the relay that is under way holds less than a pull.
So what a connection tells, with what it holds, is what it has read, wherever the stream
was cut and whatever work came in between.  Octets are lost only where a relay fails and
takes the connection with it, and then they are the last.
-/

/-- What some effects tell of the peer's stream: the pulls that relays took and the text
that was noted. -/
def toldOf (effects : List Effect) : Bytes :=
  effects.flatMap fun
    | .pulled pull => pull.octets
    | .noted text => text
    | _ => []

theorem toldOf_append (first second : List Effect) :
    toldOf (first ++ second) = toldOf first ++ toldOf second :=
  List.flatMap_append

theorem toldOf_moves (moves : List Relay.Move) :
    toldOf (moves.map Effect.ofMove) = (Relay.taken moves).flatMap Relay.Pull.octets := by
  induction moves with
  | nil => rfl
  | cons move moves ih =>
    cases move with
    | pulled pull => exact congrArg (pull.octets ++ ·) ih
    | wrote bytes => exact ih

theorem toldOf_note (text : Bytes) : toldOf (note text) = text := by
  cases text with
  | nil => rfl
  | cons octet octets => exact List.append_nil (octet :: octets)

namespace Connection

/-- What a connection has read and not told. -/
def held (connection : Connection) : Bytes :=
  match connection.phase with
  | .relaying _ session => session.buffer
  | _ => []

/-- What a connection reads at an event.  One that has ended reads nothing. -/
def consumes (connection : Connection) : Event → Bytes
  | .read read => if connection.hasEnded then [] else read.content
  | _ => []

/-- What a connection reads in the course of some events. -/
def consumed (connection : Connection) : List Event → Bytes
  | [] => []
  | event :: later => connection.consumes event ++ (connection.step event).1.consumed later

/-- What the relay of a connection comes to at an event, if it is over then. -/
def relayed? (connection : Connection) : Event → Option Relay.Outcome
  | .take =>
    match connection.phase, connection.queue with
    | .idle, ⟨_, .relay target info source⟩ :: _ =>
      (Relay.start target info source connection.sink).stage.outcome?
    | _, _ => none
  | .read read =>
    match connection.phase with
    | .relaying _ session => (session.hear connection.sink read).stage.outcome?
    | _ => none
  | _ => none

variable {connection : Connection}

/-! ## Leaving -/

theorem toldOf_leave (connection : Connection) : toldOf connection.leave.2 = [] := by
  have untold : ∀ refused : List Submission,
      toldOf (refused.map connection.refusal ++ [.left]) = [] := by
    intro refused
    induction refused with
    | nil => rfl
    | cons submission later ih => exact ih
  exact untold _

theorem toldOf_proceed (connection : Connection) (ends : Bool) :
    toldOf (connection.proceed ends).2 = [] := by
  cases ends with
  | true => exact connection.toldOf_leave
  | false => rfl

theorem held_proceed (connection : Connection) (ends : Bool) :
    (connection.proceed ends).1.held = [] := by
  cases ends <;> rfl

/-! ## What one event does -/

/-- What a connection held and read is what it tells and what it holds then, except that
a relay that ends the connection loses some. -/
def Conserves (octets : Bytes) (ended : Option Relay.Outcome)
    (result : Connection × List Effect) : Prop :=
  ∃ lost, octets = toldOf result.2 ++ result.1.held ++ lost ∧
    (lost ≠ [] → result.1.phase = .ended ∧ ∃ outcome, ended = some outcome ∧ breaks outcome = true)

/-- Nothing is lost where what is told and what is held add up. -/
theorem conserves_of_kept {octets : Bytes} {ended : Option Relay.Outcome}
    {result : Connection × List Effect} (kept : toldOf result.2 ++ result.1.held = octets) :
    Conserves octets ended result :=
  ⟨[], by rw [List.append_nil, kept], fun some => absurd rfl some⟩

theorem isFatal_of_severs {fault : Error} (severs : Relay.Severs fault) : isFatal fault = true := by
  cases severs <;> rfl

theorem rest_ended (outcome : Relay.Outcome) :
    (Relay.Stage.ended outcome).rest = remainderOf outcome := by
  cases outcome <;> rfl

theorem conserves_follow (connection : Connection) (ticket : Nat) {turn : Relay.Turn}
    {octets : Bytes} (conserves : turn.Conserves octets) :
    Conserves octets turn.stage.outcome? (connection.follow ticket turn) := by
  rcases conserves with ⟨lost, split, severed⟩
  refine ⟨lost, ?_, ?_⟩
  · cases stage : turn.stage with
    | waiting session =>
      rw [stage] at split
      rw [connection.follow_waiting ticket stage, toldOf_moves]
      exact split
    | ended outcome =>
      rw [stage, rest_ended] at split
      rw [connection.follow_ended ticket stage, held_proceed, toldOf_append, toldOf_proceed,
        toldOf_append, toldOf_append, toldOf_moves, toldOf_note, split]
      simp only [toldOf, List.flatMap_cons, List.flatMap_nil, List.append_nil]
  · intro some
    rcases severed some with ⟨fault, failed, severs⟩
    have fatal : breaks (.failed fault) = true := isFatal_of_severs severs
    rw [connection.follow_ended ticket failed, failed, fatal]
    exact ⟨rfl, .failed fault, rfl, fatal⟩

theorem held_of_idle (idle : connection.phase = .idle) : connection.held = [] := by
  simp only [held, idle]

theorem toldOf_write (connection : Connection) (ticket : Nat) (bytes : Bytes) :
    toldOf (connection.write ticket bytes).2 = [] := by
  have ends := connection.write_ends ticket bytes
  generalize connection.write ticket bytes = result at ends ⊢
  cases ends with
  | nothing none => rfl
  | taken some sink took => rfl
  | refused some fault full => exact connection.toldOf_leave

theorem held_write (idle : connection.phase = .idle) (ticket : Nat) (bytes : Bytes) :
    (connection.write ticket bytes).1.held = [] := by
  have ends := connection.write_ends ticket bytes
  generalize connection.write ticket bytes = result at ends ⊢
  cases ends with
  | nothing none => exact held_of_idle idle
  | taken some sink took => exact held_of_idle idle
  | refused some fault full => rfl

theorem conserves_execute (idle : connection.phase = .idle) {submission : Submission}
    {later : List Submission} (first : connection.queue = submission :: later) :
    Conserves [] (connection.relayed? .take)
      ({ connection with queue := later }.execute submission) := by
  rcases submission with ⟨ticket, ⟨target, info, source⟩ | bytes | _⟩
  · have opens : connection.relayed? .take =
        (Relay.start target info source connection.sink).stage.outcome? := by
      simp only [relayed?, idle, first]
    rw [opens]
    exact conserves_follow _ ticket (Relay.conserves_start target info source connection.sink)
  · change Conserves [] _ (write { connection with queue := later } ticket bytes)
    have still : ({ connection with queue := later } : Connection).phase = .idle := idle
    apply conserves_of_kept
    rw [toldOf_write, held_write still]
    rfl
  · apply conserves_of_kept
    exact congrArg (· ++ []) (toldOf_leave { connection with queue := later })

theorem consumes_of_alive (alive : connection.phase ≠ .ended) (read : Relay.Read) :
    connection.consumes (.read read) = read.content := by
  have lives : ¬ connection.hasEnded = true := by
    rw [hasEnded_iff]
    exact alive
  rw [consumes, if_neg lives]

/-- The events that read nothing. -/
theorem consumes_eq_nil {event : Event}
    (unheard : ∀ read, event = .read read → connection.phase = .ended) :
    connection.consumes event = [] := by
  cases event with
  | read read =>
    have gone : connection.hasEnded = true := connection.hasEnded_iff.mpr (unheard read rfl)
    rw [consumes, if_pos gone]
  | _ => rfl

theorem conserves_step (connection : Connection) (event : Event) :
    Conserves (connection.held ++ connection.consumes event) (connection.relayed? event)
      (connection.step event) := by
  have steps := connection.steps event
  generalize connection.step event = result at steps ⊢
  cases steps with
  | refuses submission gone => exact conserves_of_kept (List.append_nil _).symm
  | defers submission alive => exact conserves_of_kept (List.append_nil _).symm
  | enters submission later first room =>
    apply conserves_of_kept
    split <;> exact (List.append_nil connection.held).symm
  | deafens => exact conserves_of_kept (List.append_nil _).symm
  | stays event unsubmitted unheard listening =>
    apply conserves_of_kept
    rw [consumes_eq_nil unheard, List.append_nil]
    rfl
  | notes octet octets idle =>
    apply conserves_of_kept
    rw [consumes_of_alive (alive_of_idle idle), held_of_idle idle, List.append_nil]
    exact List.append_nil (octet :: octets)
  | loses read idle lost =>
    apply conserves_of_kept
    have nothing : read.content = [] := by
      rcases lost with rfl | ⟨fault, rfl⟩ <;> rfl
    rw [consumes_of_alive (alive_of_idle idle), held_of_idle idle, nothing]
    exact congrArg (· ++ []) connection.toldOf_leave
  | takes submission later idle first =>
    rw [held_of_idle idle]
    exact conserves_execute idle first
  | hears ticket session read relaying =>
    have heard : connection.relayed? (.read read) =
        (session.hear connection.sink read).stage.outcome? := by
      simp only [relayed?, relaying]
    have holds : connection.held = session.buffer := by
      simp only [held, relaying]
    rw [consumes_of_alive (alive_of_relaying relaying), holds, heard]
    exact connection.conserves_follow ticket (session.conserves_hear connection.sink read)

/-! ## What a connection holds -/

theorem short_follow (connection : Connection) (ticket : Nat) {turn : Relay.Turn}
    (short : ∀ session, turn.stage = .waiting session → session.buffer.length < Relay.Pull.size) :
    (connection.follow ticket turn).1.held.length < Relay.Pull.size := by
  cases stage : turn.stage with
  | waiting session =>
    rw [connection.follow_waiting ticket stage]
    exact short session stage
  | ended outcome =>
    rw [connection.follow_ended ticket stage, held_proceed]
    decide

/-- Less than a pull is held between events. -/
theorem short_step (short : connection.held.length < Relay.Pull.size) (event : Event) :
    (connection.step event).1.held.length < Relay.Pull.size := by
  have nothing : ([] : Bytes).length < Relay.Pull.size := by decide
  have steps := connection.steps event
  generalize connection.step event = result at steps ⊢
  cases steps with
  | refuses submission gone => exact short
  | defers submission alive => exact short
  | enters submission later first room => exact short
  | deafens => exact short
  | stays event unsubmitted unheard listening => exact short
  | notes octet octets idle => exact short
  | loses read idle lost => exact nothing
  | takes submission later idle first =>
    rcases submission with ⟨ticket, ⟨target, info, source⟩ | bytes | _⟩
    · apply short_follow
      intro session waits
      rw [Relay.buffer_of_start waits]
      exact nothing
    · change (write { connection with queue := later } ticket bytes).1.held.length < _
      have still : ({ connection with queue := later } : Connection).phase = .idle := idle
      rw [held_write still]
      exact nothing
    · exact nothing
  | hears ticket session read relaying =>
    apply short_follow
    intro next waits
    exact Relay.Session.short_of_hear waits

/-! ## Whatever happens -/

theorem ended_run (gone : connection.phase = .ended) (events : List Event) :
    (connection.run events).1.phase = .ended := by
  induction events generalizing connection with
  | nil => exact gone
  | cons event later ih =>
    rcases step_of_ended gone event with ⟨-, -, still, -⟩
    exact ih still

theorem consumed_of_ended (gone : connection.phase = .ended) (events : List Event) :
    connection.consumed events = [] := by
  induction events generalizing connection with
  | nil => rfl
  | cons event later ih =>
    rcases step_of_ended gone event with ⟨-, -, still, -⟩
    rw [consumed, consumes_eq_nil fun _ _ => gone, ih still]
    rfl

/-- A relay ends a connection in the course of some events. -/
def Severed (connection : Connection) (events : List Event) : Prop :=
  ∃ before event after outcome, events = before ++ event :: after ∧
    (connection.run before).1.relayed? event = some outcome ∧ breaks outcome = true

theorem Severed.behind {event : Event} {later : List Event}
    (severed : (connection.step event).1.Severed later) : connection.Severed (event :: later) := by
  rcases severed with ⟨before, breaking, after, outcome, rfl, ended, broken⟩
  exact ⟨event :: before, breaking, after, outcome, rfl, ended, broken⟩

theorem short_run (short : connection.held.length < Relay.Pull.size) (events : List Event) :
    (connection.run events).1.held.length < Relay.Pull.size := by
  induction events generalizing connection with
  | nil => exact short
  | cons event later ih => exact ih (short_step short event)

/-- Each event is one step of the induction.  What is lost is lost at the end: a
connection that a relay has ended reads nothing more. -/
theorem conserves_run (connection : Connection) (events : List Event) :
    ∃ lost, connection.held ++ connection.consumed events =
        toldOf (connection.run events).2 ++ (connection.run events).1.held ++ lost ∧
      (lost ≠ [] → (connection.run events).1.phase = .ended ∧ connection.Severed events) := by
  induction events generalizing connection with
  | nil => exact ⟨[], rfl, fun some => absurd rfl some⟩
  | cons event later ih =>
    rcases connection.conserves_step event with ⟨first, split, severs⟩
    rcases ih (connection.step event).1 with ⟨lost, splits, severed⟩
    simp only [consumed, run]
    rw [toldOf_append, ← List.append_assoc, split]
    by_cases none : first = []
    · refine ⟨lost, ?_, fun some => ?_⟩
      · rw [none, List.append_nil, List.append_assoc, splits]
        simp only [List.append_assoc]
      · rcases severed some with ⟨gone, behind⟩
        exact ⟨gone, behind.behind⟩
    · rcases severs none with ⟨gone, outcome, ended, broken⟩
      have silent := consumed_of_ended gone later
      have nothing : (connection.step event).1.held = [] := by
        simp only [held, gone]
      rw [silent, nothing, List.append_nil] at splits
      rcases List.append_eq_nil_iff.mp splits.symm with ⟨kept, -⟩
      rcases List.append_eq_nil_iff.mp kept with ⟨untold, unheld⟩
      refine ⟨first, ?_, fun _ => ⟨ended_run gone later, ?_⟩⟩
      · rw [silent, nothing, untold, unheld]
        simp only [List.append_nil]
      · exact ⟨[], event, later, outcome, rfl, ended, broken⟩

theorem run_append (connection : Connection) (first second : List Event) :
    connection.run (first ++ second) =
      (((connection.run first).1.run second).1,
        (connection.run first).2 ++ ((connection.run first).1.run second).2) := by
  induction first generalizing connection with
  | nil => rfl
  | cons event first ih => simp only [List.cons_append, run, ih, List.append_assoc]

theorem run_concat (connection : Connection) (events : List Event) (event : Event) :
    connection.run (events ++ [event]) =
      (((connection.run events).1.step event).1,
        (connection.run events).2 ++ ((connection.run events).1.step event).2) := by
  rw [run_append]
  simp only [run, List.append_nil]

/-- A relay that is over at an event was followed to its end there. -/
theorem follows_of_relayed {event : Event} {outcome : Relay.Outcome}
    (ended : connection.relayed? event = some outcome) :
    ∃ (before : Connection) (ticket : Nat) (turn : Relay.Turn),
      connection.step event = before.follow ticket turn ∧ turn.stage = .ended outcome := by
  have stage_eq : ∀ {turn : Relay.Turn}, turn.stage.outcome? = some outcome →
      turn.stage = .ended outcome := by
    intro turn came
    cases stage : turn.stage with
    | waiting session =>
      rw [stage] at came
      cases came
    | ended reached =>
      rw [stage] at came
      cases came
      rfl
  cases event with
  | take =>
    cases phase : connection.phase with
    | idle =>
      rcases first : connection.queue with _ | ⟨⟨ticket, ⟨target, info, source⟩ | bytes | _⟩, later⟩
      · simp only [relayed?, phase, first, reduceCtorEq] at ended
      · simp only [relayed?, phase, first] at ended
        refine ⟨{ connection with queue := later }, ticket, _, ?_, stage_eq ended⟩
        simp only [step, takeUp, phase, first, execute]
      · simp only [relayed?, phase, first, reduceCtorEq] at ended
      · simp only [relayed?, phase, first, reduceCtorEq] at ended
    | relaying ticket session => simp only [relayed?, phase, reduceCtorEq] at ended
    | ended => simp only [relayed?, phase, reduceCtorEq] at ended
  | read read =>
    cases phase : connection.phase with
    | relaying ticket session =>
      simp only [relayed?, phase] at ended
      exact ⟨connection, ticket, _, receive_relaying phase read, stage_eq ended⟩
    | idle => simp only [relayed?, phase, reduceCtorEq] at ended
    | ended => simp only [relayed?, phase, reduceCtorEq] at ended
  | _ => cases ended

/-- A relay that breaks the stream ends the connection. -/
theorem ended_of_breaks {event : Event} {outcome : Relay.Outcome}
    (ended : connection.relayed? event = some outcome) (broken : breaks outcome = true) :
    (connection.step event).1.phase = .ended := by
  rcases follows_of_relayed ended with ⟨before, ticket, turn, follows, stage⟩
  rw [follows, before.follow_ended ticket stage, broken]
  rfl

theorem Severed.ended {events : List Event} (severed : connection.Severed events) :
    (connection.run events).1.phase = .ended := by
  rcases severed with ⟨before, event, after, outcome, rfl, ended, broken⟩
  rw [run_append]
  exact ended_run (ended_of_breaks ended broken) after

/-- What a connection reads is what the peer sends, in order, up to where the connection
ended. -/
theorem consumed_prefix (connection : Connection) (events : List Event) :
    connection.consumed events <+: (readIn events).flatMap Relay.Read.content := by
  induction events generalizing connection with
  | nil => exact List.prefix_rfl
  | cons event later ih =>
    by_cases gone : connection.phase = .ended
    · rw [consumed_of_ended gone]
      exact List.nil_prefix
    · cases event with
      | read read =>
        rw [consumed, consumes_of_alive gone]
        exact (List.prefix_append_right_inj read.content).mpr (ih _)
      | _ => exact ih _

/-! ## Relays that have finished -/

theorem unrelayed_leave (connection : Connection) (ticket : Nat) (summary : Relay.Summary) :
    .answered ticket (.relayed summary) ∉ connection.leave.2 := by
  intro member
  rcases List.mem_append.mp member with refused | left
  · rcases List.mem_map.mp refused with ⟨submission, -, same⟩
    cases same
  · cases List.mem_singleton.mp left

theorem unrelayed_write (connection : Connection) (asked : Nat) (bytes : Bytes) (ticket : Nat)
    (summary : Relay.Summary) :
    .answered ticket (.relayed summary) ∉ (connection.write asked bytes).2 := by
  have ends := connection.write_ends asked bytes
  generalize connection.write asked bytes = result at ends ⊢
  cases ends with
  | nothing none => simp
  | taken some sink took => simp
  | refused some fault full =>
    intro member
    rcases List.mem_cons.mp member with failed | left
    · cases failed
    · exact connection.unrelayed_leave ticket summary left

/-- A connection whose relay has finished is idle. -/
theorem idle_of_relayed_follow {asked ticket : Nat} {turn : Relay.Turn} {summary : Relay.Summary}
    (answered : .answered ticket (.relayed summary) ∈ (connection.follow asked turn).2) :
    (connection.follow asked turn).1.phase = .idle := by
  cases stage : turn.stage with
  | waiting session =>
    rw [connection.follow_waiting asked stage] at answered
    exact absurd answered (unanswering_moves turn.moves _ _)
  | ended outcome =>
    rw [connection.follow_ended asked stage] at answered ⊢
    cases outcome with
    | finished summary remainder => rfl
    | failed fault =>
      have unrelayed : .answered ticket (.relayed summary) ∉
          turn.moves.map Effect.ofMove ++ note (remainderOf (.failed fault)) ++
            [.answered asked (resultOf (.failed fault))] := by
        intro member
        rcases List.mem_append.mp member with before | answer
        · rcases List.mem_append.mp before with move | noted
          · exact unanswering_moves turn.moves _ _ move
          · exact unanswering_note _ _ _ noted
        · cases List.mem_singleton.mp answer
      rcases List.mem_append.mp answered with earlier | left
      · exact absurd earlier unrelayed
      · cases ends : breaks (.failed fault) with
        | true =>
          rw [ends] at left
          exact absurd left (unrelayed_leave _ ticket summary)
        | false => rfl

theorem idle_of_relayed_step {event : Event} {ticket : Nat} {summary : Relay.Summary}
    (answered : .answered ticket (.relayed summary) ∈ (connection.step event).2) :
    (connection.step event).1.phase = .idle := by
  have steps := connection.steps event
  generalize connection.step event = result at steps answered ⊢
  cases steps with
  | refuses submission gone => cases List.mem_singleton.mp answered
  | defers submission alive => cases answered
  | enters submission later first room =>
    cases List.mem_singleton.mp (List.mem_ite_nil_right.mp answered).2
  | deafens => cases answered
  | stays event unsubmitted unheard listening => cases answered
  | notes octet octets idle => cases List.mem_singleton.mp answered
  | loses read idle lost => exact absurd answered (connection.unrelayed_leave ticket summary)
  | takes submission later idle first =>
    rcases submission with ⟨asked, ⟨target, info, source⟩ | bytes | _⟩
    · exact idle_of_relayed_follow answered
    · exact absurd answered (unrelayed_write _ asked bytes ticket summary)
    · exact absurd answered (unrelayed_leave _ ticket summary)
  | hears ticket session read relaying => exact idle_of_relayed_follow answered

/-- Nothing that a connection reads gets lost or comes twice.  What it tells is the
beginning of what it read, which is the beginning of what its peer sent.  Unless a relay
has failed and ended the connection, it is all but one or two octets of a pull that the
relay under way holds.  When a relay has finished, nothing is held and all has been
told. -/
theorem told_of_run {start : Connection} (idle : start.phase = .idle) (events : List Event) :
    start.consumed events <+: (readIn events).flatMap Relay.Read.content ∧
    toldOf (start.run events).2 <+: start.consumed events ∧
    (¬ start.Severed events →
      toldOf (start.run events).2 ++ (start.run events).1.held = start.consumed events) ∧
    (start.run events).1.held.length < Relay.Pull.size ∧
    ∀ (event : Event) (ticket : Nat) (summary : Relay.Summary),
      .answered ticket (.relayed summary) ∈ ((start.run events).1.step event).2 →
      (start.run (events ++ [event])).1.held = [] ∧
        toldOf (start.run (events ++ [event])).2 = start.consumed (events ++ [event]) := by
  have nothing := held_of_idle idle
  have conserved : ∀ events, ∃ lost, start.consumed events =
      toldOf (start.run events).2 ++ (start.run events).1.held ++ lost ∧
        (lost ≠ [] → (start.run events).1.phase = .ended ∧ start.Severed events) := by
    intro events
    have conserves := start.conserves_run events
    rwa [nothing] at conserves
  refine ⟨start.consumed_prefix events, ?_, ?_, ?_, ?_⟩
  · rcases conserved events with ⟨lost, split, -⟩
    rw [split, List.append_assoc]
    exact List.prefix_append _ _
  · intro whole
    rcases conserved events with ⟨lost, split, severed⟩
    have kept : lost = [] := Decidable.byContradiction fun some => whole (severed some).2
    rw [split, kept, List.append_nil]
  · apply short_run
    rw [nothing]
    decide
  · intro event ticket summary answered
    have rests : (start.run (events ++ [event])).1.phase = .idle := by
      rw [run_concat]
      exact idle_of_relayed_step answered
    rcases conserved (events ++ [event]) with ⟨lost, split, severed⟩
    have kept : lost = [] := by
      apply Decidable.byContradiction
      intro some
      cases rests.symm.trans (severed some).1
    rw [held_of_idle rests, kept, List.append_nil, List.append_nil] at split
    exact ⟨held_of_idle rests, split.symm⟩

/-- Status text, then a relay of three octets whose second and third pull come in two
pieces, with a first octet of status text behind the last. -/
def textAroundRelay : List Event :=
  [.read (.octets [104]),
    .submit ⟨0, .relay (.node 9) ⟨3, List.replicate 16 7, rfl⟩ ⟨[[1, 2], [3]], none⟩⟩,
    .enter, .take, .read (.octets [0, 2]), .read (.octets [0, 0, 0, 0, 0])]

theorem told_of_run_text_around_relay :
    (opened 1 (.v4 10 40000) 4 16).phase = .idle ∧
      ¬ (opened 1 (.v4 10 40000) 4 16).Severed textAroundRelay ∧
      toldOf ((opened 1 (.v4 10 40000) 4 16).run textAroundRelay).2 ++ [0] =
        [104, 0, 2, 0, 0, 0, 0, 0] ∧
      .answered 0 (.relayed ⟨3, 3⟩) ∈ (((opened 1 (.v4 10 40000) 4 16).run textAroundRelay).1.step
        (.read (.octets [5, 0, 111]))).2 ∧
      toldOf ((opened 1 (.v4 10 40000) 4 16).run
        (textAroundRelay ++ [.read (.octets [5, 0, 111])])).2 =
          [104, 0, 2, 0, 0, 0, 0, 0, 5, 0, 111] := by
  have idle : (opened 1 (.v4 10 40000) 4 16).phase = .idle := rfl
  have whole : ¬ (opened 1 (.v4 10 40000) 4 16).Severed textAroundRelay := by
    intro severed
    exact absurd severed.ended (by decide +kernel)
  have relayed : .answered 0 (.relayed ⟨3, 3⟩) ∈
      (((opened 1 (.v4 10 40000) 4 16).run textAroundRelay).1.step
        (.read (.octets [5, 0, 111]))).2 := by decide +kernel
  have holds : ((opened 1 (.v4 10 40000) 4 16).run textAroundRelay).1.held = [0] := by
    decide +kernel
  rcases told_of_run idle textAroundRelay with ⟨-, -, kept, -, finished⟩
  rcases finished _ _ _ relayed with ⟨-, told⟩
  rw [← holds, kept whole, told]
  exact ⟨idle, whole, by decide +kernel, relayed, by decide +kernel⟩

end Connection

end Bridge
end FirmwareGateway
