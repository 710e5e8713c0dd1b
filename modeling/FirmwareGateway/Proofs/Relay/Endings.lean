import FirmwareGateway.Proofs.Relay.WholeFile

namespace FirmwareGateway
namespace Relay

/-!
# How a session ends

A session goes from pull to pull until its stream has no more of them or one answer is
the last.  The last answer overdraws the file, which finishes the session or finds the
source failing, or it meets a sink that takes no more.  Every one of these ends is a
constructor here, with the pulls answered before, the records that still went out and
the room the sink had left.
-/

/-! ## Sinks and writes -/

namespace Sink

/-- The sink that takes some more writes before it is as the given one. -/
def ahead (sink : Sink) (count : Nat) : Sink :=
  { sink with room := sink.room.map (· + count) }

theorem ahead_zero (sink : Sink) : sink.ahead 0 = sink := by
  rcases sink with ⟨room, fault⟩
  cases room <;> rfl

theorem ahead_ahead (sink : Sink) (first second : Nat) :
    (sink.ahead first).ahead second = sink.ahead (first + second) := by
  rcases sink with ⟨room, fault⟩
  cases room with
  | none => rfl
  | some room => simp only [ahead, Option.map_some, Nat.add_assoc]

theorem write_ahead (sink : Sink) : (sink.ahead 1).write = .ok sink := by
  rcases sink with ⟨room, fault⟩
  cases room <;> rfl

theorem full_or_ahead (sink : Sink) :
    (∃ fault, sink = ⟨some 0, fault⟩) ∨ ∃ later : Sink, sink = later.ahead 1 := by
  rcases sink with ⟨_ | _ | room, fault⟩
  · exact Or.inr ⟨⟨none, fault⟩, rfl⟩
  · exact Or.inl ⟨fault, rfl⟩
  · exact Or.inr ⟨⟨some room, fault⟩, rfl⟩

theorem Takes.ahead {sink : Sink} {count : Nat} (takes : sink.Takes count) :
    ∃ later : Sink, sink = later.ahead count := by
  rcases sink with ⟨_ | room, fault⟩
  · exact ⟨⟨none, fault⟩, rfl⟩
  · rcases Nat.exists_eq_add_of_le' (takes room rfl) with ⟨left, rfl⟩
    exact ⟨⟨some left, fault⟩, rfl⟩

end Sink

/-- What was written in some moves, write by write. -/
def writes (moves : List Move) : List Bytes :=
  moves.filterMap fun
    | .pulled _ => none
    | .wrote bytes => some bytes

theorem writes_append (first second : List Move) :
    writes (first ++ second) = writes first ++ writes second :=
  List.filterMap_append

theorem writes_pulled (pull : Pull) (moves : List Move) :
    writes (.pulled pull :: moves) = writes moves :=
  rfl

theorem writes_wrote (bytes : Bytes) (moves : List Move) :
    writes (.wrote bytes :: moves) = bytes :: writes moves :=
  rfl

theorem writes_records (records : List Record) :
    writes (records.map fun record => .wrote record.octets) = records.map Record.octets := by
  induction records with
  | nil => rfl
  | cons record records ih => exact congrArg (record.octets :: ·) ih

theorem writes_replies (channel : Channel) (content : Bytes) (pulls : List Pull) :
    writes (replies channel content pulls) =
      (filled channel content pulls).map Record.octets := by
  induction pulls generalizing content with
  | nil => rfl
  | cons pull pulls ih =>
    rw [replies_cons, filled, List.map_cons, ← ih]
    rfl

/-! ## Reading from the source -/

namespace Source

/-- The source behind its first `n` octets. -/
def left (source : Source) (n : Nat) : Source :=
  ⟨(takePieces n source.pieces).2, source.fault⟩

theorem content_left (source : Source) (n : Nat) :
    (source.left n).content = source.content.drop n :=
  flatten_snd_takePieces n source.pieces

theorem take_eq_ok {source : Source} {n : Nat}
    (readable : source.content.length < n → source.fault = none) :
    source.take n = .ok (source.content.take n, source.left n) := by
  rcases source with ⟨pieces, fault⟩
  cases fault with
  | none => simp only [take, fst_takePieces, content, left]
  | some fault =>
    have enough : ¬ (pieces.flatten.take n).length < n := by
      intro short
      apply Option.some_ne_none fault
      apply readable
      apply Nat.lt_of_not_le
      intro whole
      exact Nat.ne_of_lt short (List.length_take_of_le whole)
    simp only [take, fst_takePieces, if_neg enough, content, left]

theorem take_eq_error {source : Source} {n : Nat} {fault : IoFault}
    (faulty : source.fault = some fault) (overdrawn : source.content.length < n) :
    source.take n = .error (.io fault) := by
  rcases source with ⟨pieces, found⟩
  subst faulty
  have short : (pieces.flatten.take n).length < n :=
    Nat.lt_of_le_of_lt (List.length_take_le' n _) overdrawn
  simp only [take, fst_takePieces, if_pos short]

end Source

/-! ## Answering a pull -/

namespace Session

theorem write_ahead (session : Session) (sink : Sink) {record : Record}
    (bounded : record.payload.length ≤ Record.maxPayload) :
    session.write (sink.ahead 1) record = ⟨[.wrote record.octets], sink, .waiting session⟩ := by
  simp only [write, Record.encode_eq bounded, Sink.write_ahead]

theorem write_full (session : Session) (fault : IoFault) {record : Record}
    (bounded : record.payload.length ≤ Record.maxPayload) :
    session.write ⟨some 0, fault⟩ record = .failed ⟨some 0, fault⟩ (.io fault) := by
  simp only [write, Record.encode_eq bounded, Sink.write]

theorem finish_ahead (session : Session) (sink : Sink) (remainder : Bytes) :
    session.finish (sink.ahead 1) remainder =
      ⟨[.wrote (Record.ending session.channel).octets], sink,
        .ended (.finished session.summary remainder)⟩ := by
  rw [finish, session.write_ahead sink (Nat.zero_le _), Turn.andThen_waiting]
  rfl

theorem finish_full (session : Session) (fault : IoFault) (remainder : Bytes) :
    session.finish ⟨some 0, fault⟩ remainder = .failed ⟨some 0, fault⟩ (.io fault) := by
  rw [finish, session.write_full fault (Nat.zero_le _)]
  rfl

/-- The session behind a pull that was answered. -/
def answered (session : Session) (pull : Pull) : Session :=
  ({ session with source := session.source.left pull.length.toNat }).count
    (session.source.content.take pull.length.toNat)

/-- The session behind pulls that were answered. -/
def behind (session : Session) (pulls : List Pull) : Session :=
  pulls.foldl answered session

/-- The records that answer a pull. -/
def reply (session : Session) (pull : Pull) : List Record :=
  if pull.length.toNat ≤ session.source.content.length then
    [.data session.channel (session.source.content.take pull.length.toNat)]
  else closing session.channel session.source.content

theorem channel_behind (session : Session) (pulls : List Pull) :
    (session.behind pulls).channel = session.channel := by
  induction pulls generalizing session with
  | nil => rfl
  | cons pull pulls ih => exact ih (session.answered pull)

theorem fault_behind (session : Session) (pulls : List Pull) :
    (session.behind pulls).source.fault = session.source.fault := by
  induction pulls generalizing session with
  | nil => rfl
  | cons pull pulls ih => exact ih (session.answered pull)

theorem content_behind (session : Session) (pulls : List Pull) :
    (session.behind pulls).source.content = session.source.content.drop (Pull.demand pulls) := by
  induction pulls generalizing session with
  | nil => rfl
  | cons pull pulls ih =>
    rw [Pull.demand_cons, ← List.drop_drop, ← session.source.content_left]
    exact ih (session.answered pull)

/-- How answering a pull can end, by what the sink still takes. -/
inductive AnswerEnds (session : Session) (pull : Pull) (remainder : Bytes) : Sink → Turn → Prop
  | filled (sink : Sink) (enough : pull.length.toNat ≤ session.source.content.length) :
      AnswerEnds session pull remainder (sink.ahead 1)
        ⟨[.wrote (Record.data session.channel
            (session.source.content.take pull.length.toNat)).octets], sink,
          .waiting (session.answered pull)⟩
  | finished (sink : Sink) (summary : Summary) (faultless : session.source.fault = none)
      (overdrawn : session.source.content.length < pull.length.toNat) :
      AnswerEnds session pull remainder
        (sink.ahead (closing session.channel session.source.content).length)
        ⟨(closing session.channel session.source.content).map fun record => .wrote record.octets,
          sink, .ended (.finished summary remainder)⟩
  | unread (sink : Sink) (fault : IoFault) (faulty : session.source.fault = some fault)
      (overdrawn : session.source.content.length < pull.length.toNat) :
      AnswerEnds session pull remainder sink (.failed sink (.io fault))
  | refused (sent unsent : List Record) (fault : IoFault)
      (records : session.reply pull = sent ++ unsent) (more : unsent ≠ [])
      (readable : session.source.content.length < pull.length.toNat →
        session.source.fault = none) :
      AnswerEnds session pull remainder ⟨some sent.length, fault⟩
        ⟨sent.map fun record => .wrote record.octets, ⟨some 0, fault⟩, .ended (.failed (.io fault))⟩

section
variable {session : Session} {pull : Pull}

theorem length_taken_le (session : Session) (pull : Pull) :
    (session.source.content.take pull.length.toNat).length ≤ Record.maxPayload :=
  Nat.le_trans (List.length_take_le _ _) pull.length_le_maxPayload

theorem answer_of_enough (enough : pull.length.toNat ≤ session.source.content.length)
    (sink : Sink) (remainder : Bytes) :
    session.answer sink pull remainder =
      ((session.answered pull).write sink (.data session.channel
        (session.source.content.take pull.length.toNat))).andThen
          fun session sink => ⟨[], sink, .waiting session⟩ := by
  have took : session.source.take pull.length.toNat = _ :=
    Source.take_eq_ok fun short => absurd enough (Nat.not_le.mpr short)
  have full : decide ((session.source.content.take pull.length.toNat).length <
      pull.length.toNat) = false := by
    rw [List.length_take, Nat.min_eq_left enough]
    exact decide_eq_false (Nat.lt_irrefl _)
  simp only [answer, took, full, Bool.false_and, Bool.false_eq_true, if_false]
  rfl

theorem answer_ahead (enough : pull.length.toNat ≤ session.source.content.length) (sink : Sink)
    (remainder : Bytes) :
    session.answer (sink.ahead 1) pull remainder =
      ⟨[.wrote (Record.data session.channel
          (session.source.content.take pull.length.toNat)).octets], sink,
        .waiting (session.answered pull)⟩ := by
  rw [answer_of_enough enough, write_ahead _ sink (session.length_taken_le pull)]
  rfl

theorem answer_of_overdrawn (overdrawn : session.source.content.length < pull.length.toNat)
    (faultless : session.source.fault = none) (sink : Sink) (remainder : Bytes) :
    session.answer sink pull remainder =
      if session.source.content = [] then
        ({ session with source := session.source.left pull.length.toNat }).finish sink remainder
      else
        ((session.answered pull).write sink (.data session.channel session.source.content)).andThen
          fun session sink => session.finish sink remainder := by
  have took : session.source.take pull.length.toNat = _ := Source.take_eq_ok fun _ => faultless
  have all : session.source.content.take pull.length.toNat = session.source.content :=
    List.take_of_length_le (Nat.le_of_lt overdrawn)
  have short : decide (session.source.content.length < pull.length.toNat) = true :=
    decide_eq_true overdrawn
  rw [all] at took
  simp only [answer, took, short, Bool.true_and, List.isEmpty_iff, if_true, answered, all]

end

theorem answer_ends (session : Session) (sink : Sink) (pull : Pull) (remainder : Bytes) :
    session.AnswerEnds pull remainder sink (session.answer sink pull remainder) := by
  by_cases enough : pull.length.toNat ≤ session.source.content.length
  · rcases sink.full_or_ahead with ⟨fault, rfl⟩ | ⟨later, rfl⟩
    · rw [answer_of_enough enough, write_full _ fault (session.length_taken_le pull)]
      refine .refused [] _ fault (if_pos enough) (List.cons_ne_nil _ _) ?_
      intro short
      exact absurd enough (Nat.not_le.mpr short)
    · rw [answer_ahead enough]
      exact .filled later enough
  · have overdrawn := Nat.lt_of_not_le enough
    cases faulty : session.source.fault with
    | some fault =>
      have failed : session.answer sink pull remainder = .failed sink (.io fault) := by
        simp only [answer, Source.take_eq_error faulty overdrawn]
      rw [failed]
      exact .unread sink fault faulty overdrawn
    | none =>
      have records : session.reply pull = closing session.channel session.source.content :=
        if_neg enough
      have readable : session.source.content.length < pull.length.toNat →
          session.source.fault = none := fun _ => faulty
      rw [answer_of_overdrawn overdrawn faulty]
      by_cases nothing : session.source.content = []
      · have last : closing session.channel session.source.content = [.ending session.channel] := by
          rw [closing, if_pos nothing, List.nil_append]
        rw [if_pos nothing]
        rcases sink.full_or_ahead with ⟨fault, rfl⟩ | ⟨later, rfl⟩
        · rw [finish_full]
          exact .refused [] _ fault (records.trans last) (List.cons_ne_nil _ _) readable
        · rw [finish_ahead]
          have ends : session.AnswerEnds pull remainder _ _ :=
            .finished later session.summary faulty overdrawn
          rwa [last] at ends
      · have last : closing session.channel session.source.content =
            [.data session.channel session.source.content, .ending session.channel] := by
          rw [closing, if_neg nothing]
          rfl
        have bounded : session.source.content.length ≤ Record.maxPayload :=
          Nat.le_trans (Nat.le_of_lt overdrawn) pull.length_le_maxPayload
        rw [if_neg nothing]
        rcases sink.full_or_ahead with ⟨fault, rfl⟩ | ⟨middle, rfl⟩
        · rw [write_full _ fault bounded]
          exact .refused [] _ fault (records.trans last) (List.cons_ne_nil _ _) readable
        · rw [write_ahead _ middle bounded, Turn.andThen_waiting]
          rcases middle.full_or_ahead with ⟨fault, rfl⟩ | ⟨later, rfl⟩
          · rw [finish_full]
            exact .refused [.data session.channel session.source.content] _ fault
              (records.trans last) (List.cons_ne_nil _ _) readable
          · rw [finish_ahead, Sink.ahead_ahead]
            have ends : session.AnswerEnds pull remainder _ _ :=
              .finished later (session.answered pull).summary faulty overdrawn
            rwa [last] at ends

/-! ## Serving octets -/

/-- How serving octets can end: the stream has no more pulls, or an answer is the last. -/
inductive ServeEnds (session : Session) (octets : Bytes) : Sink → Turn → Prop
  | waits (served : List Pull) (sink : Sink) (pulls : Pull.stream octets = served)
      (within : Pull.demand served ≤ session.source.content.length) :
      ServeEnds session octets (sink.ahead served.length)
        ⟨replies session.channel session.source.content served, sink,
          .waiting { session.behind served with buffer := octets.drop (3 * served.length) }⟩
  | stops (served : List Pull) (last : Pull) (more : List Pull) (sink : Sink) (turn : Turn)
      (outcome : Outcome) (pulls : Pull.stream octets = served ++ last :: more)
      (within : Pull.demand served ≤ session.source.content.length)
      (ends : (session.behind served).AnswerEnds last (octets.drop (3 * (served.length + 1)))
        sink turn)
      (stopped : turn.stage = .ended outcome) :
      ServeEnds session octets (sink.ahead served.length)
        (turn.after (replies session.channel session.source.content served ++ [.pulled last]))

section
variable {session : Session} {pull : Pull} {pulls : List Pull}

theorem replies_answered (session : Session) (pull : Pull) (pulls : List Pull) :
    replies session.channel session.source.content (pull :: pulls) =
      .pulled pull :: .wrote (Record.data session.channel
        (session.source.content.take pull.length.toNat)).octets ::
        replies (session.answered pull).channel (session.answered pull).source.content pulls := by
  rw [replies_cons, ← session.source.content_left]
  rfl

theorem within_of_answered (enough : pull.length.toNat ≤ session.source.content.length)
    (within : Pull.demand pulls ≤ (session.answered pull).source.content.length) :
    Pull.demand (pull :: pulls) ≤ session.source.content.length := by
  change Pull.demand pulls ≤ (session.source.left pull.length.toNat).content.length at within
  rw [session.source.content_left, List.length_drop] at within
  rw [Pull.demand_cons]
  omega

/-- A pull that was answered in front of what is served behind it. -/
theorem ServeEnds.before {type low high : UInt8} {rest : Bytes} {sink : Sink} {turn : Turn}
    (enough : (Pull.ofOctets type low high).length.toNat ≤ session.source.content.length)
    (ends : (session.answered (.ofOctets type low high)).ServeEnds rest sink turn) :
    session.ServeEnds (type :: low :: high :: rest) (sink.ahead 1)
      (turn.after [.pulled (.ofOctets type low high),
        .wrote (Record.data session.channel (session.source.content.take
          (Pull.ofOctets type low high).length.toNat)).octets]) := by
  cases ends with
  | waits served sink pulls within =>
    rw [Sink.ahead_ahead]
    have ends : session.ServeEnds (type :: low :: high :: rest) _ _ :=
      .waits (.ofOctets type low high :: served) sink (congrArg _ pulls)
        (within_of_answered enough within)
    rw [replies_answered] at ends
    exact ends
  | stops served last more sink turn outcome pulls within ends stopped =>
    rw [Sink.ahead_ahead]
    have ends : session.ServeEnds (type :: low :: high :: rest) _ _ :=
      .stops (.ofOctets type low high :: served) last more sink turn outcome (congrArg _ pulls)
        (within_of_answered enough within) ends stopped
    rw [replies_answered] at ends
    exact ends

end

theorem serve_ends (session : Session) (sink : Sink) (octets : Bytes) :
    session.ServeEnds octets sink (session.serve sink octets) := by
  induction size : octets.length using Nat.strongRecOn generalizing session sink octets with
  | ind length ih =>
    rcases Pull.short_or_octets octets with short | ⟨type, low, high, rest, rfl⟩
    · rw [serve_short session sink short]
      have ends : session.ServeEnds octets _ _ :=
        .waits [] sink (Pull.stream_short short) (Nat.zero_le _)
      rwa [List.length_nil, Sink.ahead_zero] at ends
    · have shorter : rest.length < length := by
        rw [← size]
        exact Nat.lt_add_of_pos_right (by decide : 0 < 3)
      have stopped : ∀ {sink turn outcome},
          session.AnswerEnds (.ofOctets type low high) rest sink turn →
          turn.stage = .ended outcome →
          session.ServeEnds (type :: low :: high :: rest) sink
            (turn.after [.pulled (.ofOctets type low high)]) := by
        intro sink turn outcome ends stopped
        have ends : session.ServeEnds (type :: low :: high :: rest) _ _ :=
          .stops [] _ (Pull.stream rest) sink turn outcome rfl (Nat.zero_le _) ends stopped
        rwa [List.length_nil, Sink.ahead_zero] at ends
      have ends := session.answer_ends sink (.ofOctets type low high) rest
      rw [serve_octets]
      generalize session.answer sink (.ofOctets type low high) rest = turn at ends
      cases ends with
      | filled sink enough =>
        exact (ih rest.length shorter (session.answered _) sink rest rfl).before enough
      | finished sink summary faultless overdrawn =>
        exact stopped (.finished sink summary faultless overdrawn) rfl
      | unread sink fault faulty overdrawn =>
        exact stopped (.unread sink fault faulty overdrawn) rfl
      | refused sent unsent fault records more readable =>
        exact stopped (.refused sent unsent fault records more readable) rfl

/-- Pulls that the file can fill are answered when the sink takes as many writes. -/
theorem serve_through (session : Session) {octets : Bytes} {pulls : List Pull}
    (stream : Pull.stream octets = pulls)
    (within : Pull.demand pulls ≤ session.source.content.length) (sink : Sink) :
    session.serve (sink.ahead pulls.length) octets =
      ⟨replies session.channel session.source.content pulls, sink,
        .waiting { session.behind pulls with buffer := octets.drop (3 * pulls.length) }⟩ := by
  induction pulls generalizing session octets with
  | nil =>
    rcases Pull.short_or_octets octets with short | ⟨type, low, high, rest, rfl⟩
    · rw [serve_short session _ short, List.length_nil, Sink.ahead_zero]
      rfl
    · cases stream
  | cons pull pulls ih =>
    rcases Pull.stream_eq_cons stream with ⟨type, low, high, rest, rfl, rfl, later⟩
    rw [Pull.demand_cons] at within
    have enough := Nat.le_of_add_right_le within
    have rest_within : Pull.demand pulls ≤
        (session.answered (.ofOctets type low high)).source.content.length := by
      change Pull.demand pulls ≤ (session.source.left _).content.length
      rw [session.source.content_left, List.length_drop]
      omega
    rw [serve_octets, List.length_cons, ← Sink.ahead_ahead, answer_ahead enough,
      Turn.andThen_waiting, ih _ later rest_within, replies_answered]
    rfl

end Session

/-! ## Reading to the end -/

/-- How the stream of a session that holds some octets of a pull is cut off, the failure
that follows from it, and what stays unread. -/
inductive Cut (held : Nat) : List Read → Error → List Read → Prop
  | exhausted : Cut held [] (.peerClosed Pull.size held) []
  | closed (later : List Read) :
      Cut held (.octets [] :: later) (.peerClosed Pull.size held) later
  | failed (fault : IoFault) (later : List Read) :
      Cut held (.fault fault :: later) (.io fault) later

/-- How a session that has been served some octets can end, in terms of serving at once
what was read. -/
inductive Concludes (session : Session) (sink : Sink) (octets : Bytes) (done : List Move)
    (reads : List Read) : Exchange → Prop
  | stopped (pieces : List Bytes) (later : List Read) (turn : Turn) (outcome : Outcome)
      (nonempty : ∀ piece ∈ pieces, piece ≠ []) (split : reads = pieces.map .octets ++ later)
      (served : session.serve sink (octets ++ pieces.flatten) = turn)
      (ended : turn.stage = .ended outcome) :
      Concludes session sink octets done reads ⟨done ++ turn.moves, outcome, later⟩
  | cut (pieces : List Bytes) (later unread : List Read) (turn : Turn) (waiting : Session)
      (fault : Error) (nonempty : ∀ piece ∈ pieces, piece ≠ [])
      (split : reads = pieces.map .octets ++ later)
      (served : session.serve sink (octets ++ pieces.flatten) = turn)
      (waits : turn.stage = .waiting waiting) (cut : Cut waiting.buffer.length later fault unread) :
      Concludes session sink octets done reads ⟨done ++ turn.moves, .failed fault, unread⟩

/-- Octets read in front of what is read behind them. -/
theorem Concludes.before {session : Session} {sink : Sink} {octets : Bytes} {done : List Move}
    {reads : List Read} {exchange : Exchange} {piece : Bytes} (some : piece ≠ [])
    (concludes : Concludes session sink (octets ++ piece) done reads exchange) :
    Concludes session sink octets done (.octets piece :: reads) exchange := by
  have nonempty : ∀ {pieces : List Bytes}, (∀ piece ∈ pieces, piece ≠ []) →
      ∀ each ∈ piece :: pieces, each ≠ [] := by
    intro pieces others
    exact List.forall_mem_cons.mpr ⟨some, others⟩
  cases concludes with
  | stopped pieces later turn outcome others split served ended =>
    rw [List.append_assoc] at served
    exact .stopped (piece :: pieces) later turn outcome (nonempty others)
      (congrArg (.octets piece :: ·) split) served ended
  | cut pieces later unread turn waiting fault others split served waits cut =>
    rw [List.append_assoc] at served
    exact .cut (piece :: pieces) later unread turn waiting fault (nonempty others)
      (congrArg (.octets piece :: ·) split) served waits cut

/-- Reading in pieces comes to what serving at once comes to. -/
theorem conclude_serve (session : Session) (sink : Sink) (octets : Bytes) (done : List Move)
    (reads : List Read) :
    Concludes session sink octets done reads
      (conclude ((session.serve sink octets).after done) reads) := by
  induction reads generalizing octets with
  | nil =>
    generalize served : session.serve sink octets = turn
    rcases turn with ⟨moves, left, waiting | outcome⟩
    · exact .cut [] [] [] ⟨moves, left, _⟩ waiting _ nofun rfl (by simpa using served) rfl
        .exhausted
    · exact .stopped [] [] ⟨moves, left, _⟩ outcome nofun rfl (by simpa using served) rfl
  | cons read later ih =>
    generalize served : session.serve sink octets = turn
    have here : session.serve sink (octets ++ [].flatten) = turn := by
      rw [List.flatten_nil, List.append_nil, served]
    rcases turn with ⟨moves, left, waiting | outcome⟩
    · rcases read with (_ | ⟨octet, piece⟩) | fault
      · exact .cut [] _ later ⟨moves, left, _⟩ waiting _ nofun rfl here rfl (.closed later)
      · have fed : session.serve sink (octets ++ octet :: piece) =
            (waiting.feed left (octet :: piece)).after moves := by
          rw [Session.serve_append, served]
          rfl
        have concludes := ih (octets ++ octet :: piece)
        rw [fed, Turn.after, Turn.after, ← List.append_assoc] at concludes
        exact concludes.before (List.cons_ne_nil _ _)
      · exact .cut [] _ later ⟨moves, left, _⟩ waiting _ nofun rfl here rfl (.failed fault later)
    · exact .stopped [] _ ⟨moves, left, _⟩ outcome nofun rfl here rfl

/-- Reading pieces that leave the session waiting. -/
theorem conclude_waiting {session waiting : Session} {sink : Sink} (octets : Bytes)
    {pieces : List Bytes} (nonempty : ∀ piece ∈ pieces, piece ≠ [])
    (waits : (session.serve sink (octets ++ pieces.flatten)).stage = .waiting waiting)
    (done : List Move) (later : List Read) :
    conclude ((session.serve sink octets).after done) (pieces.map .octets ++ later) =
      conclude ((session.serve sink (octets ++ pieces.flatten)).after done) later := by
  induction pieces generalizing octets with
  | nil => rw [List.flatten_nil, List.append_nil, List.map_nil, List.nil_append]
  | cons piece pieces ih =>
    rcases List.exists_cons_of_ne_nil (nonempty piece List.mem_cons_self) with ⟨octet, rest, rfl⟩
    rw [List.flatten_cons] at waits ⊢
    have others : ∀ each ∈ pieces, each ≠ [] := by
      intro each member
      exact nonempty each (List.mem_cons_of_mem _ member)
    have following := ih (octets ++ octet :: rest) others
    rw [List.append_assoc] at following
    rw [← following waits, session.serve_append sink octets]
    rw [session.serve_append sink octets] at waits
    generalize session.serve sink octets = turn at waits ⊢
    rcases turn with ⟨moves, left, next | ⟨summary, remainder⟩ | fault⟩
    · simp only [Turn.followedBy, Turn.after, ← List.append_assoc]
      rfl
    · cases waits
    · cases waits

/-! ## Whole sessions -/

/-- The session that a relay to a target opens. -/
def Session.opened (target : Target) (source : Source) : Session :=
  ⟨target.channel, source, [], ⟨0, 0⟩⟩

/-- The record that announces a file to a target. -/
def Target.opening (target : Target) (info : FileInfo) : Record :=
  .header target.channel (target.announcement info)

/-- The failure of a file too large to be announced. -/
def overflow : Error := .fieldOverflow "file_size" 0xffffffff

section
variable {target : Target} {info : FileInfo} (source : Source)

theorem run_large (large : Target.maxFileSize < info.size) (sink : Sink) (reads : List Read) :
    run target info source sink reads = ⟨[], .failed overflow, reads⟩ := by
  have refused : target.metadata info = .error overflow := if_pos large
  simp only [run, start, refused]
  cases reads <;> rfl

theorem start_eq (announceable : info.size ≤ Target.maxFileSize) (sink : Sink) :
    start target info source sink =
      (Session.opened target source).write sink (target.opening info) := by
  simp only [start, target.metadata_eq announceable]
  rfl

theorem length_opening_le (target : Target) (info : FileInfo) :
    (target.opening info).payload.length ≤ Record.maxPayload :=
  Nat.le_trans (target.length_announcement_le info) (by decide)

theorem run_full (announceable : info.size ≤ Target.maxFileSize) (fault : IoFault)
    (reads : List Read) :
    run target info source ⟨some 0, fault⟩ reads = ⟨[], .failed (.io fault), reads⟩ := by
  rw [run, start_eq source announceable,
    Session.write_full _ fault (length_opening_le target info)]
  cases reads <;> rfl

theorem run_ahead (announceable : info.size ≤ Target.maxFileSize) (sink : Sink)
    (reads : List Read) :
    run target info source (sink.ahead 1) reads =
      conclude (((Session.opened target source).serve sink []).after
        [.wrote (target.opening info).octets]) reads := by
  have waits : (Session.opened target source).serve sink [] =
      ⟨[], sink, .waiting (Session.opened target source)⟩ :=
    Session.serve_short _ sink (by decide)
  rw [run, start_eq source announceable,
    Session.write_ahead _ sink (length_opening_le target info), waits]
  rfl

/-- A session whose announcement went out. -/
theorem run_announced (announceable : info.size ≤ Target.maxFileSize) (sink : Sink)
    (reads : List Read) :
    Concludes (Session.opened target source) sink [] [.wrote (target.opening info).octets] reads
      (run target info source (sink.ahead 1) reads) := by
  rw [run_ahead source announceable]
  exact conclude_serve _ sink [] _ reads

/-- A session whose peer sends some octets and no more, when neither the file nor the
sink gives out before. -/
theorem run_through (announceable : info.size ≤ Target.maxFileSize) {pieces : List Bytes}
    (nonempty : ∀ piece ∈ pieces, piece ≠ [])
    (within : Pull.demand (Pull.stream pieces.flatten) ≤ source.content.length) (sink : Sink)
    (later : List Read) :
    run target info source (sink.ahead ((Pull.stream pieces.flatten).length + 1))
        (pieces.map .octets ++ later) =
      conclude ⟨.wrote (target.opening info).octets ::
          replies target.channel source.content (Pull.stream pieces.flatten), sink,
        .waiting { (Session.opened target source).behind (Pull.stream pieces.flatten) with
          buffer := pieces.flatten.drop (3 * (Pull.stream pieces.flatten).length) }⟩ later := by
  have served := (Session.opened target source).serve_through
    (congrArg Pull.stream (List.nil_append pieces.flatten)) within sink
  rw [← Sink.ahead_ahead, run_ahead source announceable,
    conclude_waiting [] nonempty (congrArg Turn.stage served), served]
  rfl

end

end Relay
end FirmwareGateway
