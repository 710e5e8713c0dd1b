import FirmwareGateway.Proofs.Relay.Endings

namespace FirmwareGateway
namespace Relay

/-!
# Sessions that fail

A session that fails stops between two records.  What it wrote is what it would have
written anyway, had the file been readable, the peer gone on pulling and every write
gone out; only the end is missing, and with it the ending record.  A receiver that is
never asked for an empty record therefore cannot take an interrupted file for a whole
one.
-/

/-- What the peer sends before it ends the stream or reading fails. -/
def delivered : List Read → Bytes
  | .octets (octet :: octets) :: later => octet :: octets ++ delivered later
  | _ => []

/-- At no point were there more writes than pulls and some writes besides. -/
def Paced (besides : Nat) (moves : List Move) : Prop :=
  ∀ before after, moves = before ++ after →
    (writes before).length ≤ (taken before).length + besides

/-- What an interrupted session did, given the records it sent: the announcement and
then data, each in one write and none before it was pulled.  Only a pull of nothing makes a
data record look like the end of the file.

The records are the first of those that a session sends which comes to its end.  In that
session the file can be read on, every write goes out, and the peer sends the same and then
goes on to pull more than the file holds. -/
structure Interrupted (target : Target) (info : FileInfo) (source : Source) (reads : List Read)
    (exchange : Exchange) (sent : List Record) : Prop where
  whole : writes exchange.moves = sent.map Record.octets
  opening : ∀ record ∈ sent.head?, record = target.opening info
  data : ∀ record ∈ sent.tail, record.type = .data
  pulled : taken exchange.moves <+: Pull.stream (delivered reads)
  paced : Paced 1 exchange.moves
  unmarked : (∀ pull ∈ (taken exchange.moves).take sent.tail.length, 0 < pull.length.toNat) →
    ∀ record ∈ sent, record.isEnding = false
  resumed : ∀ (readable : Source) (more : Bytes) (pieces : List Bytes) (later : List Read),
    info.size ≤ Target.maxFileSize → readable.Holds (source.content ++ more) →
    (source.fault = none → more = []) → (∀ piece ∈ pieces, piece ≠ []) →
    delivered reads <+: pieces.flatten →
    (source.content ++ more).length < Pull.demand (Pull.stream pieces.flatten) →
    ∃ (other : Exchange) (summary : Summary) (remainder : Bytes) (unsent : List Record),
      run target info readable .endless (pieces.map .octets ++ later) = other ∧
      other.outcome = .finished summary remainder ∧
      writes other.moves =
        (sent ++ unsent ++ [Record.ending target.channel]).map Record.octets

/-- Why a session failed, and with which failure: the file is too large to be announced,
the peer sends no more or cannot be read, the next write is refused, or the file cannot
be read as far as it was asked for. -/
inductive Cause (info : FileInfo) (source : Source) (sink : Sink) (reads : List Read)
    (exchange : Exchange) (sent : List Record) : Error → Prop
  | unannounced (large : Target.maxFileSize < info.size) (still : exchange.moves = [])
      (unread : exchange.unread = reads) :
      Cause info source sink reads exchange sent (.fieldOverflow "file_size" 0xffffffff)
  | closed (pieces : List Bytes) (later : List Read)
      (split : reads = pieces.map .octets ++ later)
      (ended : later = [] ∨ later.head? = some (.octets []))
      (pulled : taken exchange.moves = Pull.stream pieces.flatten)
      (answered : sent.length = (Pull.stream pieces.flatten).length + 1) :
      Cause info source sink reads exchange sent (.peerClosed 3 (pieces.flatten.length % 3))
  | unreadable (pieces : List Bytes) (fault : IoFault)
      (split : reads = pieces.map .octets ++ .fault fault :: exchange.unread)
      (pulled : taken exchange.moves = Pull.stream pieces.flatten)
      (answered : sent.length = (Pull.stream pieces.flatten).length + 1) :
      Cause info source sink reads exchange sent (.io fault)
  | unwritable (full : sink.room = some sent.length) :
      Cause info source sink reads exchange sent (.io sink.fault)
  | unsourced (fault : IoFault) (faulty : source.fault = some fault)
      (overdrawn : source.content.length < Pull.demand (taken exchange.moves)) :
      Cause info source sink reads exchange sent (.io fault)

/-! ## Streams -/

theorem delivered_append {pieces : List Bytes} (nonempty : ∀ piece ∈ pieces, piece ≠ [])
    (later : List Read) :
    delivered (pieces.map .octets ++ later) = pieces.flatten ++ delivered later := by
  induction pieces with
  | nil => rfl
  | cons piece pieces ih =>
    rcases List.exists_cons_of_ne_nil (nonempty piece List.mem_cons_self) with ⟨octet, octets, rfl⟩
    have others := ih fun each member => nonempty each (List.mem_cons_of_mem _ member)
    simp only [List.map_cons, List.cons_append, delivered, others, List.flatten_cons,
      List.append_assoc]

namespace Pull

theorem stream_prefix (octets more : Bytes) : stream octets <+: stream (octets ++ more) := by
  fun_induction stream octets with
  | case1 type low high rest ih => exact List.prefix_cons_inj _ |>.mpr ih
  | case2 octets short => exact List.nil_prefix

theorem length_stream (octets : Bytes) : (stream octets).length = octets.length / 3 := by
  fun_induction stream octets with
  | case1 type low high rest ih =>
    rw [List.length_cons, ih]
    simp only [List.length_cons]
    omega
  | case2 octets short =>
    rcases short_or_octets octets with few | ⟨type, low, high, rest, rfl⟩
    · exact (Nat.div_eq_of_lt few).symm
    · exact absurd rfl (short type low high rest)

theorem length_behind_stream (octets : Bytes) :
    (octets.drop (3 * (stream octets).length)).length = octets.length % 3 := by
  rw [List.length_drop, length_stream, Nat.mod_eq_sub]

/-- Pulls for more than there is reach a first one that cannot be filled. -/
theorem exists_overdrawing {pulls : List Pull} {size : Nat} (more : size < demand pulls) :
    ∃ earlier last later, pulls = earlier ++ last :: later ∧ demand earlier ≤ size ∧
      size < demand earlier + last.length.toNat := by
  induction pulls generalizing size with
  | nil => exact absurd more (Nat.not_lt_zero size)
  | cons pull pulls ih =>
    rw [demand_cons] at more
    by_cases enough : pull.length.toNat ≤ size
    · have rest : size - pull.length.toNat < demand pulls := by omega
      rcases ih rest with ⟨earlier, last, later, rfl, within, exceeds⟩
      refine ⟨pull :: earlier, last, later, rfl, ?_, ?_⟩
      · rw [demand_cons]
        omega
      · rw [demand_cons]
        omega
    · refine ⟨[], pull, pulls, rfl, Nat.zero_le _, ?_⟩
      rw [demand_nil]
      omega

end Pull

/-! ## Records -/

theorem filled_append (channel : Channel) (content : Bytes) (first second : List Pull) :
    filled channel content (first ++ second) =
      filled channel content first ++
        filled channel (content.drop (Pull.demand first)) second := by
  induction first generalizing content with
  | nil => rfl
  | cons pull first ih =>
    rw [List.cons_append, filled, filled, ih, Pull.demand_cons, List.drop_drop, List.cons_append]

/-- Pulls that some content can fill are answered alike from a longer one. -/
theorem filled_of_within (channel : Channel) {content : Bytes} (more : Bytes) {pulls : List Pull}
    (within : Pull.demand pulls ≤ content.length) :
    filled channel (content ++ more) pulls = filled channel content pulls := by
  induction pulls generalizing content with
  | nil => rfl
  | cons pull pulls ih =>
    rw [Pull.demand_cons] at within
    have enough : pull.length.toNat ≤ content.length := Nat.le_of_add_right_le within
    have rest : Pull.demand pulls ≤ (content.drop pull.length.toNat).length := by
      rw [List.length_drop]
      omega
    rw [filled, filled, List.take_append_of_le_length enough, List.drop_append_of_le_length enough,
      ih rest]

theorem type_of_mem_filled {channel : Channel} {content : Bytes} {pulls : List Pull}
    {record : Record} (member : record ∈ filled channel content pulls) : record.type = .data := by
  induction pulls generalizing content with
  | nil => cases member
  | cons pull pulls ih =>
    rcases List.mem_cons.mp member with rfl | behind
    · rfl
    · exact ih behind

/-- A pull that is filled yields an empty record only if it asks for nothing. -/
theorem isEnding_of_mem_filled {channel : Channel} {content : Bytes} {pulls : List Pull}
    (within : Pull.demand pulls ≤ content.length) (positive : ∀ pull ∈ pulls, 0 < pull.length.toNat)
    {record : Record} (member : record ∈ filled channel content pulls) :
    record.isEnding = false := by
  induction pulls generalizing content with
  | nil => cases member
  | cons pull pulls ih =>
    rw [Pull.demand_cons] at within
    rcases List.mem_cons.mp member with rfl | behind
    · have asked := positive pull List.mem_cons_self
      have payload : content.take pull.length.toNat ≠ [] := by
        intro nothing
        have counted := congrArg List.length nothing
        rw [List.length_take_of_le (Nat.le_of_add_right_le within), List.length_nil] at counted
        omega
      have some : (content.take pull.length.toNat).isEmpty = false := by
        rw [List.isEmpty_eq_false_iff]
        exact payload
      change (RecordType.data == .data && (content.take pull.length.toNat).isEmpty) = false
      rw [some, Bool.and_false]
    · apply ih _ _ behind
      · rw [List.length_drop]
        omega
      · intro other place
        exact positive other (List.mem_cons_of_mem _ place)

/-! ## Pacing -/

theorem taken_asked (pulls : List Pull) : taken (pulls.map .pulled) = pulls := by
  induction pulls with
  | nil => rfl
  | cons pull pulls ih => rw [List.map_cons, taken_pulled, ih]

theorem taken_halted (opening : Bytes) (channel : Channel) (content : Bytes)
    (served asked : List Pull) (short : List Record) :
    taken (.wrote opening :: (replies channel content served ++
      (asked.map .pulled ++ short.map fun record => .wrote record.octets))) = served ++ asked := by
  rw [taken_wrote, taken_append, taken_replies, taken_append, taken_records, taken_asked,
    List.append_nil]

theorem writes_asked (pulls : List Pull) : writes (pulls.map .pulled) = [] := by
  induction pulls with
  | nil => rfl
  | cons pull pulls ih => exact ih

namespace Paced

theorem nil (besides : Nat) : Paced besides [] := by
  intro before after split
  rw [(List.append_eq_nil_iff.mp split.symm).1]
  exact Nat.zero_le _

theorem pulled {besides : Nat} {moves : List Move} (paced : Paced (besides + 1) moves)
    (pull : Pull) : Paced besides (.pulled pull :: moves) := by
  intro before after split
  cases before with
  | nil => exact Nat.zero_le _
  | cons move before =>
    rcases List.cons.inj split with ⟨rfl, rest⟩
    have bound := paced before after rest
    rw [taken_pulled, List.length_cons, Nat.add_right_comm]
    exact bound

theorem asked (pulls : List Pull) : Paced 0 (pulls.map .pulled) := by
  induction pulls with
  | nil => exact Paced.nil 0
  | cons pull pulls ih =>
    exact Paced.pulled (fun before after split => Nat.le_succ_of_le (ih before after split)) pull

theorem wrote {besides : Nat} {moves : List Move} (paced : Paced besides moves) (bytes : Bytes) :
    Paced (besides + 1) (.wrote bytes :: moves) := by
  intro before after split
  cases before with
  | nil => exact Nat.zero_le _
  | cons move before =>
    rcases List.cons.inj split with ⟨rfl, rest⟩
    have bound := paced before after rest
    rw [taken_wrote]
    exact Nat.succ_le_succ bound

theorem replies {besides : Nat} {moves : List Move} (paced : Paced besides moves)
    (channel : Channel) (content : Bytes) (pulls : List Pull) :
    Paced besides (replies channel content pulls ++ moves) := by
  induction pulls generalizing content with
  | nil => exact paced
  | cons pull pulls ih =>
    rw [replies_cons]
    exact ((ih _).wrote _).pulled pull

end Paced

/-! ## Where a session halts -/

/-- A session halts behind pulls that it answered in full.  It may have been asked for
more, and if that was the last pull, the rest of the file may have gone out. -/
structure Halts (target : Target) (source : Source) (served asked : List Pull)
    (short : List Record) : Prop where
  within : Pull.demand served ≤ source.content.length
  last : short = [] ∨ ∃ pull, asked = [pull] ∧ source.fault = none ∧
    source.content.length < Pull.demand served + pull.length.toNat ∧
    source.content.drop (Pull.demand served) ≠ [] ∧
    short = [.data target.channel (source.content.drop (Pull.demand served))]

/-- What a session does that answers some pulls in full and then one that it cannot
fill. -/
def conversation (target : Target) (info : FileInfo) (content : Bytes) (served : List Pull)
    (last : Pull) : List Move :=
  .wrote (target.opening info).octets :: (replies target.channel content served ++
    .pulled last :: (closing target.channel (content.drop (Pull.demand served))).map
      fun record => .wrote record.octets)

/-- What such a session counts. -/
def tally (content : Bytes) (served : List Pull) : Summary :=
  ⟨served.length + if content.drop (Pull.demand served) = [] then 0 else 1, content.length⟩

theorem writes_conversation (target : Target) (info : FileInfo) (content : Bytes)
    (served : List Pull) (last : Pull) :
    writes (conversation target info content served last) =
      (transcript target info content served).map Record.octets := by
  rw [conversation, writes_wrote, writes_append, writes_replies, writes_pulled, writes_records,
    transcript, List.map_cons, List.map_append]
  rfl

/-- A session whose peer pulls more than the file holds runs to its end. -/
theorem run_overdrawn {target : Target} {info : FileInfo} {readable : Source} {content : Bytes}
    {sink : Sink} {pieces : List Bytes} {earlier more : List Pull} {last : Pull}
    (announceable : info.size ≤ Target.maxFileSize) (holds : readable.Holds content)
    (nonempty : ∀ piece ∈ pieces, piece ≠ [])
    (pulls : Pull.stream pieces.flatten = earlier ++ last :: more)
    (within : Pull.demand earlier ≤ content.length)
    (exceeds : content.length < Pull.demand earlier + last.length.toNat)
    (takes : sink.Takes (transcript target info content earlier).length) (later : List Read) :
    ∃ (remainder : Bytes) (unread : List Read),
      run target info readable sink (pieces.map .octets ++ later) =
        ⟨conversation target info content earlier last,
          .finished (tally content earlier) remainder, unread⟩ := by
  simp only [transcript, List.length_cons, List.length_append, length_filled] at takes
  rcases (Session.opened target readable).write_eq (target.opening info)
    (length_opening_le target info) takes with ⟨left, wrote, room⟩
  rcases Session.serve_overdrawn earlier last more (Session.opened target readable) holds pulls
    within exceeds room with ⟨final, served⟩
  have short : ([] : Bytes).length < Pull.size := by decide
  rcases conclude_pieces short nonempty served [.wrote (target.opening info).octets] later with
    ⟨read, unread, kept, -, -, concluded⟩
  refine ⟨kept, unread.map .octets ++ later, ?_⟩
  rw [run, start_eq readable announceable, wrote]
  refine concluded.trans ?_
  simp only [conversation, tally, Session.opened, Nat.zero_add, List.cons_append, List.nil_append]

namespace Halts

variable {target : Target} {source : Source} {served asked : List Pull} {short : List Record}

/-- What a session wrote when it halted begins what it writes when it does not. -/
theorem transcript_eq (halts : Halts target source served asked short) (info : FileInfo)
    {more : Bytes} {beyond later : List Pull} {last : Pull}
    (unchanged : source.fault = none → more = []) (next : asked <+: beyond ++ last :: later)
    (within : Pull.demand served + Pull.demand beyond ≤ (source.content ++ more).length) :
    ∃ unsent, transcript target info (source.content ++ more) (served ++ beyond) =
      (target.opening info :: (filled target.channel source.content served ++ short)) ++ unsent ++
        [Record.ending target.channel] := by
  have same := filled_of_within target.channel more halts.within
  rcases halts.last with rfl | ⟨pull, rfl, faultless, overdrawn, left, rfl⟩
  · refine ⟨filled target.channel ((source.content ++ more).drop (Pull.demand served)) beyond ++
      if (source.content ++ more).drop (Pull.demand (served ++ beyond)) = [] then []
      else [.data target.channel
        ((source.content ++ more).drop (Pull.demand (served ++ beyond)))], ?_⟩
    simp only [transcript, closing, filled_append, same, Target.opening, List.append_assoc,
      List.cons_append, List.nil_append]
  · rw [unchanged faultless, List.append_nil] at within ⊢
    have none : beyond = [] := by
      cases beyond with
      | nil => rfl
      | cons first beyond =>
        rcases List.cons_prefix_cons.mp next with ⟨rfl, -⟩
        rw [Pull.demand_cons] at within
        omega
    subst none
    refine ⟨[], ?_⟩
    simp only [transcript, closing, if_neg left, Target.opening, List.append_assoc,
      List.cons_append, List.nil_append, List.append_nil]

theorem resumes (halts : Halts target source served asked short) (info : FileInfo)
    {readable : Source} {more : Bytes} {pieces : List Bytes} (later : List Read)
    (announceable : info.size ≤ Target.maxFileSize)
    (holds : readable.Holds (source.content ++ more)) (unchanged : source.fault = none → more = [])
    (nonempty : ∀ piece ∈ pieces, piece ≠ [])
    (pulls : served ++ asked <+: Pull.stream pieces.flatten)
    (overdrawn : (source.content ++ more).length < Pull.demand (Pull.stream pieces.flatten)) :
    ∃ (other : Exchange) (summary : Summary) (remainder : Bytes) (unsent : List Record),
      run target info readable .endless (pieces.map .octets ++ later) = other ∧
      other.outcome = .finished summary remainder ∧
      writes other.moves =
        ((target.opening info :: (filled target.channel source.content served ++ short)) ++
          unsent ++ [Record.ending target.channel]).map Record.octets := by
  rcases pulls with ⟨rest, pulls⟩
  rw [List.append_assoc] at pulls
  have length : (source.content ++ more).length = source.content.length + more.length :=
    List.length_append
  have inside := halts.within
  rw [← pulls, Pull.demand_append] at overdrawn
  have exceeds : (source.content ++ more).length - Pull.demand served <
      Pull.demand (asked ++ rest) := by
    omega
  rcases Pull.exists_overdrawing exceeds with ⟨beyond, last, behind, split, within, exceeds⟩
  rw [split, ← List.append_assoc] at pulls
  have total : Pull.demand (served ++ beyond) = Pull.demand served + Pull.demand beyond :=
    Pull.demand_append served beyond
  rcases halts.transcript_eq info unchanged (split ▸ List.prefix_append asked rest)
    (by omega) with ⟨unsent, sent⟩
  have takes : Sink.endless.Takes (transcript target info (source.content ++ more)
      (served ++ beyond)).length := fun _ => nofun
  rcases run_overdrawn announceable holds nonempty pulls.symm (by omega) (by omega) takes later with
    ⟨remainder, unread, ran⟩
  refine ⟨_, _, remainder, unsent, ran, rfl, ?_⟩
  rw [writes_conversation, sent]

theorem type_of_mem_short (halts : Halts target source served asked short) {record : Record}
    (member : record ∈ short) : record.type = .data := by
  rcases halts.last with rfl | ⟨-, -, -, -, -, rfl⟩
  · cases member
  · cases List.mem_singleton.mp member
    rfl

theorem isEnding_of_mem_short (halts : Halts target source served asked short) {record : Record}
    (member : record ∈ short) : record.isEnding = false := by
  rcases halts.last with rfl | ⟨-, -, -, -, left, rfl⟩
  · cases member
  · cases List.mem_singleton.mp member
    have some := List.isEmpty_eq_false_iff.mpr left
    change (RecordType.data == .data && _) = false
    rw [Record.data, some, Bool.and_false]

theorem paced (halts : Halts target source served asked short) :
    Paced 0 (asked.map .pulled ++ short.map fun record => .wrote record.octets) := by
  rcases halts.last with rfl | ⟨pull, rfl, -, -, -, rfl⟩
  · rw [List.map_nil, List.append_nil]
    exact Paced.asked asked
  · exact ((Paced.nil 0).wrote _).pulled pull

/-- A session that halts is interrupted. -/
theorem interrupted (halts : Halts target source served asked short) {info : FileInfo}
    {reads : List Read} {exchange : Exchange}
    (moves : exchange.moves = .wrote (target.opening info).octets ::
      (replies target.channel source.content served ++
        (asked.map .pulled ++ short.map fun record => .wrote record.octets)))
    (pulls : served ++ asked <+: Pull.stream (delivered reads)) :
    Interrupted target info source reads exchange
      (target.opening info :: (filled target.channel source.content served ++ short)) := by
  have took : taken exchange.moves = served ++ asked := by rw [moves, taken_halted]
  constructor
  case whole =>
    rw [moves, writes_wrote, writes_append, writes_replies, writes_append, writes_asked,
      writes_records, List.nil_append, List.map_cons, List.map_append]
  case opening =>
    intro record first
    exact (Option.some.inj first).symm
  case data =>
    intro record member
    rcases List.mem_append.mp member with answer | rest
    · exact type_of_mem_filled answer
    · exact halts.type_of_mem_short rest
  case pulled => exact took ▸ pulls
  case paced =>
    rw [moves]
    exact ((halts.paced).replies target.channel source.content served).wrote _
  case unmarked =>
    intro positive record member
    rw [took] at positive
    rcases List.mem_cons.mp member with rfl | behind
    · rfl
    · rcases List.mem_append.mp behind with answer | rest
      · apply isEnding_of_mem_filled halts.within _ answer
        intro pull place
        apply positive
        rw [List.tail_cons, List.length_append, length_filled, List.take_append,
          List.take_of_length_le (Nat.le_add_right _ _)]
        exact List.mem_append_left _ place
      · exact halts.isEnding_of_mem_short rest
  case resumed =>
    intro readable more pieces later announceable holds unchanged nonempty goesOn overdrawn
    have still : served ++ asked <+: Pull.stream pieces.flatten := by
      rcases goesOn with ⟨further, stream⟩
      rw [← stream]
      exact pulls.trans (Pull.stream_prefix _ _)
    exact halts.resumes info later announceable holds unchanged nonempty still overdrawn

end Halts

/-! ## From the end of a session to where it halted -/

/-- What goes out of a reply whose rest is refused. -/
theorem Session.sent_of_refused {session : Session} {pull : Pull} {sent unsent : List Record}
    (records : session.reply pull = sent ++ unsent) (more : unsent ≠ []) :
    sent = [] ∨ session.source.content.length < pull.length.toNat ∧
      session.source.content ≠ [] ∧ sent = [.data session.channel session.source.content] := by
  have drained {left : List Record} (behind : [] = left ++ unsent) : False :=
    more (List.append_eq_nil_iff.mp behind.symm).2
  rcases sent with _ | ⟨first, sent⟩
  · exact Or.inl rfl
  · right
    by_cases enough : pull.length.toNat ≤ session.source.content.length
    · rw [reply, if_pos enough] at records
      exact (drained (List.cons.inj records).2).elim
    · rw [reply, if_neg enough, closing] at records
      by_cases none : session.source.content = []
      · rw [if_pos none] at records
        exact (drained (List.cons.inj records).2).elim
      · rw [if_neg none] at records
        rcases List.cons.inj records with ⟨rfl, rest⟩
        rcases sent with _ | ⟨second, sent⟩
        · exact ⟨Nat.lt_of_not_le enough, none, rfl⟩
        · exact (drained (List.cons.inj rest).2).elim

section
variable {target : Target} {info : FileInfo} {source : Source} {reads : List Read}

/-- The last answer of a session that fails with it. -/
theorem Session.AnswerEnds.halts {served : List Pull} {last : Pull} {remainder : Bytes}
    {sink : Sink} {turn : Turn} {fault : Error}
    (ends : ((Session.opened target source).behind served).AnswerEnds last remainder sink turn)
    (failed : turn.stage = .ended (.failed fault))
    (within : Pull.demand served ≤ source.content.length) :
    ∃ short, Halts target source served [last] short ∧
      turn.moves = (short.map fun record => .wrote record.octets) ∧
      ((sink.room = some short.length ∧ fault = .io sink.fault) ∨
        ∃ failure, source.fault = some failure ∧ fault = .io failure ∧
          source.content.length < Pull.demand served + last.length.toNat) := by
  have channel := (Session.opened target source).channel_behind served
  have content := (Session.opened target source).content_behind served
  have unread := (Session.opened target source).fault_behind served
  have length : (source.content.drop (Pull.demand served)).length =
      source.content.length - Pull.demand served := List.length_drop
  cases ends with
  | filled sink enough => cases failed
  | finished sink summary faultless overdrawn => cases failed
  | unread sink failure faulty overdrawn =>
    cases failed
    rw [content] at overdrawn
    refine ⟨[], ⟨within, Or.inl rfl⟩, rfl, Or.inr ⟨failure, unread ▸ faulty, rfl, ?_⟩⟩
    change (source.content.drop _).length < _ at overdrawn
    omega
  | refused sent unsent failure records more readable =>
    cases failed
    refine ⟨sent, ⟨within, ?_⟩, rfl, Or.inl ⟨rfl, rfl⟩⟩
    rcases sent_of_refused records more with rfl | ⟨overdrawn, some, rfl⟩
    · exact Or.inl rfl
    · have faultless := readable overdrawn
      rw [unread] at faultless
      rw [content] at overdrawn some
      refine Or.inr ⟨last, rfl, faultless, ?_, some, ?_⟩
      · change (source.content.drop _).length < _ at overdrawn
        omega
      · rw [channel, content]
        rfl

theorem interrupted_unannounced (exchange : Exchange) (still : exchange.moves = []) :
    Interrupted target info source reads exchange [] := by
  have took : taken exchange.moves = [] := congrArg taken still
  constructor
  case whole => exact congrArg writes still
  case opening => exact fun _ none => nomatch none
  case data => exact fun _ none => nomatch none
  case pulled => exact took ▸ List.nil_prefix
  case paced => exact still ▸ Paced.nil 1
  case unmarked => exact fun _ _ none => nomatch none
  case resumed =>
    intro readable more pieces later announceable holds unchanged nonempty _ overdrawn
    have halts : Halts target source [] [] [] := ⟨Nat.zero_le _, Or.inl rfl⟩
    rcases halts.resumes info later announceable holds unchanged nonempty List.nil_prefix
      overdrawn with ⟨other, summary, remainder, unsent, ran, finished, wrote⟩
    exact ⟨other, summary, remainder, target.opening info :: unsent, ran, finished, wrote⟩

section
variable {sink : Sink} {pieces : List Bytes} {later : List Read} {turn : Turn}

theorem prefix_delivered (nonempty : ∀ piece ∈ pieces, piece ≠ [])
    (split : reads = pieces.map .octets ++ later) {pulls : List Pull}
    (begins : pulls <+: Pull.stream pieces.flatten) :
    pulls <+: Pull.stream (delivered reads) := by
  rw [split, delivered_append nonempty]
  exact begins.trans (Pull.stream_prefix _ _)

/-- A session whose last answer fails. -/
theorem interrupted_at_answer {outcome : Outcome} {fault : Error}
    (nonempty : ∀ piece ∈ pieces, piece ≠ []) (split : reads = pieces.map .octets ++ later)
    (ends : (Session.opened target source).ServeEnds pieces.flatten sink turn)
    (ended : turn.stage = .ended outcome) (failed : outcome = .failed fault) :
    ∃ sent, Interrupted target info source reads
        ⟨[.wrote (target.opening info).octets] ++ turn.moves, outcome, later⟩ sent ∧
      Cause info source (sink.ahead 1) reads
        ⟨[.wrote (target.opening info).octets] ++ turn.moves, outcome, later⟩ sent fault := by
  subst failed
  cases ends with
  | waits answered sink pulls within => cases ended
  | stops answered last further sink turn outcome pulls within ends stopped =>
    cases stopped.symm.trans ended
    rcases ends.halts stopped within with ⟨short, halts, moves, cause⟩
    have begins : answered ++ [last] <+: Pull.stream pieces.flatten := by
      refine ⟨further, ?_⟩
      rw [List.append_assoc]
      exact pulls.symm
    have did : .wrote (target.opening info).octets ::
        (replies target.channel source.content answered ++ [.pulled last] ++ turn.moves) =
        .wrote (target.opening info).octets ::
          (replies target.channel source.content answered ++
            ([last].map .pulled ++ short.map fun record => .wrote record.octets)) := by
      rw [moves, List.append_assoc]
      rfl
    refine ⟨_, halts.interrupted did (prefix_delivered nonempty split begins), ?_⟩
    rcases cause with ⟨full, rfl⟩ | ⟨failure, faulty, rfl, overdrawn⟩
    · rw [Sink.ahead_ahead]
      apply Cause.unwritable
      rw [Sink.ahead, full, List.length_cons, List.length_append, length_filled]
      apply congrArg some
      change short.length + (answered.length + 1) = answered.length + short.length + 1
      omega
    · have asked := congrArg (Pull.demand ∘ taken) did
      rw [Function.comp, Function.comp, taken_halted, Pull.demand_append, Pull.demand_cons] at asked
      exact .unsourced failure faulty (Nat.lt_of_lt_of_eq overdrawn asked.symm)

/-- A session that waits for more when its stream is cut off. -/
theorem interrupted_at_cut {unread : List Read} {waiting : Session} {fault : Error}
    (nonempty : ∀ piece ∈ pieces, piece ≠ []) (split : reads = pieces.map .octets ++ later)
    (ends : (Session.opened target source).ServeEnds pieces.flatten sink turn)
    (waits : turn.stage = .waiting waiting) (cut : Cut waiting.buffer.length later fault unread) :
    ∃ sent, Interrupted target info source reads
        ⟨[.wrote (target.opening info).octets] ++ turn.moves, .failed fault, unread⟩ sent ∧
      Cause info source (sink.ahead 1) reads
        ⟨[.wrote (target.opening info).octets] ++ turn.moves, .failed fault, unread⟩ sent
        fault := by
  cases ends with
  | stops answered last further sink turn outcome pulls within ends stopped =>
    cases stopped.symm.trans waits
  | waits answered sink pulls within =>
    cases waits
    have halts : Halts target source answered [] [] := ⟨within, Or.inl rfl⟩
    have begins : answered ++ [] <+: Pull.stream pieces.flatten := by
      rw [List.append_nil]
      exact pulls ▸ List.prefix_rfl
    have did : .wrote (target.opening info).octets ::
        replies target.channel source.content answered =
        .wrote (target.opening info).octets ::
          (replies target.channel source.content answered ++
            (([] : List Pull).map .pulled ++
              ([] : List Record).map fun record => .wrote record.octets)) :=
      congrArg _ (List.append_nil _).symm
    have took : taken (.wrote (target.opening info).octets ::
        replies target.channel source.content answered) = Pull.stream pieces.flatten := by
      rw [taken_wrote, taken_replies]
      exact pulls.symm
    have counted : (target.opening info ::
        (filled target.channel source.content answered ++ [])).length =
          (Pull.stream pieces.flatten).length + 1 := by
      rw [List.append_nil, List.length_cons, length_filled]
      exact congrArg (·.length + 1) pulls.symm
    have held : (pieces.flatten.drop (3 * answered.length)).length =
        pieces.flatten.length % 3 := by
      rw [← pulls]
      exact Pull.length_behind_stream pieces.flatten
    refine ⟨_, halts.interrupted did (prefix_delivered nonempty split begins), ?_⟩
    cases cut with
    | exhausted =>
      change Cause _ _ _ _ _ _ (.peerClosed 3 (pieces.flatten.drop _).length)
      rw [held]
      exact .closed pieces [] split (Or.inl rfl) took counted
    | closed =>
      change Cause _ _ _ _ _ _ (.peerClosed 3 (pieces.flatten.drop _).length)
      rw [held]
      exact .closed pieces _ split (Or.inr rfl) took counted
    | failed fault => exact .unreadable pieces fault split took counted

end

/-- A session that fails behind its announcement. -/
theorem Concludes.failed {sink : Sink} {exchange : Exchange} {fault : Error}
    (concludes : Concludes (Session.opened target source) sink []
      [.wrote (target.opening info).octets] reads exchange)
    (failed : exchange.outcome = .failed fault) :
    ∃ sent, Interrupted target info source reads exchange sent ∧
      Cause info source (sink.ahead 1) reads exchange sent fault := by
  cases concludes with
  | stopped pieces later turn outcome nonempty split served ended =>
    have ends := (Session.opened target source).serve_ends sink pieces.flatten
    rw [← List.nil_append pieces.flatten, served] at ends
    exact interrupted_at_answer nonempty split ends ended failed
  | cut pieces later unread turn waiting fault nonempty split served waits cut =>
    cases failed
    have ends := (Session.opened target source).serve_ends sink pieces.flatten
    rw [← List.nil_append pieces.flatten, served] at ends
    exact interrupted_at_cut nonempty split ends waits cut

end

/-- A session that fails leaves its peer with whole records and without an ending record,
and the failure tells what happened to it.  A file too large to be announced fails before
anything is read or written, and only such a file does.  A peer that sends no more gets
told how many octets of a pull were there, if nothing else fails first. -/
theorem run_failed (target : Target) (info : FileInfo) (source : Source) (sink : Sink)
    (reads : List Read) :
    (∀ fault, (run target info source sink reads).outcome = .failed fault →
      ∃ sent, Interrupted target info source reads (run target info source sink reads) sent ∧
        Cause info source sink reads (run target info source sink reads) sent fault) ∧
    (Target.maxFileSize < info.size ↔
      run target info source sink reads = ⟨[], .failed overflow, reads⟩) ∧
    (∀ (pieces : List Bytes) (later : List Read), info.size ≤ Target.maxFileSize →
      (∀ piece ∈ pieces, piece ≠ []) → reads = pieces.map .octets ++ later →
      (later = [] ∨ later.head? = some (.octets [])) →
      Pull.demand (Pull.stream pieces.flatten) ≤ source.content.length →
      sink.Takes ((Pull.stream pieces.flatten).length + 1) →
      (run target info source sink reads).outcome =
        .failed (.peerClosed 3 (pieces.flatten.length % 3))) := by
  refine ⟨?_, ⟨?_, ?_⟩, ?_⟩
  · intro fault failed
    by_cases announceable : info.size ≤ Target.maxFileSize
    · rcases sink.full_or_ahead with ⟨refusal, rfl⟩ | ⟨later, rfl⟩
      · rw [run_full source announceable] at failed ⊢
        cases failed
        exact ⟨[], interrupted_unannounced _ rfl, .unwritable rfl⟩
      · exact (run_announced source announceable later reads).failed failed
    · have large := Nat.lt_of_not_le announceable
      rw [run_large source large] at failed ⊢
      cases failed
      exact ⟨[], interrupted_unannounced _ rfl, .unannounced large rfl rfl⟩
  · intro large
    exact run_large source large sink reads
  · intro same
    apply Nat.lt_of_not_le
    intro announceable
    rcases sink.full_or_ahead with ⟨refusal, rfl⟩ | ⟨later, rfl⟩
    · rw [run_full source announceable] at same
      cases same
    · have concludes : Concludes (.opened target source) later [] _ reads _ :=
        run_announced source announceable later reads
      rw [same] at concludes
      cases concludes
  · intro pieces later announceable nonempty split ends within takes
    rcases takes.ahead with ⟨left, rfl⟩
    have held : (pieces.flatten.drop (3 * (Pull.stream pieces.flatten).length)).length =
        pieces.flatten.length % 3 := Pull.length_behind_stream _
    rw [split, run_through source announceable nonempty within, ← held]
    rcases later with _ | ⟨read, later⟩
    · rfl
    · rcases ends with none | closed
      · cases none
      · cases closed
        rfl

/-- Three octets for a node.  Either the ending record is refused, behind a pull of
nothing that was answered, or the peer leaves with an octet of its third pull sent. -/
theorem run_failed_at_ending_or_pull :
    (∃ sent, sent.length = 4 ∧
      Interrupted (.node 9) ⟨3, List.replicate 16 7, rfl⟩ ⟨[[1, 2], [3]], none⟩
        ([[0, 2], [0, 0, 0, 0], [0, 5, 0, 111]].map .octets)
        (run (.node 9) ⟨3, List.replicate 16 7, rfl⟩ ⟨[[1, 2], [3]], none⟩ ⟨some 4, .brokenPipe⟩
          ([[0, 2], [0, 0, 0, 0], [0, 5, 0, 111]].map .octets)) sent) ∧
    (run (.node 9) ⟨3, List.replicate 16 7, rfl⟩ ⟨[[1, 2], [3]], none⟩ ⟨some 4, .brokenPipe⟩
      ([[0, 2], [0, 0, 0, 0, 0]].map .octets)).outcome = .failed (.peerClosed 3 1) := by
  constructor
  · rcases run_failed (.node 9) ⟨3, List.replicate 16 7, rfl⟩ ⟨[[1, 2], [3]], none⟩
      ⟨some 4, .brokenPipe⟩ ([[0, 2], [0, 0, 0, 0], [0, 5, 0, 111]].map .octets) with ⟨fails, -, -⟩
    rcases fails (.io .brokenPipe) (by decide +kernel) with ⟨sent, interrupted, cause⟩
    refine ⟨sent, ?_, interrupted⟩
    cases cause with
    | unreadable pieces fault split pulled answered =>
      have found : Read.fault .brokenPipe ∈
          [[0, 2], [0, 0, 0, 0], [0, 5, 0, 111]].map .octets := by
        rw [split]
        exact List.mem_append_right _ List.mem_cons_self
      exact absurd found (by decide)
    | unwritable full => exact (Option.some.inj full).symm
    | unsourced fault faulty overdrawn => cases faulty
  · exact (run_failed (.node 9) ⟨3, List.replicate 16 7, rfl⟩ ⟨[[1, 2], [3]], none⟩
      ⟨some 4, .brokenPipe⟩ _).2.2 [[0, 2], [0, 0, 0, 0, 0]] [] (by decide) (by decide)
      (List.append_nil _).symm (Or.inl rfl) (by decide) (fun room same => by cases same; decide)

end Relay
end FirmwareGateway
