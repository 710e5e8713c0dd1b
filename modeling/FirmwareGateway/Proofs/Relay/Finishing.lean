import FirmwareGateway.Proofs.Relay.Reception

namespace FirmwareGateway
namespace Relay

/-!
# Sessions that finish

A session finishes exactly if its peer pulls more than the file holds and everything that
it then has to send goes out.  So what decides is the stream up to that pull; the pieces
in which it comes, what stands behind it, and where the sink would give out later do not
matter.  What such a session writes delivers the file.
-/

/-- A stream pulls more than some content holds: the pulls that the content can fill, and
the first that it cannot. -/
structure Overdraws (octets : Bytes) (size : Nat) (served : List Pull) (last : Pull) : Prop where
  pulls : served ++ [last] <+: Pull.stream octets
  within : Pull.demand served ≤ size
  exceeds : size < Pull.demand served + last.length.toNat

theorem Overdraws.of_prefix {octets more : Bytes} {size : Nat} {served : List Pull} {last : Pull}
    (overdraws : Overdraws octets size served last) (begins : octets <+: more) :
    Overdraws more size served last where
  pulls := by
    rcases begins with ⟨rest, rfl⟩
    exact overdraws.pulls.trans (Pull.stream_prefix octets rest)
  within := overdraws.within
  exceeds := overdraws.exceeds

/-- What a peer sends before it ends the stream or reading fails comes in pieces. -/
theorem exists_pieces (reads : List Read) :
    ∃ (pieces : List Bytes) (later : List Read), (∀ piece ∈ pieces, piece ≠ []) ∧
      reads = pieces.map .octets ++ later ∧ delivered reads = pieces.flatten := by
  induction reads with
  | nil => exact ⟨[], [], nofun, rfl, rfl⟩
  | cons read reads ih =>
    rcases read with (_ | ⟨octet, octets⟩) | fault
    · exact ⟨[], _, nofun, rfl, rfl⟩
    · rcases ih with ⟨pieces, later, nonempty, split, stream⟩
      refine ⟨(octet :: octets) :: pieces, later, ?_, ?_, ?_⟩
      · exact List.forall_mem_cons.mpr ⟨List.cons_ne_nil _ _, nonempty⟩
      · rw [split]
        rfl
      · rw [delivered, stream]
        rfl
    · exact ⟨[], _, nofun, rfl, rfl⟩

theorem delivered_prefix (reads later : List Read) :
    delivered reads <+: delivered (reads ++ later) := by
  induction reads with
  | nil => exact List.nil_prefix
  | cons read reads ih =>
    rcases read with (_ | ⟨octet, octets⟩) | fault
    · exact List.prefix_rfl
    · exact (List.prefix_append_right_inj (octet :: octets)).mpr ih
    · exact List.prefix_rfl

section
variable {target : Target} {info : FileInfo} {source : Source} {sink : Sink} {reads : List Read}

/-- A session whose stream pulls more than the file holds finishes. -/
theorem run_of_overdraws {content : Bytes} {served : List Pull} {last : Pull}
    (announceable : info.size ≤ Target.maxFileSize) (holds : source.Holds content)
    (overdraws : Overdraws (delivered reads) content.length served last)
    (takes : sink.Takes (transcript target info content served).length) :
    ∃ (remainder : Bytes) (unread : List Read),
      run target info source sink reads =
        ⟨conversation target info content served last,
          .finished (tally content served) remainder, unread⟩ := by
  rcases exists_pieces reads with ⟨pieces, later, nonempty, rfl, stream⟩
  rcases overdraws.pulls with ⟨more, pulls⟩
  rw [stream, List.append_assoc] at pulls
  exact run_overdrawn announceable holds nonempty pulls.symm overdraws.within overdraws.exceeds
    takes later

theorem Sink.takes_ahead (sink : Sink) (count : Nat) : (sink.ahead count).Takes count := by
  intro room same
  rcases sink with ⟨_ | left, fault⟩
  · cases same
  · cases same
    exact Nat.le_add_left count left

/-- An answer that finishes a session overdraws the file. -/
theorem Session.ServeEnds.overdraws {octets : Bytes} {turn : Turn} {summary : Summary}
    {remainder : Bytes} (ends : (Session.opened target source).ServeEnds octets sink turn)
    (finished : turn.stage = .ended (.finished summary remainder)) :
    source.fault = none ∧ ∃ served last, Overdraws octets source.content.length served last ∧
      (sink.ahead 1).Takes (transcript target info source.content served).length := by
  cases ends with
  | waits answered sink pulls within => cases finished
  | stops answered last more sink turn outcome pulls within ends stopped =>
    cases stopped.symm.trans finished
    cases ends with
    | filled sink enough => cases stopped
    | unread fault faulty overdrawn => cases stopped
    | refused sent unsent fault records more readable => cases stopped
    | finished sink summary faultless overdrawn =>
      rw [fault_behind] at faultless
      rw [content_behind, List.length_drop] at overdrawn
      rw [content_behind, channel_behind, Sink.ahead_ahead, Sink.ahead_ahead]
      refine ⟨faultless, answered, last, ⟨?_, within, ?_⟩, ?_⟩
      · rw [pulls, List.append_cons answered last more]
        exact List.prefix_append _ more
      · change source.content.length - _ < _ at overdrawn
        omega
      · have counted : (transcript target info source.content answered).length =
            (closing target.channel (source.content.drop (Pull.demand answered))).length +
              answered.length + 1 := by
          rw [transcript, List.length_cons, List.length_append, length_filled, Nat.add_comm]
          rw [Nat.add_comm answered.length, Nat.add_comm]
        rw [counted]
        exact sink.takes_ahead _

/-- Only such a session finishes. -/
theorem overdraws_of_finished {summary : Summary} {remainder : Bytes}
    (finished : (run target info source sink reads).outcome = .finished summary remainder) :
    info.size ≤ Target.maxFileSize ∧ source.fault = none ∧
      ∃ served last, Overdraws (delivered reads) source.content.length served last ∧
        sink.Takes (transcript target info source.content served).length := by
  by_cases announceable : info.size ≤ Target.maxFileSize
  · rcases sink.full_or_ahead with ⟨refusal, rfl⟩ | ⟨left, rfl⟩
    · rw [run_full source announceable] at finished
      cases finished
    · have concludes : Concludes (Session.opened target source) left [] _ reads _ :=
        run_announced source announceable left reads
      generalize run target info source (left.ahead 1) reads = exchange at concludes finished
      cases concludes with
      | cut pieces later unread turn waiting fault nonempty split served waits cut => cases finished
      | stopped pieces later turn outcome nonempty split served ended =>
        have ends := (Session.opened target source).serve_ends left pieces.flatten
        rw [← List.nil_append pieces.flatten, served] at ends
        cases finished
        rcases ends.overdraws ended with ⟨faultless, answered, last, overdraws, takes⟩
        refine ⟨announceable, faultless, answered, last, ?_, takes⟩
        apply overdraws.of_prefix
        rw [split, delivered_append nonempty]
        exact List.prefix_append _ _
  · rw [run_large source (Nat.lt_of_not_le announceable)] at finished
    cases finished

/-- What a session did that finished: what it said, and what it counted. -/
theorem conversation_of_finished {summary : Summary} {remainder : Bytes}
    (finished : (run target info source sink reads).outcome = .finished summary remainder) :
    info.size ≤ Target.maxFileSize ∧ source.fault = none ∧
      ∃ served last, Overdraws (delivered reads) source.content.length served last ∧
        sink.Takes (transcript target info source.content served).length ∧
        (run target info source sink reads).moves =
          conversation target info source.content served last ∧
        summary = tally source.content served := by
  rcases overdraws_of_finished finished with
    ⟨announceable, faultless, served, last, overdraws, takes⟩
  rcases run_of_overdraws announceable ⟨faultless, rfl⟩ overdraws takes with
    ⟨rest, unread, ran⟩
  rw [ran] at finished ⊢
  cases finished
  exact ⟨announceable, faultless, served, last, overdraws, takes, rfl, rfl⟩

/-- A session that finished does the same again for a peer that sends the same and perhaps
more, in whatever pieces, and with any sink that takes as much. -/
theorem run_again {summary : Summary} {remainder : Bytes}
    (finished : (run target info source sink reads).outcome = .finished summary remainder)
    {other : Sink} {others : List Read} (begins : delivered reads <+: delivered others)
    (takes : other.Takes (writes (run target info source sink reads).moves).length) :
    ∃ (rest : Bytes) (unread : List Read), run target info source other others =
      ⟨(run target info source sink reads).moves, .finished summary rest, unread⟩ := by
  rcases conversation_of_finished finished with
    ⟨announceable, faultless, served, last, overdraws, -, moves, counts⟩
  rw [moves, writes_conversation, List.length_map] at takes
  rw [moves, counts]
  exact run_of_overdraws announceable ⟨faultless, rfl⟩ (overdraws.of_prefix begins) takes

end

/-- A receiver gets the file of a session that finished, and was told of it. -/
theorem delivers_of_finished {target : Target} {content : Bytes} {sink : Sink} {reads : List Read}
    {summary : Summary} {remainder : Bytes}
    (finished : (run target (.of content) (.ofBytes content) sink reads).outcome =
      .finished summary remainder) :
    ∃ header data, Delivers target content
      (writes (run target (.of content) (.ofBytes content) sink reads).moves).flatten summary
      header data := by
  have holds : (Source.ofBytes content).content = content := List.append_nil content
  rcases conversation_of_finished finished with
    ⟨announceable, -, served, last, overdraws, -, moves, counts⟩
  rw [holds] at overdraws moves counts
  rw [moves, writes_conversation, counts]
  exact ⟨_, _, delivers_transcript target announceable overdraws.exceeds⟩

end Relay
end FirmwareGateway
