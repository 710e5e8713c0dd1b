import FirmwareGateway.Proofs.Chunks
import FirmwareGateway.Proofs.Update.Serving
import FirmwareGateway.Proofs.Wire.Requests

namespace FirmwareGateway
namespace Update
namespace Session

/-!
# What completion means

Serving is complete when a report marked as last has gone out.  No report before it
has the mark, and nothing is sent after it.  Its chunk is the last chunk of the image
unless the node asked for a run that begins behind the image; then the report has the
number the node asked for, cut to fifteen bits, and an empty chunk.
-/

/-- Between two states a session sent reports of which only the final one is marked
as last. -/
structure Closes (session : Session) (earlier : List (UInt8 × Wire.Report))
    (final : UInt8 × Wire.Report) (after : Session) : Prop where
  datagrams : ∃ sent, after.link.datagrams = session.link.datagrams ++ sent ∧
    sent.map Wire.Report.received? = (earlier ++ [final]).map some
  before : ∀ report ∈ earlier, report.2.last = false
  last : final.2.last = true

theorem Reports.closes {session after : Session} {earlier : List Nat} {final : Nat}
    (reports : session.Reports (earlier ++ [final]) after)
    (before : ∀ number ∈ earlier, number < session.totalChunks)
    (reached : session.totalChunks ≤ final) :
    session.Closes (earlier.map session.seen) (session.seen final) after where
  datagrams := by
    refine ⟨_, reports.datagrams, ?_⟩
    rw [map_received?_reportDatagram, List.map_append, List.map_singleton]
  before := by
    intro report member
    rcases List.mem_map.mp member with ⟨number, place, rfl⟩
    exact decide_eq_false (Nat.not_le.mpr (before number place))
  last := decide_eq_true reached

/-- When serving completes, exactly one report is marked as last, and it is the final
one.  If the last request begins inside the image, that report carries the number of
chunks and the last chunk.  If it begins behind the image, the report carries what is
left of the request's first number, and nothing else. -/
theorem closes_of_completed {session after : Session} {count : Nat}
    (numbered : session.totalChunks ≤ Wire.maxReportNumber)
    (completed : session.transfer = .ok (.completed count) after) :
    ∃ (request : Wire.ChunkRequest) (earlier : List (UInt8 × Wire.Report))
        (sequence : UInt8) (final : Wire.Report),
      session.Asked request after ∧ session.Closes earlier (sequence, final) after ∧
      (request.first ≤ session.totalChunks →
        final.number.toNat = session.totalChunks ∧
        final.chunk =
          session.image.data.drop (Image.chunkSize * (session.totalChunks - 1))) ∧
      (session.totalChunks < request.first →
        final.number.toNat = request.first % (Wire.maxReportNumber + 1) ∧ final.chunk = []) := by
  have ends := session.transfer_ends
  rw [completed] at ends
  generalize outcomeEq : Outcome.completed count = outcome at ends
  cases ends with
  | abandoned numbers after before reports => cases outcomeEq
  | completed earlier request after before reports asked =>
    have closes := reports.closes before (Nat.le_max_right _ _)
    refine ⟨request, _, _, _, asked, closes, ?_, ?_⟩
    · intro inside
      rw [Nat.max_eq_right inside]
      constructor
      · rw [toNat_number_reportFor]
        exact Nat.mod_eq_of_lt (Nat.lt_succ_of_le numbered)
      · exact session.image.chunk_totalChunks
    · intro behind
      rw [Nat.max_eq_left (Nat.le_of_lt behind)]
      constructor
      · exact session.toNat_number_reportFor request.first
      · exact Image.chunk_of_totalChunks_lt behind

/-! ## An image of one chunk -/

/-- A session for an image of one octet whose node asks for the chunk of one number. -/
def askedFor (number : UInt8) : Session :=
  ⟨.opened [⟨0, .datagram [0x7a, 0x05, 0x01, 0x00, number]⟩] [], ⟨[0x2a]⟩, {}, 0⟩

/-- Asked for its only chunk, or for one behind it, such a session sends one report, and
serving is complete. -/
theorem transfer_askedFor {number : UInt8} (positive : 1 ≤ number.toNat) :
    (askedFor number).transfer =
      .ok (.completed 1) (((askedFor number).waited 0 []).afterReport number.toNat) := by
  have first : number.toUInt16.toNat = number.toNat := number.toNat_toUInt16
  have read : Wire.ChunkRequest.read? [0x7a, 0x05, 0x01, 0x00, number] =
      some ⟨number.toUInt16, 1⟩ :=
    Wire.ChunkRequest.read?_eq_some_iff.mpr
      ⟨[], 0x00, number, rfl, first.trans (Nat.zero_add _).symm⟩
  have awaited : awaitChunkRequest (askedFor number).settings.requestTimeout (askedFor number) =
      .ok ⟨number.toUInt16, 1⟩ ((askedFor number).waited 0 []) := by
    rw [awaitChunkRequest_eq]
    simp only [askedFor, Link.opened, awaitWanted, receiveLimit, List.take, read]
    rfl
  have reached : (askedFor number).totalChunks ≤ number.toUInt16.toNat := by
    have single : (Image.mk [0x2a]).totalChunks = 1 := rfl
    rw [first]
    exact Nat.le_trans (Nat.le_of_eq single) positive
  have delivered : deliver ⟨number.toUInt16, 1⟩ ((askedFor number).waited 0 []) =
      .ok true (((askedFor number).waited 0 []).afterReport number.toUInt16.toNat) :=
    sendReports_last List.not_mem_nil reached
  rw [first] at delivered
  exact transfer_of_deliver_last awaited rfl delivered

theorem closes_of_completed_one_octet :
    (askedFor 1).totalChunks ≤ Wire.maxReportNumber ∧
      (askedFor 1).transfer = .ok (.completed 1) (((askedFor 1).waited 0 []).afterReport 1) ∧
      ∃ (request : Wire.ChunkRequest) (earlier : List (UInt8 × Wire.Report))
          (sequence : UInt8) (final : Wire.Report),
        (askedFor 1).Asked request (((askedFor 1).waited 0 []).afterReport 1) ∧
        (askedFor 1).Closes earlier (sequence, final)
          (((askedFor 1).waited 0 []).afterReport 1) ∧
        (request.first ≤ 1 → final.number.toNat = 1 ∧ final.chunk = [0x2a]) ∧
        (1 < request.first → final.number.toNat = request.first % 0x8000 ∧ final.chunk = []) := by
  have numbered : (askedFor 1).totalChunks ≤ Wire.maxReportNumber := by decide
  have completed : (askedFor 1).transfer =
      .ok (.completed 1) (((askedFor 1).waited 0 []).afterReport 1) :=
    transfer_askedFor (Nat.le_refl 1)
  exact ⟨numbered, completed, closes_of_completed numbered completed⟩

/-- A request that begins behind the image completes serving without the last chunk:
of an image of one chunk, the only report sent has number two and an empty chunk. -/
theorem not_closes_at_totalChunks :
    ¬ ∀ (link : Link) (image : Image) (settings : Settings) (session after : Session)
        (count : Nat),
      Session.opened link image settings = .ok session → image.data ≠ [] →
      session.transfer = .ok (.completed count) after →
      ∃ (earlier : List (UInt8 × Wire.Report)) (sequence : UInt8) (final : Wire.Report),
        session.Closes earlier (sequence, final) after ∧
        final.number.toNat = session.totalChunks ∧
        final.chunk = image.data.drop (Image.chunkSize * (session.totalChunks - 1)) := by
  intro always
  rcases always (askedFor 2).link (askedFor 2).image (askedFor 2).settings (askedFor 2) _ _ rfl
    (List.cons_ne_nil _ _) (transfer_askedFor (Nat.le_succ 1)) with
    ⟨earlier, sequence, final, closes, number, chunk⟩
  rcases closes.datagrams with ⟨sent, datagrams, received⟩
  have only : [(askedFor 2).reportDatagram 2] = sent := datagrams
  have seen : [some ((askedFor 2).seen 2)] = (earlier ++ [(sequence, final)]).map some := by
    rw [← received, ← only, List.map_singleton, received?_reportDatagram]
  cases earlier with
  | nil =>
    cases seen
    exact absurd number (by decide)
  | cons report earlier =>
    have counted := congrArg List.length seen
    simp only [List.length_map, List.length_append, List.length_cons, List.length_nil] at counted
    omega

end Session

end Update
end FirmwareGateway
