import FirmwareGateway.Proofs.Chunks
import FirmwareGateway.Proofs.Update.History

namespace FirmwareGateway
namespace Update
namespace Session

/-!
# What the number of a report tells

A report carries fifteen bits of the number that it was asked for under.  An image has
no more chunks than fifteen bits can number, but a node may ask for any number, and one
that does not fit comes back cut.  Of two reports with one number, the number tells
everything when both numbers fit or neither does; otherwise the report whose number did
not fit is marked as last and empty, whatever chunk the image has under what is left.
-/

section
variable {session : Session} {first second : Nat}

theorem toNat_number_reportFor_of_le (session : Session) (fits : first ≤ Wire.maxReportNumber) :
    (session.reportFor first).number.toNat = first := by
  rw [toNat_number_reportFor]
  exact Nat.mod_eq_of_lt (Nat.lt_succ_of_le fits)

/-- Numbers that fit are told apart. -/
theorem eq_of_number_reportFor_eq (fits : first ≤ Wire.maxReportNumber)
    (others : second ≤ Wire.maxReportNumber)
    (alike : (session.reportFor first).number = (session.reportFor second).number) :
    first = second := by
  rw [← toNat_number_reportFor_of_le session fits, alike,
    toNat_number_reportFor_of_le session others]

theorem reportFor_last_nil_iff :
    (session.reportFor first).last = true ∧ (session.reportFor first).chunk = [] ↔
      session.totalChunks = 0 ∨ session.totalChunks < first := by
  change decide (session.totalChunks ≤ first) = true ∧ session.image.chunk first = [] ↔ _
  rw [decide_eq_true_iff, Image.chunk_eq_nil_iff]
  change _ ∧ (_ ∨ session.totalChunks < first) ↔ _
  omega

/-- A number that does not fit is behind every chunk. -/
theorem reportFor_of_maxReportNumber_lt (numbered : session.totalChunks ≤ Wire.maxReportNumber)
    (beyond : Wire.maxReportNumber < first) :
    (session.reportFor first).last = true ∧ (session.reportFor first).chunk = [] :=
  reportFor_last_nil_iff.mpr (Or.inr (Nat.lt_of_le_of_lt numbered beyond))

/-- Where one number fits and the other does not, the reports say the same only if the
image has no chunk under the number that both carry. -/
theorem reportFor_agree_iff_of_le_of_lt (numbered : session.totalChunks ≤ Wire.maxReportNumber)
    (fits : first ≤ Wire.maxReportNumber) (beyond : Wire.maxReportNumber < second) :
    ((session.reportFor first).last = (session.reportFor second).last ∧
      (session.reportFor first).chunk = (session.reportFor second).chunk) ↔
    session.totalChunks = 0 ∨
      session.totalChunks < (session.reportFor first).number.toNat := by
  rcases reportFor_of_maxReportNumber_lt numbered beyond with ⟨last, chunk⟩
  rw [last, chunk, toNat_number_reportFor_of_le session fits]
  exact reportFor_last_nil_iff

theorem reportFor_agree_iff (numbered : session.totalChunks ≤ Wire.maxReportNumber)
    (alike : (session.reportFor first).number = (session.reportFor second).number) :
    ((session.reportFor first).last = (session.reportFor second).last ∧
      (session.reportFor first).chunk = (session.reportFor second).chunk) ↔
    (first ≤ Wire.maxReportNumber ↔ second ≤ Wire.maxReportNumber) ∨
      session.totalChunks = 0 ∨
      session.totalChunks < (session.reportFor first).number.toNat := by
  by_cases fits : first ≤ Wire.maxReportNumber
  · by_cases others : second ≤ Wire.maxReportNumber
    · have same := eq_of_number_reportFor_eq fits others alike
      subst same
      exact iff_of_true ⟨rfl, rfl⟩ (Or.inl Iff.rfl)
    · rw [iff_true_left fits, or_iff_right others]
      exact reportFor_agree_iff_of_le_of_lt numbered fits (Nat.not_le.mp others)
  · have beyond := reportFor_of_maxReportNumber_lt numbered (Nat.not_le.mp fits)
    by_cases others : second ≤ Wire.maxReportNumber
    · rw [iff_false_left fits, or_iff_right (not_not_intro others), alike, eq_comm,
        eq_comm (b := (session.reportFor second).chunk)]
      exact reportFor_agree_iff_of_le_of_lt numbered others (Nat.not_le.mp fits)
    · have also := reportFor_of_maxReportNumber_lt numbered (Nat.not_le.mp others)
      refine iff_of_true ⟨?_, ?_⟩ (Or.inl (iff_of_false fits others))
      · rw [beyond.1, also.1]
      · rw [beyond.2, also.2]

end

/-- The reports of a session answer numbers that its node or its caller asked for.  Two
of them with one number have the same mark and the same octets exactly when both numbers
asked for fit into fifteen bits, or neither does, or there is no such chunk: with no
chunk of that number in the image, or no chunk at all, all such reports are marked as
last and empty.  What was asked for under a number that does not fit is always marked as
last and empty. -/
theorem reports_agree_iff {link : Link} {image : Image} {settings : Settings}
    {session : Session} (opened : Session.opened link image settings = .ok session)
    (calls : List Call) :
    ∃ numbers : List Nat,
      session.reportsUntil (session.afterCalls calls) = numbers.map session.seen ∧
      (∀ number ∈ numbers, ∃ request : Wire.ChunkRequest, number ∈ request.numbers ∧
        (.deliver request ∈ calls ∨ session.Brings request)) ∧
      (∀ first ∈ numbers, ∀ second ∈ numbers,
        (session.reportFor first).number = (session.reportFor second).number →
        (((session.reportFor first).last = (session.reportFor second).last ∧
            (session.reportFor first).chunk = (session.reportFor second).chunk) ↔
          (first ≤ Wire.maxReportNumber ↔ second ≤ Wire.maxReportNumber) ∨
            session.totalChunks = 0 ∨
            session.totalChunks < (session.reportFor first).number.toNat)) ∧
      ∀ number ∈ numbers, Wire.maxReportNumber < number →
        (session.reportFor number).last = true ∧ (session.reportFor number).chunk = [] := by
  have numbered := (eq_of_opened opened).2
  let wanted (request : Wire.ChunkRequest) : Prop :=
    .deliver request ∈ calls ∨ session.Brings request
  have asks : ∀ request, .deliver request ∈ calls → wanted request := fun _ => Or.inl
  have arriving : ∀ request, session.Brings request → wanted request := fun _ => Or.inr
  rcases exists_reported asks arriving with ⟨numbers, reported⟩
  refine ⟨numbers, reported.reportsUntil_eq, ?_, ?_, ?_⟩
  · intro number member
    rcases reported.asked number member with ⟨request, origin, inside⟩
    exact ⟨request, inside, origin⟩
  · intro first _ second _ alike
    exact reportFor_agree_iff numbered alike
  · intro number _ beyond
    exact reportFor_of_maxReportNumber_lt numbered beyond

/-! ## An image of two chunks -/

/-- A session for an image of two chunks. -/
def twoChunks : Session :=
  ⟨.opened [] [], ⟨List.replicate 41 0x2a⟩, {}, 0⟩

/-- The first chunk asked for under its number, and under one that leaves the same when
it is cut. -/
def askedTwice : List Call :=
  [.deliver ⟨1, 1⟩, .deliver ⟨32769, 1⟩]

theorem opened_twoChunks :
    Session.opened (.opened [] []) ⟨List.replicate 41 0x2a⟩ {} = .ok twoChunks := rfl

theorem reportsUntil_askedTwice :
    twoChunks.reportsUntil (twoChunks.afterCalls askedTwice) =
      [twoChunks.seen 1, twoChunks.seen 32769] := by
  decide +kernel

theorem reports_agree_iff_two_chunks :
    Session.opened (.opened [] []) ⟨List.replicate 41 0x2a⟩ {} = .ok twoChunks ∧
      ∃ numbers : List Nat,
        [twoChunks.seen 1, twoChunks.seen 32769] = numbers.map twoChunks.seen ∧
        ∀ first ∈ numbers, ∀ second ∈ numbers,
          (twoChunks.reportFor first).number = (twoChunks.reportFor second).number →
          (((twoChunks.reportFor first).last = (twoChunks.reportFor second).last ∧
              (twoChunks.reportFor first).chunk = (twoChunks.reportFor second).chunk) ↔
            (first ≤ 0x7fff ↔ second ≤ 0x7fff) ∨ 2 = 0 ∨
              2 < (twoChunks.reportFor first).number.toNat) := by
  rcases reports_agree_iff opened_twoChunks askedTwice with ⟨numbers, sent, -, agree, -⟩
  rw [reportsUntil_askedTwice] at sent
  exact ⟨opened_twoChunks, numbers, sent, agree⟩

/-- A report of the first chunk and an empty one that is marked as last can carry the
same number. -/
theorem not_reports_agree :
    ¬ ∀ (link : Link) (image : Image) (settings : Settings) (session : Session)
        (calls : List Call),
      Session.opened link image settings = .ok session →
      ∀ first ∈ session.reportsUntil (session.afterCalls calls),
        ∀ second ∈ session.reportsUntil (session.afterCalls calls),
          first.2.number = second.2.number →
          first.2.last = second.2.last ∧ first.2.chunk = second.2.chunk := by
  intro always
  have agree := always _ _ _ twoChunks askedTwice opened_twoChunks
  rw [reportsUntil_askedTwice] at agree
  have same : (twoChunks.seen 1).2.last = (twoChunks.seen 32769).2.last :=
    (agree _ List.mem_cons_self _ (List.mem_cons_of_mem _ List.mem_cons_self) (by decide)).1
  exact absurd same (by decide)

end Session

end Update
end FirmwareGateway
