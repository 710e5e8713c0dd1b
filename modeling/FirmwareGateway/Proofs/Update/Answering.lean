import FirmwareGateway.Proofs.Update.Delivery

namespace FirmwareGateway
namespace Update
namespace Session

/-!
# What a request is answered with

Of the chunks that a request asks for, those up to the last of the image are reported;
when the first one asked for lies behind the image, it alone is.  `reach` is that part of
a run of numbers.  The recursion is on how many chunks are asked for: a number below the
bound is reported and the rest of the run is left, and the first number that is not ends
the delivery.

`Answers` is all that a delivery does to a session: which datagrams go out and when, how
many are counted, and what the clock shows.  A delivery that the link breaks off is the
answer with the reports that went out before.
-/

/-! ## The part of a run that is reported -/

/-- The numbers of a run up to a bound, or only its first when that is behind the bound. -/
def reach (bound first size : Nat) : List Nat :=
  (List.range' first size).filter (· ≤ max first bound)

/-- The numbers of the chunks that a request is answered with. -/
def answered (session : Session) (request : Wire.ChunkRequest) : List Nat :=
  reach session.totalChunks request.first request.size.toNat

section
variable {bound first : Nat}

/-- Whatever the bound, the run begins with its first number. -/
theorem reach_succ (bound first size : Nat) :
    reach bound first (size + 1) =
      first :: (List.range' (first + 1) size).filter (· ≤ max first bound) := by
  have within : decide (first ≤ max first bound) = true := decide_eq_true (Nat.le_max_left _ _)
  rw [reach, List.range'_succ, List.filter_cons, within]
  rfl

theorem reach_succ_of_le (behind : bound ≤ first) (size : Nat) :
    reach bound first (size + 1) = [first] := by
  have noneLeft : (List.range' (first + 1) size).filter (· ≤ max first bound) = [] := by
    apply List.filter_eq_nil_iff.mpr
    intro number member
    have past := (List.mem_range'_1.mp member).1
    rw [decide_eq_true_eq]
    omega
  rw [reach_succ, noneLeft]

theorem reach_succ_of_lt (before : first < bound) (size : Nat) :
    reach bound first (size + 1) = first :: reach bound (first + 1) size := by
  have same : max (first + 1) bound = max first bound := by omega
  rw [reach_succ, reach, same]

/-- A run that begins inside is reported up to the bound. -/
theorem reach_eq_range' (begins : first ≤ bound) (size : Nat) :
    reach bound first size = List.range' first (min size (bound + 1 - first)) := by
  induction size generalizing first with
  | zero => rw [Nat.zero_min]; rfl
  | succ size ih =>
    rcases Nat.lt_or_eq_of_le begins with before | rfl
    · have count : min (size + 1) (bound + 1 - first) =
          min size (bound + 1 - (first + 1)) + 1 := by omega
      rw [reach_succ_of_lt before, ih before, count, List.range'_succ]
    · have count : min (size + 1) (first + 1 - first) = 1 := by omega
      rw [reach_succ_of_le (Nat.le_refl first), count]
      rfl

end

/-! ## Reporting a run -/

/-- A link that takes every report lets the whole answer out. -/
theorem sendReports_reach (size first : Nat) (session : Session)
    (takes : session.link.Takes (reach session.totalChunks first size).length) :
    sendReports (List.range' first size) session =
      .ok (decide (0 < size ∧ session.totalChunks ≤ first + size - 1))
        (session.afterReports (reach session.totalChunks first size)) := by
  induction size generalizing first session with
  | zero => rfl
  | succ size ih =>
    rw [List.range'_succ]
    by_cases reached : session.totalChunks ≤ first
    · rw [reach_succ_of_le reached] at takes ⊢
      have taken : ¬ session.link.Refuses := takes 0 Nat.one_pos
      have last : 0 < size + 1 ∧ session.totalChunks ≤ first + (size + 1) - 1 := by omega
      rw [sendReports_last taken reached, decide_eq_true last]
      rfl
    · rw [reach_succ_of_lt (Nat.not_le.mp reached)] at takes ⊢
      have taken : ¬ session.link.Refuses := takes 0 (Nat.zero_lt_succ _)
      have rest := ih (first + 1) (session.afterReport first) (takes_afterReport takes first)
      have last : (0 < size ∧ session.totalChunks ≤ first + 1 + size - 1) ↔
          (0 < size + 1 ∧ session.totalChunks ≤ first + (size + 1) - 1) := by omega
      rw [sendReports_through taken reached, rest, ← decide_eq_decide.mpr last]
      rfl

/-- A session behind an attempt that was refused. -/
def refusing (session : Session) : Session :=
  { session with link := session.link.refusing }

/-- A link that refuses a report ends the delivery behind those before it. -/
theorem sendReports_reach_refused (size first count : Nat) (session : Session)
    (within : count < (reach session.totalChunks first size).length)
    (takes : session.link.Takes count)
    (refuses : session.link.attempts + count ∈ session.link.refused) :
    sendReports (List.range' first size) session =
      .error refusal
        (session.afterReports ((reach session.totalChunks first size).take count)).refusing := by
  induction size generalizing first count session with
  | zero => cases within
  | succ size ih =>
    rw [List.range'_succ]
    cases count with
    | zero => exact sendReports_refused refuses
    | succ count =>
      have taken : ¬ session.link.Refuses := takes 0 (Nat.zero_lt_succ _)
      by_cases reached : session.totalChunks ≤ first
      · rw [reach_succ_of_le reached, List.length_singleton] at within
        omega
      · rw [reach_succ_of_lt (Nat.not_le.mp reached)] at within ⊢
        rw [sendReports_through taken reached]
        have next : session.link.attempts + 1 + count ∈ session.link.refused := by
          rwa [Nat.add_assoc, Nat.add_comm 1]
        exact ih (first + 1) count (session.afterReport first) (Nat.lt_of_succ_lt_succ within)
          (takes_afterReport takes first) next

/-! ## The answer -/

/-- When and as what octets the report of a chunk goes out, behind `index` others. -/
def transmission (session : Session) (index number : Nat) : Transmission where
  time := session.link.now + index * session.settings.reportInterval
  datagram :=
    let report : Wire.Report :=
      { number := UInt16.ofNat (number % 0x8000)
        last := decide (session.totalChunks ≤ number)
        chunk := session.image.chunk number }
    let sequence := UInt8.ofNat ((number + 2) % 256)
    (Wire.Envelope.around report.octets sequence (.of .controller session.settings.secure)).octets

/-- Between two states a session sent the reports of some chunks, one in every interval,
and counted them.  Only how often sending was tried is left open. -/
structure Answers (session : Session) (numbers : List Nat) (after : Session) : Prop where
  image : after.image = session.image
  settings : after.settings = session.settings
  inbound : after.link.inbound = session.link.inbound
  refused : after.link.refused = session.link.refused
  sent : after.link.sent.toList =
    session.link.sent.toList ++ numbers.mapIdx session.transmission
  chunksSent : after.chunksSent = session.chunksSent + numbers.length
  now : after.link.now = session.link.now + numbers.length * session.settings.reportInterval

theorem transmission_zero (session : Session) (number : Nat) :
    session.transmission 0 number = ⟨session.link.now, session.reportDatagram number⟩ := by
  have sequence : UInt8.ofNat ((number + 2) % 256) = sequenceFor number :=
    UInt8.ofNat_mod_size
  rw [transmission, sequence, Nat.zero_mul]
  rfl

theorem transmission_afterReport (session : Session) (index number reported : Nat) :
    (session.afterReport reported).transmission index number =
      session.transmission (index + 1) number := by
  have time : session.link.now + session.settings.reportInterval +
      index * session.settings.reportInterval =
        session.link.now + (index + 1) * session.settings.reportInterval := by
    rw [Nat.succ_mul, Nat.add_assoc, Nat.add_comm (index * _)]
  rw [transmission, transmission, ← time]
  rfl

theorem sent_afterReports (session : Session) (numbers : List Nat) :
    (session.afterReports numbers).link.sent.toList =
      session.link.sent.toList ++ numbers.mapIdx session.transmission := by
  induction numbers generalizing session with
  | nil => exact (List.append_nil _).symm
  | cons number numbers ih =>
    have first : (session.afterReport number).link.sent.toList =
        session.link.sent.toList ++ [session.transmission 0 number] := by
      rw [transmission_zero]
      exact Array.toList_push
    have others : (session.afterReport number).transmission =
        fun index => session.transmission (index + 1) := by
      funext index later
      exact session.transmission_afterReport index later number
    rw [List.mapIdx_cons, List.append_cons, ← first, ← others]
    exact ih (session.afterReport number)

theorem answers_afterReports (session : Session) (numbers : List Nat) :
    session.Answers numbers (session.afterReports numbers) where
  image := (session.reports_afterReports numbers).image
  settings := (session.reports_afterReports numbers).settings
  inbound := session.inbound_afterReports numbers
  refused := session.refused_afterReports numbers
  sent := session.sent_afterReports numbers
  chunksSent := (session.reports_afterReports numbers).chunksSent
  now := session.now_afterReports numbers

/-- An attempt that is refused changes nothing of an answer. -/
theorem Answers.refusing {session after : Session} {numbers : List Nat}
    (answers : session.Answers numbers after) : session.Answers numbers after.refusing :=
  { answers with }

section
variable (session : Session) (request : Wire.ChunkRequest)

theorem deliver_taken (takes : session.link.Takes (session.answered request).length) :
    deliver request session =
      .ok (decide (0 < request.size.toNat ∧
          session.totalChunks ≤ request.first + request.size.toNat - 1))
        (session.afterReports (session.answered request)) :=
  sendReports_reach _ _ session takes

theorem deliver_refused {count : Nat} (within : count < (session.answered request).length)
    (takes : session.link.Takes count)
    (refuses : session.link.attempts + count ∈ session.link.refused) :
    deliver request session =
      .error refusal (session.afterReports ((session.answered request).take count)).refusing :=
  sendReports_reach_refused _ _ count session within takes refuses

/-- A delivery has no other end. -/
theorem deliver_ends :
    deliver request session =
        .ok (decide (0 < request.size.toNat ∧
            session.totalChunks ≤ request.first + request.size.toNat - 1))
          (session.afterReports (session.answered request)) ∨
      ∃ count < (session.answered request).length, deliver request session =
        .error refusal (session.afterReports ((session.answered request).take count)).refusing := by
  rcases session.link.takes_or_refuses (session.answered request).length with
    takes | ⟨count, within, takes, refuses⟩
  · exact Or.inl (session.deliver_taken request takes)
  · exact Or.inr ⟨count, within, session.deliver_refused request within takes refuses⟩

/-- What becomes of a request is decided by the attempts to send.  If the link takes as
many as there are chunks to report, all of them are reported, and the result is whether
the run reaches the end of the image.  If it refuses one, the reports before it went out,
and its fault is the result. -/
theorem deliver_answers :
    (session.link.Takes (session.answered request).length →
      ∃ after, session.Answers (session.answered request) after ∧
        deliver request session =
          .ok (decide (0 < request.size.toNat ∧
            session.totalChunks ≤ request.first + request.size.toNat - 1)) after) ∧
    ∀ count < (session.answered request).length,
      session.link.Takes count → session.link.attempts + count ∈ session.link.refused →
      ∃ fault after, session.Answers ((session.answered request).take count) after ∧
        (∀ datagram,
          ({ session.link with attempts := session.link.attempts + count }.send datagram).1 =
            .error (.io fault)) ∧
        deliver request session = .error (.io fault) after := by
  constructor
  · intro takes
    exact ⟨_, session.answers_afterReports _, session.deliver_taken request takes⟩
  · intro count within takes refuses
    refine ⟨_, _, (session.answers_afterReports _).refusing, ?_,
      session.deliver_refused request within takes refuses⟩
    intro datagram
    have attempt : Link.Refuses
      { session.link with attempts := session.link.attempts + count } := refuses
    rw [Link.send_refused attempt]

end

/-- A session at 100 milliseconds with two chunks, whose link refuses its second attempt. -/
def refusedOnce : Session where
  link := ⟨100, [], 0, [1], #[]⟩
  image := ⟨List.replicate 41 0x2a⟩
  settings := {}
  chunksSent := 0

/-- Three chunks are asked for, and two are there.  The link that refuses the second report
lets the first out; behind the refusal it lets out both. -/
theorem deliver_answers_twoChunks :
    (∃ fault after, refusedOnce.Answers [1] after ∧ after.link.now = 150 ∧
      deliver ⟨1, 3⟩ refusedOnce = .error (.io fault) after) ∧
    ∃ after, refusedOnce.refusing.refusing.Answers [1, 2] after ∧ after.link.now = 200 ∧
      deliver ⟨1, 3⟩ refusedOnce.refusing.refusing = .ok true after := by
  constructor
  · rcases (deliver_answers refusedOnce ⟨1, 3⟩).2 1 (by decide) (by decide) (by decide) with
      ⟨fault, after, answers, -, delivered⟩
    exact ⟨fault, after, answers, answers.now, delivered⟩
  · rcases (deliver_answers refusedOnce.refusing.refusing ⟨1, 3⟩).1 (by decide) with
      ⟨after, answers, delivered⟩
    exact ⟨after, answers, answers.now, delivered⟩

end Session

end Update
end FirmwareGateway
