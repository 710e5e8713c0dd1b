import FirmwareGateway.Proofs.Chunks
import FirmwareGateway.Proofs.Wire.Octets
import FirmwareGateway.Update.Transfer

namespace FirmwareGateway
namespace Update

/-!
# What delivering sends

Every message of a session goes out in one datagram, or not at all when the link
refuses the attempt.  `afterReport` is a session behind one report and `afterReports`
behind several; with them a delivery has one of three ends: all reports went out and
none was the last, the last one went out, or an attempt was refused.

`Reports` forgets times and failures.  It says which chunks a session reported between
two of its states, and it composes, so what is known of every step holds of a run.
-/

/-- The datagrams sent over a link, in order. -/
def Link.datagrams (link : Link) : List Bytes :=
  link.sent.toList.map Transmission.datagram

namespace Link

/-- Whether the link takes the next attempts to send. -/
def Takes (link : Link) (count : Nat) : Prop :=
  ∀ index < count, link.attempts + index ∉ link.refused

instance (link : Link) (count : Nat) : Decidable (link.Takes count) :=
  inferInstanceAs (Decidable (∀ index < count, link.attempts + index ∉ link.refused))

/-- Of some attempts a link takes all, or there is a first one that it refuses. -/
theorem takes_or_refuses (link : Link) (count : Nat) :
    link.Takes count ∨
      ∃ first < count, link.Takes first ∧ link.attempts + first ∈ link.refused := by
  induction count with
  | zero => exact Or.inl nofun
  | succ count ih =>
    rcases ih with takes | ⟨first, small, takes, refuses⟩
    · by_cases refuses : link.attempts + count ∈ link.refused
      · exact Or.inr ⟨count, Nat.lt_succ_self count, takes, refuses⟩
      · exact Or.inl (Nat.forall_lt_succ_right.mpr ⟨takes, refuses⟩)
    · exact Or.inr ⟨first, Nat.lt_succ_of_lt small, takes, refuses⟩

theorem datagrams_sending (link : Link) (datagram : Bytes) :
    (link.sending datagram).datagrams = link.datagrams ++ [datagram] := by
  simp only [datagrams, sending, Array.toList_push, List.map_append, List.map_cons, List.map_nil]

end Link

namespace Session

/-! ## One message -/

/-- The fault of an attempt that the link refused. -/
def refusal : Error := .io (.other "send failed")

/-- The datagram with a message. -/
def datagram (session : Session) (sequence : UInt8) (payload : Bytes) : Bytes :=
  (Wire.Envelope.around payload sequence session.settings.flags).octets

theorem send_refused {session : Session} (refuses : session.link.Refuses) (payload : Bytes)
    (sequence : UInt8) :
    send (.ok payload) sequence session =
      .error refusal { session with link := session.link.refusing } := by
  simp only [send, Wire.Envelope.encode_eq, Link.send_refused refuses, refusal]

theorem send_taken {session : Session} (takes : ¬ session.link.Refuses) (payload : Bytes)
    (sequence : UInt8) :
    send (.ok payload) sequence session =
      .ok () { session with
        link := session.link.sending (session.datagram sequence payload) } := by
  simp only [send, Wire.Envelope.encode_eq, Link.send_taken takes, datagram]

/-! ## One report -/

/-- The number of a report keeps fifteen bits of the number of its chunk. -/
theorem toNat_number_reportFor (session : Session) (number : Nat) :
    (session.reportFor number).number.toNat = number % 0x8000 := by
  have small : number % 0x8000 < 0x8000 := Nat.mod_lt number (by decide)
  exact UInt16.toNat_ofNat_of_lt' (Nat.lt_trans small (by decide))

theorem sendable_reportFor (session : Session) (number : Nat) :
    (session.reportFor number).Sendable where
  number := by
    rw [toNat_number_reportFor]
    exact Nat.le_of_lt_succ (Nat.mod_lt number (by decide))
  chunk := session.image.length_chunk_le number

/-- The datagram with the report of a chunk. -/
def reportDatagram (session : Session) (number : Nat) : Bytes :=
  session.datagram (sequenceFor number) (session.reportFor number).octets

/-- What a node makes of that datagram. -/
def seen (session : Session) (number : Nat) : UInt8 × Wire.Report :=
  (sequenceFor number, session.reportFor number)

theorem received?_reportDatagram (session : Session) (number : Nat) :
    Wire.Report.received? (session.reportDatagram number) = some (session.seen number) :=
  Wire.Report.received?_around (session.sendable_reportFor number) _ _

theorem map_received?_reportDatagram (session : Session) (numbers : List Nat) :
    (numbers.map session.reportDatagram).map Wire.Report.received? =
      (numbers.map session.seen).map some := by
  rw [List.map_map, List.map_map]
  apply List.map_congr_left
  intro number member
  exact session.received?_reportDatagram number

theorem filterMap_received?_reportDatagram (session : Session) (numbers : List Nat) :
    (numbers.map session.reportDatagram).filterMap Wire.Report.received? =
      numbers.map session.seen := by
  rw [List.filterMap_map, ← List.filterMap_eq_map]
  congr 1
  funext number
  exact session.received?_reportDatagram number

/-- A session behind the report of one more chunk. -/
def afterReport (session : Session) (number : Nat) : Session :=
  { session with
    link := (session.link.sending (session.reportDatagram number)).wait
      session.settings.reportInterval
    chunksSent := session.chunksSent + 1 }

theorem sendReport_refused {session : Session} (refuses : session.link.Refuses) (number : Nat) :
    sendReport number session =
      .error refusal { session with link := session.link.refusing } := by
  unfold sendReport
  rw [Operation.get_bind, Wire.Report.encode_eq (session.sendable_reportFor number)]
  exact Operation.bind_error (send_refused refuses _ _)

theorem sendReport_taken {session : Session} (takes : ¬ session.link.Refuses) (number : Nat) :
    sendReport number session =
      .ok (decide (session.totalChunks ≤ number)) (session.afterReport number) := by
  unfold sendReport
  rw [Operation.get_bind, Wire.Report.encode_eq (session.sendable_reportFor number)]
  exact Operation.bind_ok (send_taken takes _ _)

/-! ## Several reports -/

/-- A session behind the reports of several more chunks. -/
def afterReports (session : Session) (numbers : List Nat) : Session :=
  numbers.foldl afterReport session

section
variable {session : Session} {number : Nat} {numbers : List Nat}

theorem sendReports_refused (refuses : session.link.Refuses) :
    sendReports (number :: numbers) session =
      .error refusal { session with link := session.link.refusing } := by
  exact Operation.bind_error (sendReport_refused refuses number)

theorem sendReports_last (takes : ¬ session.link.Refuses)
    (reached : session.totalChunks ≤ number) :
    sendReports (number :: numbers) session = .ok true (session.afterReport number) := by
  have sent := sendReport_taken takes number
  rw [decide_eq_true reached] at sent
  exact Operation.bind_ok sent

theorem sendReports_through (takes : ¬ session.link.Refuses)
    (before : ¬ session.totalChunks ≤ number) :
    sendReports (number :: numbers) session =
      sendReports numbers (session.afterReport number) := by
  have sent := sendReport_taken takes number
  rw [decide_eq_false before] at sent
  exact Operation.bind_ok sent

end

/-- How the delivery of the chunks with the given numbers can end. -/
inductive DeliveryEnds (session : Session) : List Nat → EStateM.Result Error Session Bool → Prop
  | through (numbers : List Nat) (before : ∀ number ∈ numbers, number < session.totalChunks) :
      DeliveryEnds session numbers (.ok false (session.afterReports numbers))
  | last (earlier : List Nat) (final : Nat) (unsent : List Nat)
      (before : ∀ number ∈ earlier, number < session.totalChunks)
      (reached : session.totalChunks ≤ final) :
      DeliveryEnds session (earlier ++ final :: unsent)
        (.ok true (session.afterReports (earlier ++ [final])))
  | refused (earlier unsent : List Nat)
      (before : ∀ number ∈ earlier, number < session.totalChunks)
      (refuses : (session.afterReports earlier).link.Refuses) :
      DeliveryEnds session (earlier ++ unsent)
        (.error refusal { session.afterReports earlier with
          link := (session.afterReports earlier).link.refusing })

theorem DeliveryEnds.behind {session : Session} {number : Nat} {numbers : List Nat}
    {result : EStateM.Result Error Session Bool} (before : number < session.totalChunks)
    (ends : DeliveryEnds (session.afterReport number) numbers result) :
    DeliveryEnds session (number :: numbers) result := by
  cases ends with
  | through numbers others =>
    exact .through (number :: numbers) (List.forall_mem_cons.mpr ⟨before, others⟩)
  | last earlier final unsent others reached =>
    have both : ∀ each ∈ number :: earlier, each < session.totalChunks :=
      List.forall_mem_cons.mpr ⟨before, others⟩
    exact .last (number :: earlier) final unsent both reached
  | refused earlier unsent others refuses =>
    have both : ∀ each ∈ number :: earlier, each < session.totalChunks :=
      List.forall_mem_cons.mpr ⟨before, others⟩
    exact .refused (number :: earlier) unsent both refuses

theorem sendReports_ends (numbers : List Nat) (session : Session) :
    DeliveryEnds session numbers (sendReports numbers session) := by
  induction numbers generalizing session with
  | nil => exact .through [] nofun
  | cons number numbers ih =>
    by_cases refuses : session.link.Refuses
    · rw [sendReports_refused refuses]
      exact .refused [] (number :: numbers) nofun refuses
    · by_cases reached : session.totalChunks ≤ number
      · rw [sendReports_last refuses reached]
        exact .last [] number numbers nofun reached
      · rw [sendReports_through refuses reached]
        exact (ih (session.afterReport number)).behind (Nat.not_le.mp reached)

/-! ## What reporting leaves alone -/

/-- What one report leaves alone, several leave alone. -/
theorem afterReports_keeps {α : Type} (view : Session → α)
    (kept : ∀ session number, view (afterReport session number) = view session)
    (session : Session) (numbers : List Nat) :
    view (session.afterReports numbers) = view session := by
  induction numbers generalizing session with
  | nil => rfl
  | cons number numbers ih => exact (ih (session.afterReport number)).trans (kept session number)

theorem inbound_afterReports (session : Session) (numbers : List Nat) :
    (session.afterReports numbers).link.inbound = session.link.inbound :=
  afterReports_keeps (fun session => session.link.inbound) (fun _ _ => rfl) session numbers

theorem refused_afterReports (session : Session) (numbers : List Nat) :
    (session.afterReports numbers).link.refused = session.link.refused :=
  afterReports_keeps (fun session => session.link.refused) (fun _ _ => rfl) session numbers

theorem attempts_afterReports (session : Session) (numbers : List Nat) :
    (session.afterReports numbers).link.attempts = session.link.attempts + numbers.length := by
  induction numbers generalizing session with
  | nil => rfl
  | cons number numbers ih =>
    have step : (session.afterReport number).link.attempts = session.link.attempts + 1 := rfl
    rw [List.length_cons, Nat.add_comm numbers.length, ← Nat.add_assoc, ← step]
    exact ih (session.afterReport number)

theorem now_afterReports (session : Session) (numbers : List Nat) :
    (session.afterReports numbers).link.now =
      session.link.now + numbers.length * session.settings.reportInterval := by
  induction numbers generalizing session with
  | nil => rw [List.length_nil, Nat.zero_mul]; rfl
  | cons number numbers ih =>
    have step : (session.afterReport number).link.now =
        session.link.now + session.settings.reportInterval := rfl
    rw [List.length_cons, Nat.succ_mul, Nat.add_comm (numbers.length * _), ← Nat.add_assoc, ← step]
    exact ih (session.afterReport number)

/-- A link that takes some attempts takes those that are left of them. -/
theorem takes_afterReports {session : Session} {numbers : List Nat} {count : Nat}
    (takes : session.link.Takes (numbers.length + count)) :
    (session.afterReports numbers).link.Takes count := by
  intro index small
  rw [attempts_afterReports, refused_afterReports, Nat.add_assoc]
  exact takes (numbers.length + index) (Nat.add_lt_add_left small _)

theorem takes_afterReport {session : Session} {count : Nat}
    (takes : session.link.Takes (count + 1)) (number : Nat) :
    (session.afterReport number).link.Takes count := by
  have both : session.link.Takes ([number].length + count) := Nat.add_comm count 1 ▸ takes
  exact takes_afterReports both

/-! ## Which chunks were reported -/

/-- Between two states a session sent the reports of some chunks and nothing else. -/
structure Reports (session : Session) (numbers : List Nat) (after : Session) : Prop where
  image : after.image = session.image
  settings : after.settings = session.settings
  datagrams : after.link.datagrams =
    session.link.datagrams ++ numbers.map session.reportDatagram
  chunksSent : after.chunksSent = session.chunksSent + numbers.length

theorem Reports.totalChunks {session after : Session} {numbers : List Nat}
    (reports : session.Reports numbers after) : after.totalChunks = session.totalChunks :=
  congrArg Image.totalChunks reports.image

/-- The datagram of a report is decided by the image and the settings. -/
theorem reportDatagram_congr {session other : Session} (image : other.image = session.image)
    (settings : other.settings = session.settings) :
    other.reportDatagram = session.reportDatagram := by
  cases session
  cases other
  cases image
  cases settings
  rfl

theorem Reports.trans {session middle after : Session} {first second : List Nat}
    (reports : session.Reports first middle) (others : middle.Reports second after) :
    session.Reports (first ++ second) after where
  image := others.image.trans reports.image
  settings := others.settings.trans reports.settings
  datagrams := by
    rw [others.datagrams, reportDatagram_congr reports.image reports.settings,
      reports.datagrams, List.map_append, List.append_assoc]
  chunksSent := by
    rw [others.chunksSent, reports.chunksSent, List.length_append, Nat.add_assoc]

theorem reports_refusing (session : Session) :
    session.Reports [] { session with link := session.link.refusing } :=
  ⟨rfl, rfl, (List.append_nil _).symm, rfl⟩

theorem reports_afterReport (session : Session) (number : Nat) :
    session.Reports [number] (session.afterReport number) :=
  ⟨rfl, rfl, session.link.datagrams_sending _, rfl⟩

theorem reports_afterReports (session : Session) (numbers : List Nat) :
    session.Reports numbers (session.afterReports numbers) := by
  induction numbers generalizing session with
  | nil => exact ⟨rfl, rfl, (List.append_nil _).symm, rfl⟩
  | cons number numbers ih =>
    exact (session.reports_afterReport number).trans (ih (session.afterReport number))

end Session

end Update
end FirmwareGateway
