import FirmwareGateway.Proofs.Relay.Intake
import FirmwareGateway.Proofs.Relay.Interruption

namespace FirmwareGateway
namespace Relay
namespace Pull

/-!
# Pulls out of a stream that comes in pieces

Whoever reads pulls puts what has come behind a buffer and asks the buffer for a pull
whenever it likes.  When nothing more will come, it asks until there is no pull left.

A call takes a pull with its octets from the front of the buffer or leaves the buffer as
it is.  So the octets of all pulls and the buffer are what has come, wherever it was cut
and whenever a pull was asked for, and this determines the pulls.
-/

/-- What calls gave, the first of them first, and the buffer that they left. -/
structure Reading where
  answers : List (Except Error (Option Pull))
  buffer : Bytes

namespace Reading

/-- A reading behind an earlier call. -/
def behind (answer : Except Error (Option Pull)) (reading : Reading) : Reading :=
  { reading with answers := answer :: reading.answers }

end Reading

/-- What is done with the buffer while more may come. -/
inductive Call
  | feed (octets : Bytes)
  | decode
  deriving DecidableEq, Repr

/-- What comes in the course of some calls. -/
def fed : List Call → Bytes
  | [] => []
  | .feed octets :: later => octets ++ fed later
  | .decode :: later => fed later

/-- Makes some calls on a buffer. -/
def perform : List Call → Bytes → Reading
  | [], buffer => ⟨[], buffer⟩
  | .feed octets :: later, buffer => perform later (buffer ++ octets)
  | .decode :: later, buffer => (perform later (decode buffer).2).behind (decode buffer).1

/-- The pulls among some answers. -/
def given (answers : List (Except Error (Option Pull))) : List Pull :=
  answers.filterMap fun
    | .ok pull => pull
    | .error _ => none

/-! ## One call -/

/-- A way to take a pull from a buffer.  It takes the three octets of the pull from the
front, and nothing if it gives no pull. -/
structure Takes (call : Bytes → Except Error (Option Pull) × Bytes) : Prop where
  pull : ∀ buffer rest pull, call buffer = (.ok (some pull), rest) →
    buffer.take 3 = pull.octets ∧ buffer.drop 3 = rest
  nothing : ∀ buffer rest, call buffer = (.ok none, rest) → rest = buffer
  failure : ∀ buffer rest fault, call buffer = (.error fault, rest) → rest = buffer

/-- What the last call gives when so many octets are left. -/
def ending (left : Nat) : Except Error (Option Pull) :=
  if left = 0 then .ok none else .error (.peerClosed 3 left)

theorem decodeAtEnd_short {buffer : Bytes} (short : buffer.length < size) :
    decodeAtEnd buffer = (ending buffer.length, buffer) := by
  simp only [decodeAtEnd, decode_short short, ending]
  cases buffer with
  | nil => rfl
  | cons octet rest => rfl

theorem decodeAtEnd_octets (type low high : UInt8) (rest : Bytes) :
    decodeAtEnd (type :: low :: high :: rest) = (.ok (some (ofOctets type low high)), rest) := by
  simp only [decodeAtEnd, decode_octets]

theorem takes_of_cases {call : Bytes → Except Error (Option Pull) × Bytes}
    (short : ∀ buffer, buffer.length < size →
      (call buffer).2 = buffer ∧ ∀ pull, (call buffer).1 ≠ .ok (some pull))
    (whole : ∀ type low high rest,
      call (type :: low :: high :: rest) = (.ok (some (ofOctets type low high)), rest)) :
    Takes call := by
  have untouched : ∀ buffer rest answer, call buffer = (answer, rest) →
      (∀ pull, answer ≠ .ok (some pull)) → rest = buffer := by
    intro buffer rest answer gives none
    rcases short_or_octets buffer with few | ⟨type, low, high, behind, rfl⟩
    · exact (congrArg Prod.snd gives).symm.trans (short buffer few).1
    · cases (whole type low high behind).symm.trans gives
      exact absurd rfl (none _)
  constructor
  case pull =>
    intro buffer rest pull gives
    rcases short_or_octets buffer with few | ⟨type, low, high, behind, rfl⟩
    · exact absurd (congrArg Prod.fst gives) ((short buffer few).2 pull)
    · cases (whole type low high behind).symm.trans gives
      exact ⟨(octets_ofOctets type low high).symm, rfl⟩
  case nothing => exact fun buffer rest gives => untouched buffer rest _ gives nofun
  case failure => exact fun buffer rest fault gives => untouched buffer rest _ gives nofun

theorem takes_decode : Takes decode := by
  refine takes_of_cases (fun buffer short => ?_) decode_octets
  rw [decode_short short]
  exact ⟨rfl, nofun⟩

theorem takes_decodeAtEnd : Takes decodeAtEnd := by
  refine takes_of_cases (fun buffer short => ?_) decodeAtEnd_octets
  rw [decodeAtEnd_short short]
  refine ⟨rfl, fun _ same => ?_⟩
  by_cases none : buffer.length = 0
  · rw [ending, if_pos none] at same
    cases same
  · rw [ending, if_neg none] at same
    cases same

theorem decode_ne_error (buffer : Bytes) (fault : Error) : (decode buffer).1 ≠ .error fault := by
  rcases short_or_octets buffer with short | ⟨type, low, high, rest, rfl⟩
  · rw [decode_short short]
    exact nofun
  · rw [decode_octets]
    exact nofun

/-- The octets of what a call gives and the buffer that it leaves are the buffer before. -/
theorem Takes.conserves {call : Bytes → Except Error (Option Pull) × Bytes} (takes : Takes call)
    (buffer : Bytes) :
    (given [(call buffer).1]).flatMap octets ++ (call buffer).2 = buffer := by
  rcases gives : call buffer with ⟨_ | _ | pull, rest⟩
  · exact takes.failure buffer rest _ gives
  · exact takes.nothing buffer rest gives
  · rcases takes.pull buffer rest pull gives with ⟨front, behind⟩
    change pull.octets ++ [] ++ rest = buffer
    rw [List.append_nil, ← front, ← behind, List.take_append_drop]

theorem length_octets (pull : Pull) : pull.octets.length = 3 := by
  rw [octets, List.length_cons, Bytes.length_littleEndian]

/-- A call that gives a pull leaves less in the buffer. -/
theorem Takes.shorter {call : Bytes → Except Error (Option Pull) × Bytes} (takes : Takes call)
    {buffer rest : Bytes} {pull : Pull} (gives : call buffer = (.ok (some pull), rest)) :
    rest.length < buffer.length := by
  rcases takes.pull buffer rest pull gives with ⟨front, rfl⟩
  have whole := pull.length_octets
  rw [← front, List.length_take] at whole
  rw [List.length_drop]
  omega

/-! ## Many calls -/

/-- Asks a buffer to which nothing more will come for pulls, up to the first call that
gives none. -/
def drain (buffer : Bytes) : Reading :=
  match _gives : decodeAtEnd buffer with
  | (.ok (some pull), rest) => (drain rest).behind (.ok (some pull))
  | (answer, rest) => ⟨[answer], rest⟩
  termination_by buffer.length
  decreasing_by exact takes_decodeAtEnd.shorter _gives

theorem given_append (first second : List (Except Error (Option Pull))) :
    given (first ++ second) = given first ++ given second :=
  List.filterMap_append

/-- The octets of the pulls and the buffer are what has come. -/
theorem conserves_perform (calls : List Call) (buffer : Bytes) :
    (given (perform calls buffer).answers).flatMap octets ++ (perform calls buffer).buffer =
      buffer ++ fed calls := by
  fun_induction perform calls buffer with
  | case1 buffer => exact (List.append_nil buffer).symm
  | case2 buffer octets later ih => rw [ih, fed, List.append_assoc]
  | case3 later buffer ih =>
    change (given ([(decode buffer).1] ++ _)).flatMap octets ++ _ = buffer ++ fed later
    rw [given_append, List.flatMap_append, List.append_assoc, Reading.behind, ih,
      ← List.append_assoc, takes_decode.conserves]

theorem drain_short {buffer : Bytes} (short : buffer.length < size) :
    drain buffer = ⟨[ending buffer.length], buffer⟩ := by
  fun_cases drain buffer with
  | case1 pull rest gives =>
    have shorter := takes_decodeAtEnd.shorter gives
    rw [decodeAtEnd_short short] at gives
    cases congrArg Prod.snd gives
    exact absurd shorter (Nat.lt_irrefl _)
  | case2 answer rest none gives =>
    cases (decodeAtEnd_short short).symm.trans gives
    rfl

theorem drain_octets (type low high : UInt8) (rest : Bytes) :
    drain (type :: low :: high :: rest) =
      (drain rest).behind (.ok (some (ofOctets type low high))) := by
  fun_cases drain (type :: low :: high :: rest) with
  | case1 pull behind gives =>
    cases (decodeAtEnd_octets type low high rest).symm.trans gives
    rfl
  | case2 answer behind none gives =>
    cases (decodeAtEnd_octets type low high rest).symm.trans gives
    exact (none _ rfl).elim

/-- A buffer to which nothing more will come gives its pulls, one after the other. -/
theorem drain_eq (buffer : Bytes) :
    drain buffer =
      ⟨(stream buffer).map (fun pull => .ok (some pull)) ++ [ending (buffer.length % 3)],
        buffer.drop (3 * (buffer.length / 3))⟩ := by
  fun_induction stream buffer with
  | case1 type low high rest ih =>
    have whole : 3 * ((rest.length + 3) / 3) = 3 * (rest.length / 3) + 3 := by omega
    have left : (rest.length + 3) % 3 = rest.length % 3 := Nat.add_mod_right _ 3
    rw [drain_octets, ih]
    simp only [Reading.behind, List.map_cons, List.cons_append, List.length_cons, left, whole,
      List.drop_succ_cons]
  | case2 octets few =>
    have short : octets.length < 3 := by
      rcases short_or_octets octets with short | ⟨type, low, high, rest, rfl⟩
      · exact short
      · exact absurd rfl (few type low high rest)
    rw [drain_short short, Nat.mod_eq_of_lt short, Nat.div_eq_of_lt short]
    rfl

/-! ## The pulls of a stream -/

/-- A pull is read back from its octets. -/
theorem stream_octets_append (pull : Pull) (rest : Bytes) :
    stream (pull.octets ++ rest) = pull :: stream rest := by
  have length : Bytes.fromLittleEndian (Bytes.littleEndian 2 pull.length.toNat) =
      pull.length.toNat := by
    rw [Bytes.fromLittleEndian_littleEndian]
    exact Nat.mod_eq_of_lt pull.length.toNat_lt
  have same : UInt16.ofNat (Bytes.fromLittleEndian (Bytes.littleEndian 2 pull.length.toNat)) =
      pull.length := by
    rw [length]
    exact UInt16.ofNat_toNat
  exact congrArg (fun length => (⟨pull.type, length⟩ : Pull) :: stream rest) same

theorem stream_flatMap_octets_append (pulls : List Pull) (rest : Bytes) :
    stream (pulls.flatMap octets ++ rest) = pulls ++ stream rest := by
  induction pulls with
  | nil => rfl
  | cons pull pulls ih =>
    rw [List.flatMap_cons, List.append_assoc, stream_octets_append, ih, List.cons_append]

/-- Some pulls are the triples of octets of a stream, in order: the type of a pull and its
length, the lower octet first.  Octets that are too few for another triple do not count. -/
structure Triples (octets : Bytes) (pulls : List Pull) : Prop where
  count : pulls.length = octets.length / 3
  nth : ∀ (index : Nat) (pull : Pull) (within : 3 * index + 2 < octets.length),
    pulls[index]? = some pull ↔
      pull.type = octets[3 * index] ∧
        pull.length.toNat = octets[3 * index + 1].toNat + 256 * octets[3 * index + 2].toNat

theorem toNat_length_ofOctets (type low high : UInt8) :
    (ofOctets type low high).length.toNat = low.toNat + 256 * high.toNat := by
  have lower := low.toNat_lt
  have higher := high.toNat_lt
  rw [ofOctets, UInt16.toNat_ofNat_of_lt']
  · simp only [Bytes.fromLittleEndian, Nat.mul_zero, Nat.add_zero]
  · simp only [Bytes.fromLittleEndian]
    change _ < 65536
    omega

theorem ofOctets_eq_iff (type low high : UInt8) (pull : Pull) :
    ofOctets type low high = pull ↔
      pull.type = type ∧ pull.length.toNat = low.toNat + 256 * high.toNat := by
  rw [← toNat_length_ofOctets type low high]
  constructor
  · rintro rfl
    exact ⟨rfl, rfl⟩
  · rintro ⟨type_eq, length_eq⟩
    rcases pull with ⟨_, length⟩
    cases type_eq
    cases UInt16.toNat_inj.mp length_eq
    rfl

theorem triples_stream (octets : Bytes) : Triples octets (stream octets) := by
  refine ⟨length_stream octets, fun index pull within => ?_⟩
  fun_induction stream octets generalizing index with
  | case1 type low high rest ih =>
    cases index with
    | zero =>
      rw [List.getElem?_cons_zero, Option.some.injEq]
      exact ofOctets_eq_iff type low high pull
    | succ index =>
      have inside : 3 * index + 2 < rest.length := by
        simp only [List.length_cons] at within
        omega
      rw [List.getElem?_cons_succ]
      exact ih index inside
  | case2 octets few =>
    rcases short_or_octets octets with short | ⟨type, low, high, rest, rfl⟩
    · change octets.length < 3 at short
      omega
    · exact (few type low high rest rfl).elim

/-! ## Readers -/

theorem length_flatMap_octets (pulls : List Pull) :
    (pulls.flatMap octets).length = 3 * pulls.length := by
  induction pulls with
  | nil => rfl
  | cons pull pulls ih =>
    rw [List.flatMap_cons, List.length_append, length_octets, ih, List.length_cons]
    omega

/-- The answers of a reader that has asked for the last pull: the pulls are those of the
stream. -/
theorem given_drain (buffer : Bytes) : given (drain buffer).answers = stream buffer := by
  have pulls : given ((stream buffer).map fun pull => .ok (some pull)) = stream buffer := by
    rw [given, List.filterMap_map]
    exact List.filterMap_some
  have last : given [ending (buffer.length % 3)] = [] := by
    by_cases whole : buffer.length % 3 = 0
    · rw [ending, if_pos whole]
      rfl
    · rw [ending, if_neg whole]
      rfl
  rw [drain_eq, given_append, pulls, last, List.append_nil]

/-- However a stream is cut into pieces, and whenever a pull is asked for meanwhile, the
pulls are its triples, and what is left of it is too short for another.  The last call
gives no pull; it fails if something is left.  No call takes an octet of the buffer that is
not of a pull it gives, and before the end none fails. -/
theorem decoding_of_pieces (calls : List Call) :
    let early := perform calls []
    let late := drain early.buffer
    let length := (fed calls).length
    Triples (fed calls) (given (early.answers ++ late.answers)) ∧
      late.buffer = (fed calls).drop (3 * (length / 3)) ∧
      (∃ pulls : List Pull, late.answers = pulls.map (fun pull => .ok (some pull)) ++
        [if length % 3 = 0 then .ok none else .error (.peerClosed 3 (length % 3))]) ∧
      (∀ buffer fault, (decode buffer).1 ≠ .error fault) ∧ Takes decode ∧ Takes decodeAtEnd := by
  have conserved := conserves_perform calls []
  rw [List.nil_append] at conserved
  generalize perform calls [] = early at conserved ⊢
  have split : (fed calls).length = 3 * (given early.answers).length + early.buffer.length := by
    rw [← conserved, List.length_append, length_flatMap_octets]
  have left : (fed calls).length % 3 = early.buffer.length % 3 := by omega
  refine ⟨?_, ?_, ⟨stream early.buffer, ?_⟩, decode_ne_error, takes_decode, takes_decodeAtEnd⟩
  · rw [given_append, given_drain, ← stream_flatMap_octets_append, conserved]
    exact triples_stream (fed calls)
  · have front : 3 * ((fed calls).length / 3) =
        ((given early.answers).flatMap octets).length + 3 * (early.buffer.length / 3) := by
      rw [length_flatMap_octets]
      omega
    rw [drain_eq, front, ← conserved, List.drop_append,
      List.drop_eq_nil_of_le (Nat.le_add_right _ _), Nat.add_sub_cancel_left, List.nil_append]
  · rw [drain_eq, left]
    rfl

/-- Two octets and then three: the only pull is cut across the pieces, and the peer is gone
with two octets of the next. -/
theorem decoding_of_pieces_across :
    let early := perform [.feed [0, 0], .decode, .feed [1, 0, 64], .decode, .decode] []
    let late := drain early.buffer
    (given (early.answers ++ late.answers))[0]? = some ⟨0, 256⟩ ∧
      (given (early.answers ++ late.answers)).length = 1 ∧ late.buffer = [0, 64] ∧
      late.answers.getLast? = some (.error (.peerClosed 3 2)) := by
  rcases decoding_of_pieces [.feed [0, 0], .decode, .feed [1, 0, 64], .decode, .decode] with
    ⟨triples, left, ⟨pulls, answers⟩, -⟩
  refine ⟨(triples.nth 0 ⟨0, 256⟩ (by decide)).mpr ⟨rfl, rfl⟩, triples.count, left, ?_⟩
  rw [answers, List.getLast?_concat]
  rfl

end Pull
end Relay
end FirmwareGateway
