import FirmwareGateway.Proofs.Chunks
import FirmwareGateway.Wire.Layout

namespace FirmwareGateway
namespace Wire
namespace Layout

/-!
# Places in a message

A message is read place by place: its length is looked at first, then its lead, and each field
moves the place on by its width.  `decodeAt?` is reading written with the places themselves.  It
looks at octets one by one or from one place to another, and gives nothing at all once it looks
outside of them.  That it comes to the end to which `decode` comes, for every layout and all
octets, says that no look fails.  A place and the widths of the fields still to come never exceed
the octets together, and a tail does not disturb this wherever it is, since it runs to the end
from its place and has no width.
-/

/-! ## Looking at places -/

section
variable (sum : Nat → Nat → Nat) (raw : Bytes)

/-- As many octets as told from a place on, each looked at on its own, if all are there. -/
def octetsAt? (place : Nat) : Nat → Option Bytes
  | 0 => some []
  | count + 1 =>
    (octetsAt? place count).bind fun octets =>
      raw[sum place count]?.map fun octet => octets ++ [octet]

/-- What a field holds at a place. -/
def readFieldAt? (place : Nat) : FieldKind → Option Value
  | .word word =>
    (octetsAt? sum raw place word.width).map fun octets => .int (UInt32.ofNat (word.read octets))
  | .fixed length => (Image.slice? raw place (sum place length)).map .bytes
  | .tail => (Image.slice? raw place raw.length).map .bytes

/-- What fields hold from a place on. -/
def readFieldsAt? : Nat → List Field → Option (List Value)
  | _, [] => some []
  | place, field :: fields =>
    (readFieldAt? sum raw place field.kind).bind fun value =>
      (readFieldsAt? (sum place field.kind.width) fields).map fun values => value :: values

end

/-! ## Sums of places -/

/-- Sums come out right as far as a limit. -/
def ExactTo (sum : Nat → Nat → Nat) (limit : Nat) : Prop :=
  ∀ m n, m + n ≤ limit → sum m n = m + n

theorem ExactTo.mono {sum : Nat → Nat → Nat} {limit less : Nat} (sums : ExactTo sum limit)
    (within : less ≤ limit) : ExactTo sum less :=
  fun m n bound => sums m n (Nat.le_trans bound within)

theorem exactTo_add (limit : Nat) : ExactTo (· + ·) limit :=
  fun _ _ _ => rfl

/-- Some fields from a place on are inside the octets, and as far as they go sums are exact. -/
structure Room (sum : Nat → Nat → Nat) (raw : Bytes) (place : Nat) (fields : List Field) :
    Prop where
  sums : ExactTo sum (place + widths fields)
  inside : place + widths fields ≤ raw.length

section
variable {sum : Nat → Nat → Nat} {raw : Bytes} {place : Nat}

/-- Behind a field there is room for the fields that follow it. -/
theorem Room.behind {field : Field} {fields : List Field}
    (room : Room sum raw place (field :: fields)) :
    Room sum raw (place + field.kind.width) fields := by
  rcases room with ⟨sums, inside⟩
  rw [widths_cons, ← Nat.add_assoc] at sums inside
  exact ⟨sums, inside⟩

theorem octetsAt?_eq {count : Nat} (sums : ExactTo sum (place + count))
    (inside : place + count ≤ raw.length) :
    octetsAt? sum raw place count = some ((raw.drop place).take count) := by
  induction count with
  | zero => rfl
  | succ count ih =>
    have before := ih (sums.mono (Nat.le_succ _)) (Nat.le_of_succ_le inside)
    have here : sum place count = place + count := sums _ _ (Nat.le_succ _)
    have inBounds : ∃ octet, raw[place + count]? = some octet :=
      ⟨_, List.getElem?_eq_getElem inside⟩
    rcases inBounds with ⟨octet, there⟩
    have dropped : (raw.drop place)[count]? = some octet := List.getElem?_drop.trans there
    simp only [octetsAt?, before, here, there, Option.bind_some, Option.map_some,
      List.take_add_one, dropped, Option.toList_some]

/-- Where there is room for a field, looking at its place gives what it holds. -/
theorem readFieldAt?_eq {kind : FieldKind} (sums : ExactTo sum (place + kind.width))
    (inside : place + kind.width ≤ raw.length) :
    ∃ value, readFieldAt? sum raw place kind = some value ∧
      readField kind (raw.drop place) = some value := by
  have behind : (raw.drop place).length = raw.length - place := List.length_drop
  have enough : ¬ (raw.drop place).length < kind.width := by
    rw [behind]
    exact Nat.not_lt.mpr (Nat.le_sub_of_add_le' inside)
  cases kind with
  | word word =>
    have looked : octetsAt? sum raw place word.width = some ((raw.drop place).take word.width) :=
      octetsAt?_eq sums inside
    refine ⟨.int (UInt32.ofNat (word.read ((raw.drop place).take word.width))), ?_, ?_⟩
    · simp only [readFieldAt?, looked, Option.map_some]
    · exact if_neg enough
  | fixed length =>
    have stop : sum place length = place + length := sums _ _ (Nat.le_refl _)
    have looked :
        Image.slice? raw place (place + length) = some ((raw.drop place).take length) := by
      rw [Image.slice?_eq (Nat.le_add_right place length) inside, Nat.add_sub_cancel_left]
    refine ⟨.bytes ((raw.drop place).take length), ?_, ?_⟩
    · simp only [readFieldAt?, stop, looked, Option.map_some]
    · exact if_neg enough
  | tail =>
    have looked : Image.slice? raw place raw.length = some (raw.drop place) := by
      rw [Image.slice?_eq (Nat.le_of_add_right_le inside) (Nat.le_refl _), ← behind,
        List.take_length]
    refine ⟨.bytes (raw.drop place), ?_, rfl⟩
    simp only [readFieldAt?, looked, Option.map_some]

/-- Where there is room for all fields, no look fails.  The room that is left behind a field
carries the induction. -/
theorem readFieldsAt?_eq {fields : List Field} (room : Room sum raw place fields) :
    ∃ values, readFieldsAt? sum raw place fields = some values ∧
      readFields fields (raw.drop place) = some values := by
  induction fields generalizing place with
  | nil => exact ⟨[], rfl, rfl⟩
  | cons field fields ih =>
    have behind := room.behind
    have within : place + field.kind.width ≤ place + field.kind.width + widths fields :=
      Nat.le_add_right _ _
    have sums := behind.sums.mono within
    have next : sum place field.kind.width = place + field.kind.width :=
      sums _ _ (Nat.le_refl _)
    rcases readFieldAt?_eq sums (Nat.le_trans within behind.inside) with ⟨value, looked, read⟩
    rcases ih behind with ⟨values, lookedOn, readOn⟩
    refine ⟨value :: values, ?_, ?_⟩
    · simp only [readFieldsAt?, looked, next, lookedOn, Option.bind_some, Option.map_some]
    · simp only [readFields, read, List.drop_drop, readOn]

end

/-! ## How reading ends -/

/-- How reading a message can end. -/
inductive DecodeEnds (layout : Layout) (raw : Bytes) : Except Error (List Value) → Prop
  | short (less : raw.length < layout.fixedLength) :
      DecodeEnds layout raw (.error (.truncated layout.name layout.fixedLength raw.length))
  | long (enough : layout.fixedLength ≤ raw.length) (untailed : layout.endsInTail = false)
      (other : raw.length ≠ layout.fixedLength) :
      DecodeEnds layout raw
        (.error (.protocol (.messageLength layout.name layout.fixedLength raw.length)))
  | misled (enough : layout.fixedLength ≤ raw.length)
      (measured : layout.endsInTail = false → raw.length = layout.fixedLength)
      (misled : ¬ layout.lead <+: raw) :
      DecodeEnds layout raw
        (.error (.protocol (.leadMismatch layout.name (raw.take layout.lead.length))))
  | whole (enough : layout.fixedLength ≤ raw.length)
      (measured : layout.endsInTail = false → raw.length = layout.fixedLength)
      (leads : layout.lead <+: raw) (values : List Value)
      (read : readFields layout.fields (raw.drop layout.lead.length) = some values) :
      DecodeEnds layout raw (.ok values)

section
variable {layout : Layout} {raw : Bytes} {values : List Value}

theorem decode_ends (layout : Layout) (raw : Bytes) :
    DecodeEnds layout raw (layout.decode raw) := by
  rw [decode]
  by_cases less : raw.length < layout.fixedLength
  · rw [if_pos less]
    exact .short less
  have enough := Nat.not_lt.mp less
  by_cases long : ¬ layout.endsInTail ∧ raw.length ≠ layout.fixedLength
  · rw [if_neg less, if_pos long]
    exact .long enough ((Bool.not_eq_true _).mp long.1) long.2
  have measured : layout.endsInTail = false → raw.length = layout.fixedLength := by
    intro untailed
    apply Decidable.byContradiction
    intro other
    exact long ⟨(Bool.not_eq_true _).mpr untailed, other⟩
  by_cases leads : layout.lead <+: raw
  · have room : Room (· + ·) raw layout.lead.length layout.fields := ⟨exactTo_add _, enough⟩
    rcases readFieldsAt?_eq room with ⟨values, -, read⟩
    rw [if_neg less, if_neg long, if_neg (not_not_intro leads), read]
    exact .whole enough measured leads values read
  · rw [if_neg less, if_neg long, if_pos leads]
    exact .misled enough measured leads

end

/-! ## Values and their fields -/

theorem readFields_cons_eq_some_iff {field : Field} {fields : List Field} {values : List Value}
    {octets : Bytes} :
    readFields (field :: fields) octets = some values ↔
      ∃ value others, readField field.kind octets = some value ∧
        readFields fields (octets.drop field.kind.width) = some others ∧
        value :: others = values := by
  rw [readFields]
  cases readField field.kind octets with
  | none => simp only [reduceCtorEq, false_and, exists_false]
  | some value =>
    cases readFields fields (octets.drop field.kind.width) with
    | none => simp only [reduceCtorEq, false_and, and_false, exists_false]
    | some others =>
      constructor
      · intro read
        exact ⟨value, others, rfl, rfl, Option.some.inj read⟩
      · rintro ⟨_, _, ⟨⟩, ⟨⟩, rfl⟩
        rfl

theorem length_of_readFields {fields : List Field} {values : List Value} {octets : Bytes}
    (read : readFields fields octets = some values) : values.length = fields.length := by
  induction fields generalizing octets values with
  | nil =>
    cases read
    rfl
  | cons field fields ih =>
    rcases readFields_cons_eq_some_iff.mp read with ⟨value, others, -, readOn, rfl⟩
    exact congrArg Nat.succ (ih readOn)

end Layout
end Wire
end FirmwareGateway
