import FirmwareGateway.Proofs.Wire.Places
import FirmwareGateway.Proofs.Wire.RoundTrip

namespace FirmwareGateway
namespace Wire

/-!
# Values and octets determine each other

That what was written reads back is half of it.  The other half is that what is read
can be written again, and then gives the very octets that were read.  It needs a layout
with no tail before its last field: behind such a tail the reader would read octets a
second time, and the writer refuses it whatever the values are.
-/

theorem Word.toNat_ofNat_read (word : Word) {octets : Bytes} (whole : octets.length = word.width) :
    (UInt32.ofNat (word.read octets)).toNat = word.read octets := by
  have bound := word.read_lt octets whole
  apply UInt32.toNat_ofNat_of_lt'
  apply Nat.lt_of_lt_of_le bound
  cases word <;> decide

namespace Layout

/-- Only the last of some fields may be a tail. -/
def TailLast (fields : List Field) : Prop :=
  ∀ field ∈ fields.dropLast, field.kind ≠ .tail

instance (fields : List Field) : Decidable (TailLast fields) :=
  inferInstanceAs (Decidable (∀ field ∈ fields.dropLast, field.kind ≠ .tail))

theorem TailLast.tail {field : Field} {fields : List Field} (last : TailLast (field :: fields)) :
    TailLast fields := by
  intro other member
  apply last other
  cases fields with
  | nil => cases member
  | cons next fields => exact List.mem_cons_of_mem field member

theorem TailLast.eq_nil {field : Field} {fields : List Field} (last : TailLast (field :: fields))
    (tail : field.kind = .tail) : fields = [] := by
  cases fields with
  | nil => rfl
  | cons next fields => exact absurd tail (last field List.mem_cons_self)

/-! ## One field -/

/-- What a field that is not a tail was read from is written again. -/
theorem writeField_of_readField {field : Field} {octets : Bytes} {value : Value}
    (layout : String) (isLast : Bool) (bounded : field.kind ≠ .tail)
    (read : readField field.kind octets = some value) :
    field.kind.width ≤ octets.length ∧
      writeField layout isLast field value = .ok (octets.take field.kind.width) := by
  rcases field with ⟨name, kind⟩
  cases kind with
  | tail => exact absurd rfl bounded
  | fixed length =>
    by_cases short : octets.length < length
    · rw [readField, if_pos short] at read
      cases read
    · rw [readField, if_neg short] at read
      cases read
      have whole : (octets.take length).length = length :=
        List.length_take_of_le (Nat.not_lt.mp short)
      refine ⟨Nat.not_lt.mp short, ?_⟩
      simp only [writeField, FieldKind.width, whole, if_true]
  | word word =>
    by_cases short : octets.length < word.width
    · rw [readField, if_pos short] at read
      cases read
    · rw [readField, if_neg short] at read
      cases read
      have whole : (octets.take word.width).length = word.width :=
        List.length_take_of_le (Nat.not_lt.mp short)
      refine ⟨Nat.not_lt.mp short, ?_⟩
      simp only [writeField, FieldKind.width, word.toNat_ofNat_read whole,
        word.read_lt _ whole, if_true, word.write_read _ whole]

/-! ## All fields -/

/-- Fields read from octets of which nothing is left over are written to these octets. -/
theorem writeFields_of_readFields (layout : String) {fields : List Field} {values : List Value}
    {octets : Bytes} (last : TailLast fields) (read : readFields fields octets = some values)
    (noMore : tailed fields = false → octets.length = widths fields) :
    writeFields layout fields values = ⟨octets, none⟩ := by
  induction fields generalizing octets values with
  | nil =>
    have nothing : octets = [] := List.length_eq_zero_iff.mp (noMore rfl)
    cases read
    rw [nothing]
    rfl
  | cons field fields ih =>
    rcases readFields_cons_eq_some_iff.mp read with ⟨value, others, first, rest, rfl⟩
    by_cases tail : field.kind = .tail
    · have none : fields = [] := last.eq_nil tail
      subst none
      rcases field with ⟨name, kind⟩
      subst tail
      cases first
      cases rest
      simp only [writeFields, writeField, List.isEmpty_nil, if_true, List.append_nil]
    · rcases writeField_of_readField layout fields.isEmpty tail first with ⟨enough, wrote⟩
      have behind : tailed fields = false →
          (octets.drop field.kind.width).length = widths fields := by
        intro untailed
        have all : octets.length = field.kind.width + widths fields := by
          apply noMore
          cases fields with
          | nil => simpa only [tailed, List.getLast?_singleton, beq_eq_false_iff_ne] using tail
          | cons next fields => rwa [tailed_cons_cons]
        rw [List.length_drop, all, Nat.add_sub_cancel_left]
      simp only [writeFields, wrote, ih last.tail rest behind, List.take_append_drop]

/-- Only fields with the tail in the last place are ever written whole. -/
theorem tailLast_of_writeFields {layout : String} {fields : List Field} {values : List Value}
    (counted : values.length = fields.length)
    (whole : (writeFields layout fields values).fault = none) : TailLast fields := by
  induction fields generalizing values with
  | nil => nofun
  | cons field fields ih =>
    cases values with
    | nil => cases counted
    | cons value values =>
      cases wrote : writeField layout fields.isEmpty field value with
      | error fault => simp [writeFields, wrote] at whole
      | ok bytes =>
        simp only [writeFields, wrote] at whole
        have rest := ih (Nat.succ.inj counted) whole
        intro other member
        cases fields with
        | nil => cases member
        | cons next fields =>
          rcases List.mem_cons.mp member with here | behind
          · intro tail
            cases isLast_of_writeField_tail wrote (here ▸ tail)
          · exact rest other behind

/-! ## Whole messages -/

/-- What a message was read from is written again. -/
theorem encode_of_decode {layout : Layout} {values : List Value} {raw : Bytes}
    (last : TailLast layout.fields) (decoded : layout.decode raw = .ok values) :
    layout.encode values = .ok raw := by
  have ends := decode_ends layout raw
  rw [decoded] at ends
  cases ends with
  | whole enough measured leads values read =>
    rcases leads with ⟨octets, rfl⟩
    rw [List.drop_left] at read
    have noMore : tailed layout.fields = false → octets.length = widths layout.fields := by
      intro untailed
      have total := measured untailed
      rw [List.length_append, fixedLength] at total
      exact Nat.add_left_cancel total
    have written := writeFields_of_readFields layout.name last read noMore
    have counted := length_of_readFields read
    simp only [encode, write, if_pos counted, written, Attempt.result]

theorem append_nil_eq_iff {layout : Layout} {values : List Value} {raw : Bytes} :
    layout.append [] values = ⟨raw, none⟩ ↔ layout.encode values = .ok raw := by
  simp only [append, encode, Attempt.result, List.nil_append]
  rcases layout.write values with ⟨written, fault⟩
  cases fault with
  | none => simp only [Attempt.mk.injEq, and_true, Except.ok.injEq]
  | some fault => simp only [Attempt.mk.injEq, reduceCtorEq, and_false]

/-- A tail before the last field is never written. -/
theorem append_misplaced {layout : Layout} (misplaced : ¬ TailLast layout.fields) (buffer : Bytes)
    (values : List Value) : ∃ fault, (layout.append buffer values).fault = some fault := by
  apply Option.ne_none_iff_exists'.mp
  intro whole
  apply misplaced
  by_cases counted : values.length = layout.fields.length
  · rw [append, write, if_pos counted] at whole
    exact tailLast_of_writeFields counted whole
  · rw [append, write, if_neg counted] at whole
    cases whole

/-- Where the tail comes last, if there is one, reading and writing are two views of one
relation: a message has these values exactly if they are written to it.  So two lists of
values are never written alike, and what is refused is what nothing is written to.  With a
tail before the last field nothing can be written at all. -/
theorem decode_eq_ok_iff (layout : Layout) :
    (TailLast layout.fields →
      (∀ values raw, layout.decode raw = .ok values ↔ layout.append [] values = ⟨raw, none⟩) ∧
      (∀ values others raw, layout.append [] values = ⟨raw, none⟩ →
        layout.append [] others = ⟨raw, none⟩ → values = others) ∧
      ∀ raw, (∃ fault, layout.decode raw = .error fault) ↔
        ∀ values, layout.append [] values ≠ ⟨raw, none⟩) ∧
    (¬ TailLast layout.fields →
      ∀ buffer values, ∃ fault, (layout.append buffer values).fault = some fault) := by
  refine ⟨?_, append_misplaced⟩
  intro last
  have views : ∀ values raw,
      layout.decode raw = .ok values ↔ layout.append [] values = ⟨raw, none⟩ := by
    intro values raw
    rw [append_nil_eq_iff]
    exact ⟨encode_of_decode last, decode_of_encode⟩
  refine ⟨views, ?_, ?_⟩
  · intro values others raw wrote wroteOthers
    have read := (views values raw).mpr wrote
    have readOthers := (views others raw).mpr wroteOthers
    exact Except.ok.inj (read.symm.trans readOthers)
  · intro raw
    constructor
    · rintro ⟨fault, refused⟩ values wrote
      cases refused.symm.trans ((views values raw).mpr wrote)
    · intro unwritten
      cases decoded : layout.decode raw with
      | error fault => exact ⟨fault, rfl⟩
      | ok values => exact absurd ((views values raw).mp decoded) (unwritten values)

/-- A lead, fields of both byte orders and a tail. -/
def mixed : Layout where
  name := "sample"
  lead := [0xab]
  fields := [⟨"a", .word .u8⟩, ⟨"b", .word .u16be⟩, ⟨"c", .word .u16le⟩, ⟨"d", .word .u32le⟩,
    ⟨"e", .fixed 2⟩, ⟨"rest", .tail⟩]

theorem decode_eq_ok_iff_mixed :
    TailLast mixed.fields ∧
    mixed.append [] [.int 0x01, .int 0x0203, .int 0x0405, .int 0x06070809, .bytes [0xee, 0xff],
        .bytes [0x78, 0x79]] =
      ⟨[0xab, 0x01, 0x02, 0x03, 0x05, 0x04, 0x09, 0x08, 0x07, 0x06, 0xee, 0xff, 0x78, 0x79], none⟩ ∧
    (∀ values, mixed.append [] values ≠ ⟨[0xac, 0, 0, 0, 0, 0, 0, 0, 0, 0, 0, 0], none⟩) ∧
    ¬ TailLast mixed.fields.reverse ∧
    ∀ buffer values, ∃ fault,
      ({ mixed with fields := mixed.fields.reverse }.append buffer values).fault = some fault := by
  have last : TailLast mixed.fields := by decide
  have misplaced : ¬ TailLast mixed.fields.reverse := by decide
  rcases (decode_eq_ok_iff mixed).1 last with ⟨views, -, refused⟩
  refine ⟨last, (views _ _).mp rfl, ?_, misplaced, ?_⟩
  · exact (refused _).mp ⟨_, rfl⟩
  · exact (decode_eq_ok_iff { mixed with fields := mixed.fields.reverse }).2 misplaced

end Layout

end Wire
end FirmwareGateway
