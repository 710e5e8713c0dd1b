import FirmwareGateway.Wire.Layout

namespace FirmwareGateway
namespace Wire

/-!
# Reading what was written

A message that was written whole reads back as the values that were written.  The
writer goes from value to value and the reader from place to place, so the proof
follows the fields: what a field wrote is as long as the reader expects, unless the
field is a tail, and then nothing stands behind it.
-/

theorem Word.ofNat_read_write (word : Word) (n : UInt32) (fits : n.toNat < Nat.pow 256 word.width) :
    UInt32.ofNat (word.read (word.write n.toNat)) = n := by
  rw [Word.read_write word n.toNat fits]
  exact UInt32.ofNat_toNat

namespace Layout

/-! ## One field -/

theorem writeField_fixed_eq_ok_iff {layout : String} {isLast : Bool} {name : String} {length : Nat}
    {octets bytes : Bytes} :
    writeField layout isLast ⟨name, .fixed length⟩ (.bytes octets) = .ok bytes ↔
      octets.length = length ∧ octets = bytes := by
  by_cases fits : octets.length = length
  · simp only [writeField, fits, if_true, Except.ok.injEq, true_and]
  · simp only [writeField, fits, if_false, reduceCtorEq, false_and]

theorem writeField_word_eq_ok_iff {layout : String} {isLast : Bool} {name : String} {word : Word}
    {n : UInt32} {bytes : Bytes} :
    writeField layout isLast ⟨name, .word word⟩ (.int n) = .ok bytes ↔
      n.toNat < Nat.pow 256 word.width ∧ word.write n.toNat = bytes := by
  by_cases fits : n.toNat < Nat.pow 256 word.width
  · simp only [writeField, fits, if_true, Except.ok.injEq, true_and]
  · simp only [writeField, fits, if_false, reduceCtorEq, false_and]

/-- A field that is not a tail takes exactly its width. -/
theorem length_writeField {layout : String} {isLast : Bool} {field : Field} {value : Value}
    {bytes : Bytes} (wrote : writeField layout isLast field value = .ok bytes)
    (bounded : field.kind ≠ .tail) : bytes.length = field.kind.width := by
  rcases field with ⟨name, kind⟩
  cases kind with
  | tail => exact absurd rfl bounded
  | fixed length =>
    cases value with
    | int n => simp [writeField] at wrote
    | bytes octets =>
      rcases writeField_fixed_eq_ok_iff.mp wrote with ⟨fits, rfl⟩
      exact fits
  | word word =>
    cases value with
    | bytes octets => simp [writeField] at wrote
    | int n =>
      rcases writeField_word_eq_ok_iff.mp wrote with ⟨-, rfl⟩
      exact word.length_write n.toNat

/-- Only the last field can be written as a tail. -/
theorem isLast_of_writeField_tail {layout : String} {isLast : Bool} {field : Field} {value : Value}
    {bytes : Bytes} (wrote : writeField layout isLast field value = .ok bytes)
    (tail : field.kind = .tail) : isLast = true := by
  rcases field with ⟨name, kind⟩
  subst tail
  cases isLast with
  | true => rfl
  | false => simp [writeField] at wrote

/-- A field reads back from the front of what was written; behind a tail there is
nothing. -/
theorem readField_writeField {layout : String} {isLast : Bool} {field : Field} {value : Value}
    {bytes : Bytes} (wrote : writeField layout isLast field value = .ok bytes) (behind : Bytes)
    (ends : field.kind = .tail → behind = []) :
    readField field.kind (bytes ++ behind) = some value := by
  rcases field with ⟨name, kind⟩
  cases kind with
  | tail =>
    have last : isLast = true := isLast_of_writeField_tail wrote rfl
    subst last
    rw [ends rfl, List.append_nil]
    cases value with
    | int n => simp [writeField] at wrote
    | bytes octets =>
      simp only [writeField, if_true, Except.ok.injEq] at wrote
      subst wrote
      rfl
  | fixed length =>
    have width : bytes.length = length := length_writeField wrote (by simp)
    cases value with
    | int n => simp [writeField] at wrote
    | bytes octets =>
      rcases writeField_fixed_eq_ok_iff.mp wrote with ⟨-, rfl⟩
      have enough : ¬ (octets ++ behind).length < length := by
        rw [List.length_append]
        omega
      rw [readField, if_neg enough, ← width, List.take_left]
  | word word =>
    have width : bytes.length = word.width := length_writeField wrote (by simp)
    cases value with
    | bytes octets => simp [writeField] at wrote
    | int n =>
      rcases writeField_word_eq_ok_iff.mp wrote with ⟨fits, rfl⟩
      have enough : ¬ (word.write n.toNat ++ behind).length < word.width := by
        rw [List.length_append]
        omega
      have front : (word.write n.toNat ++ behind).take word.width = word.write n.toNat := by
        rw [← width, List.take_left]
      rw [readField, if_neg enough, front, word.ofNat_read_write n fits]

/-! ## All fields -/

/-- Whether the last of some fields is a tail. -/
def tailed (fields : List Field) : Bool :=
  match fields.getLast? with
  | some field => field.kind == .tail
  | none => false

theorem endsInTail_eq (layout : Layout) : layout.endsInTail = tailed layout.fields :=
  rfl

theorem tailed_cons_cons (field next : Field) (fields : List Field) :
    tailed (field :: next :: fields) = tailed (next :: fields) := by
  simp only [tailed, List.getLast?_cons_cons]

/-- What is known of the octets that a whole list of fields was written to. -/
structure Filled (fields : List Field) (values : List Value) (octets : Bytes) : Prop where
  read : readFields fields octets = some values
  enough : widths fields ≤ octets.length
  noMore : tailed fields = false → octets.length = widths fields

theorem Filled.nil : Filled [] [] [] where
  read := rfl
  enough := Nat.le_refl 0
  noMore := fun _ => rfl

/-- A field in front of filled ones. -/
theorem Filled.cons {layout : String} {field : Field} {fields : List Field} {value : Value}
    {values : List Value} {bytes octets : Bytes}
    (wrote : writeField layout fields.isEmpty field value = .ok bytes)
    (filled : Filled fields values octets) (ends : fields = [] → octets = []) :
    Filled (field :: fields) (value :: values) (bytes ++ octets) := by
  have atEnd : field.kind = .tail → fields = [] := fun tail =>
    List.isEmpty_iff.mp (isLast_of_writeField_tail wrote tail)
  have first := readField_writeField wrote octets (fun tail => ends (atEnd tail))
  by_cases tail : field.kind = .tail
  · have none : fields = [] := atEnd tail
    subst none
    have nothing : octets = [] := ends rfl
    subst nothing
    have noValues : values = [] := by
      have read := filled.read
      simp only [readFields, Option.some.injEq] at read
      exact read.symm
    subst noValues
    refine ⟨?_, ?_, ?_⟩
    · simp only [readFields, first]
    · rw [widths_cons, tail]
      exact Nat.zero_le _
    · intro untailed
      simp [tailed, tail] at untailed
  · have width := length_writeField wrote tail
    have behind : (bytes ++ octets).drop field.kind.width = octets := by
      rw [← width, List.drop_left]
    refine ⟨?_, ?_, ?_⟩
    · simp only [readFields, first, behind, filled.read]
    · rw [widths_cons, List.length_append, width]
      exact Nat.add_le_add_left filled.enough _
    · intro untailed
      have rest : tailed fields = false := by
        cases fields with
        | nil => rfl
        | cons next fields => rwa [tailed_cons_cons] at untailed
      rw [widths_cons, List.length_append, width, filled.noMore rest]

theorem written_writeFields_nil (layout : String) (values : List Value) :
    (writeFields layout [] values).written = [] := by
  cases values <;> rfl

theorem filled_of_writeFields {layout : String} (fields : List Field) (values : List Value)
    (counted : values.length = fields.length)
    (whole : (writeFields layout fields values).fault = none) :
    Filled fields values (writeFields layout fields values).written := by
  induction fields generalizing values with
  | nil =>
    have none : values = [] := List.length_eq_zero_iff.mp counted
    subst none
    exact Filled.nil
  | cons field fields ih =>
    cases values with
    | nil => cases counted
    | cons value values =>
      cases wrote : writeField layout fields.isEmpty field value with
      | error fault => simp [writeFields, wrote] at whole
      | ok bytes =>
        simp only [writeFields, wrote] at whole ⊢
        have filled := ih values (Nat.succ.inj counted) whole
        apply Filled.cons wrote filled
        intro none
        subst none
        exact written_writeFields_nil layout values

/-! ## Whole messages -/

/-- What was written whole reads back as the values that were written. -/
theorem decode_of_encode {layout : Layout} {values : List Value} {raw : Bytes}
    (encoded : layout.encode values = .ok raw) : layout.decode raw = .ok values := by
  simp only [encode, write] at encoded
  by_cases counted : values.length = layout.fields.length
  · rw [if_pos counted] at encoded
    cases whole : (writeFields layout.name layout.fields values).fault with
    | some fault => simp [Attempt.result, whole] at encoded
    | none =>
      simp only [Attempt.result, whole, Except.ok.injEq] at encoded
      have filled := filled_of_writeFields layout.fields values counted whole
      generalize (writeFields layout.name layout.fields values).written = octets at *
      subst encoded
      have enough : ¬ (layout.lead ++ octets).length < layout.fixedLength := by
        have := filled.enough
        rw [List.length_append, fixedLength]
        omega
      have lengthRight :
          ¬ (¬ layout.endsInTail ∧ (layout.lead ++ octets).length ≠ layout.fixedLength) := by
        rintro ⟨untailed, different⟩
        apply different
        rw [endsInTail_eq, Bool.not_eq_true] at untailed
        rw [List.length_append, filled.noMore untailed, fixedLength]
      have leads : ¬ ¬ layout.lead <+: layout.lead ++ octets :=
        not_not_intro (List.prefix_append layout.lead octets)
      simp only [decode, if_neg enough, if_neg lengthRight, if_neg leads, List.drop_left,
        filled.read]
  · rw [if_neg counted] at encoded
    simp [Attempt.result] at encoded

end Layout

end Wire
end FirmwareGateway
