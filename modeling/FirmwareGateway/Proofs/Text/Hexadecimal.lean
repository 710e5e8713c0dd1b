import FirmwareGateway.Proofs.Text.Words
import FirmwareGateway.Text.Hex
import FirmwareGateway.Text.Line
import FirmwareGateway.Text.Utf8
import Mathlib.Data.List.Induction

namespace FirmwareGateway
namespace Text

/-!
# What hexadecimal text spells

Two hexadecimal digits of either case spell an octet.  Reading works on the octets of a text and
not on its characters.  No octet of a character outside ASCII is a digit, so that makes no
difference: what is read is exactly what is spelled.
-/

/-- Hexadecimal digits, two for each octet with the higher half in front. -/
inductive SpellsOctets : List Char → Bytes → Prop
  | none : SpellsOctets [] []
  | octet {high low : Char} {rest : List Char} {octet : UInt8} {bytes : Bytes}
      (higher : digitValue 16 high = some (octet.toNat / 16))
      (lower : digitValue 16 low = some (octet.toNat % 16)) (spells : SpellsOctets rest bytes) :
      SpellsOctets (high :: low :: rest) (octet :: bytes)

theorem digitValue_lt {base value : Nat} {c : Char} (digit : digitValue base c = some value) :
    value < base := by
  rcases ite_eq_iff.mp digit with ⟨small, same⟩ | ⟨-, none⟩
  · exact Option.some.inj same ▸ small
  · cases none

theorem toNat_of_digitValue {c : Char} {value : Nat} (digit : digitValue 16 c = some value) :
    48 ≤ c.toNat ∧ c.toNat ≤ 102 := by
  by_contra outside
  have none : ¬ (if 48 ≤ c.toNat ∧ c.toNat ≤ 57 then c.toNat - 48
      else if 97 ≤ c.toNat ∧ c.toNat ≤ 102 then c.toNat - 87
      else if 65 ≤ c.toNat ∧ c.toNat ≤ 70 then c.toNat - 55 else 16) < 16 := by
    rw [if_neg (by omega), if_neg (by omega), if_neg (by omega)]
    exact Nat.lt_irrefl 16
  cases digit.symm.trans (if_neg none)

theorem digitValue_of_large {c : Char} (large : 127 < c.toNat) : digitValue 16 c = none := by
  cases digit : digitValue 16 c with
  | none => rfl
  | some value =>
    have small := (toNat_of_digitValue digit).2
    omega

theorem spellsOctets_pair_iff {c d : Char} {high low : Nat}
    (first : digitValue 16 c = some high) (second : digitValue 16 d = some low)
    {rest : List Char} {bytes : Bytes} :
    SpellsOctets (c :: d :: rest) bytes ↔
      ∃ later, SpellsOctets rest later ∧ bytes = UInt8.ofNat (16 * high + low) :: later := by
  constructor
  · intro spells
    cases spells with
    | @octet _ _ _ octet later higher lower spells =>
      refine ⟨later, spells, ?_⟩
      have highHalf : high = octet.toNat / 16 := Option.some.inj (first.symm.trans higher)
      have lowHalf : low = octet.toNat % 16 := Option.some.inj (second.symm.trans lower)
      rw [highHalf, lowHalf, Nat.div_add_mod, UInt8.ofNat_toNat]
  · rintro ⟨later, spells, rfl⟩
    have highSmall := digitValue_lt first
    have lowSmall := digitValue_lt second
    have whole : (UInt8.ofNat (16 * high + low)).toNat = 16 * high + low := by
      rw [UInt8.toNat_ofNat', Nat.mod_eq_of_lt (by omega)]
    refine .octet ?_ ?_ spells
    · rw [first, whole]
      congr 1
      omega
    · rw [second, whole]
      congr 1
      omega

/-- What spells octets is an even number of digits, and each such text spells some. -/
theorem exists_spellsOctets_iff {text : List Char} :
    (∃ bytes, SpellsOctets text bytes) ↔
      text.length % 2 = 0 ∧ ∀ c ∈ text, (digitValue 16 c).isSome = true := by
  induction text using List.twoStepInduction with
  | nil => exact iff_of_true ⟨[], .none⟩ ⟨rfl, List.forall_mem_nil _⟩
  | singleton c =>
    refine iff_of_false ?_ fun even => absurd even.1 (by simp)
    rintro ⟨bytes, ⟨⟩⟩
  | cons_cons c d rest ih =>
    have even : (c :: d :: rest).length % 2 = rest.length % 2 := by
      simp only [List.length_cons]
      omega
    rw [even, List.forall_mem_cons, List.forall_mem_cons]
    constructor
    · rintro ⟨bytes, - | ⟨higher, lower, spells⟩⟩
      rcases ih.mp ⟨_, spells⟩ with ⟨pairs, digits⟩
      exact ⟨pairs, higher ▸ rfl, lower ▸ rfl, digits⟩
    · rintro ⟨pairs, first, second, digits⟩
      rcases Option.isSome_iff_exists.mp first with ⟨high, first⟩
      rcases Option.isSome_iff_exists.mp second with ⟨low, second⟩
      rcases ih.mpr ⟨pairs, digits⟩ with ⟨later, spells⟩
      exact ⟨_, (spellsOctets_pair_iff first second).mpr ⟨later, spells, rfl⟩⟩

theorem SpellsOctets.isWord {text : List Char} {bytes : Bytes} (spells : SpellsOctets text bytes)
    (nonempty : bytes ≠ []) : IsWord text where
  nonempty := by
    rintro rfl
    cases spells
    exact nonempty rfl
  solid := by
    intro c member
    rcases Option.isSome_iff_exists.mp ((exists_spellsOctets_iff.mp ⟨bytes, spells⟩).2 c member)
      with ⟨value, digit⟩
    have graphic := toNat_of_digitValue digit
    exact isBlank_of_graphic (by omega) (by omega)

/-! ## Digits and their octets -/

theorem hexValue_eq_digitValue {octet : UInt8} {c : Char} (same : octet.toNat = c.toNat) :
    hexValue octet = digitValue 16 c := by
  simp only [hexValue, digitValue, same]
  by_cases figure : 48 ≤ c.toNat ∧ c.toNat ≤ 57
  · rw [if_pos figure, if_pos figure, if_pos (by omega)]
  · rw [if_neg figure, if_neg figure]
    by_cases lower : 97 ≤ c.toNat ∧ c.toNat ≤ 102
    · rw [if_pos lower, if_pos lower, if_pos (by omega)]
    · rw [if_neg lower, if_neg lower]
      by_cases upper : 65 ≤ c.toNat ∧ c.toNat ≤ 70
      · rw [if_pos upper, if_pos upper, if_pos (by omega)]
      · rw [if_neg upper, if_neg upper, if_neg (Nat.lt_irrefl 16)]

theorem hexValue_of_large {octet : UInt8} (large : 127 < octet.toNat) : hexValue octet = none := by
  simp only [hexValue]
  rw [if_neg (by omega), if_neg (by omega), if_neg (by omega)]

/-- The octets of a character outside ASCII are large. -/
theorem exists_encoded_large {c : Char} (large : 127 < c.toNat) :
    ∃ first more, String.utf8EncodeChar c = first :: more ∧ 127 < first.toNat := by
  have outside : ¬ c.val.toNat ≤ 127 := Nat.not_le.mpr large
  simp only [String.utf8EncodeChar]
  rw [if_neg outside]
  by_cases two : c.val.toNat ≤ 0x7ff
  · rw [if_pos two]
    refine ⟨_, _, rfl, ?_⟩
    simp only [UInt8.toNat_ofNat']
    omega
  · rw [if_neg two]
    by_cases three : c.val.toNat ≤ 0xffff
    · rw [if_pos three]
      refine ⟨_, _, rfl, ?_⟩
      simp only [UInt8.toNat_ofNat']
      omega
    · rw [if_neg three]
      refine ⟨_, _, rfl, ?_⟩
      simp only [UInt8.toNat_ofNat']
      omega

/-- The first octet of a character is the digit that the character is, which then has no other
octets. -/
theorem exists_encoded (c : Char) :
    ∃ first more, String.utf8EncodeChar c = first :: more ∧
      hexValue first = digitValue 16 c ∧ (digitValue 16 c = none ∨ more = []) := by
  by_cases large : 127 < c.toNat
  · rcases exists_encoded_large large with ⟨first, more, encoded, high⟩
    have none : digitValue 16 c = none := digitValue_of_large large
    exact ⟨first, more, encoded, none ▸ hexValue_of_large high, Or.inl none⟩
  · have small : c.val.toNat ≤ 127 := Nat.not_lt.mp large
    refine ⟨UInt8.ofNat c.val.toNat, [], if_pos small, hexValue_eq_digitValue ?_, Or.inr rfl⟩
    rw [UInt8.toNat_ofNat', Nat.mod_eq_of_lt (by omega)]
    rfl

/-! ## Reading -/

theorem hexPairs_first {octet : UInt8} (none : hexValue octet = none) (position : Nat)
    (rest bytes : Bytes) : hexPairs position (octet :: rest) ≠ .ok bytes := by
  cases rest with
  | nil => exact nofun
  | cons next rest =>
    rw [hexPairs, none]
    exact nofun

theorem hexPairs_second {octet next : UInt8} {high : Nat} (some : hexValue octet = some high)
    (none : hexValue next = none) (position : Nat) (rest bytes : Bytes) :
    hexPairs position (octet :: next :: rest) ≠ .ok bytes := by
  rw [hexPairs, some, none]
  exact nofun

theorem hexPairs_both {octet next : UInt8} {high low : Nat} (first : hexValue octet = some high)
    (second : hexValue next = some low) {position : Nat} {rest bytes : Bytes} :
    hexPairs position (octet :: next :: rest) = .ok bytes ↔
      ∃ later, hexPairs (position + 2) rest = .ok later ∧
        bytes = UInt8.ofNat (16 * high + low) :: later := by
  rw [hexPairs, first, second]
  cases hexPairs (position + 2) rest with
  | error fault =>
    refine iff_of_false nofun ?_
    rintro ⟨later, ⟨⟩, -⟩
  | ok read =>
    constructor
    · rintro ⟨⟩
      exact ⟨read, rfl, rfl⟩
    · rintro ⟨later, ⟨⟩, rfl⟩
      rfl

/-- Reading pairs of octets finds what pairs of characters spell.  It stops at the first octet
of a character that is no digit, and digits have one octet. -/
theorem hexPairs_utf8_eq_ok_iff {position : Nat} {text : List Char} {bytes : Bytes} :
    hexPairs position (utf8 text) = .ok bytes ↔ SpellsOctets text bytes := by
  induction text using List.twoStepInduction generalizing position bytes with
  | nil =>
    constructor
    · rintro ⟨⟩
      exact .none
    · rintro ⟨⟩
      rfl
  | singleton c =>
    rcases exists_encoded c with ⟨first, more, encoded, digit, single⟩
    rw [utf8, List.flatMap_singleton, encoded]
    refine iff_of_false ?_ nofun
    rcases single with none | rfl
    · exact hexPairs_first (digit.trans none) position more bytes
    · exact nofun
  | cons_cons c d rest ih =>
    rcases exists_encoded c with ⟨first, more, encoded, digit, single⟩
    rcases exists_encoded d with ⟨second, others, encodedNext, digitNext, singleNext⟩
    rw [utf8, List.flatMap_cons, List.flatMap_cons, encoded, encodedNext]
    cases higher : digitValue 16 c with
    | none =>
      refine iff_of_false (hexPairs_first (digit.trans higher) position _ bytes) ?_
      rintro (- | ⟨high, low, spells⟩)
      cases higher.symm.trans high
    | some high =>
      cases single.resolve_left (by rw [higher]; exact nofun)
      cases lower : digitValue 16 d with
      | none =>
        refine iff_of_false
          (hexPairs_second (digit.trans higher) (digitNext.trans lower) position _ bytes) ?_
        rintro (- | ⟨high, low, spells⟩)
        cases lower.symm.trans low
      | some low =>
        cases singleNext.resolve_left (by rw [lower]; exact nofun)
        refine (hexPairs_both (digit.trans higher) (digitNext.trans lower)).trans ?_
        rw [spellsOctets_pair_iff higher lower]
        exact exists_congr fun later => and_congr_left fun _ => ih

theorem length_of_hexPairs {position : Nat} {octets bytes : Bytes}
    (read : hexPairs position octets = .ok bytes) : octets.length = 2 * bytes.length := by
  fun_induction hexPairs position octets generalizing bytes with
  | case1 position =>
    cases read
    rfl
  | case2 position octet => cases read
  | case3 position octet next rest none => cases read
  | case4 position octet next rest high some none => cases read
  | case5 position octet next rest high low second first ih =>
    cases more : hexPairs (position + 2) rest with
    | error fault =>
      rw [more] at read
      cases read
    | ok later =>
      rw [more] at read
      cases read
      simp only [List.length_cons, ih more]
      omega

/-- What is read as hexadecimal is what the characters spell. -/
theorem readHex_utf8_eq_ok_iff {text : List Char} {bytes : Bytes} :
    readHex (utf8 text) = .ok bytes ↔ SpellsOctets text bytes := by
  rw [readHex, ← hexPairs_utf8_eq_ok_iff]
  constructor
  · intro read
    by_cases odd : (utf8 text).length % 2 = 1
    · rw [if_pos odd] at read
      cases read
    · rw [if_neg odd] at read
      exact read
  · intro read
    have even := length_of_hexPairs read
    rw [if_neg (by omega)]
    exact read

/-! ## Writing -/

theorem digitValue_hexDigit : ∀ n < 16, digitValue 16 (hexDigit n) = some n := by
  decide

theorem spellsOctets_hexPairs (bytes : Bytes) : SpellsOctets (bytes.flatMap hexPair) bytes := by
  induction bytes with
  | nil => exact .none
  | cons octet bytes ih =>
    have small := octet.toNat_lt
    exact .octet (digitValue_hexDigit _ (by omega)) (digitValue_hexDigit _ (by omega)) ih

end Text
end FirmwareGateway
