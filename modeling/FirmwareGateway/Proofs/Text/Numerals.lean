import FirmwareGateway.Proofs.Text.Words
import FirmwareGateway.Text.Line
import Mathlib.Data.Nat.Basic

namespace FirmwareGateway
namespace Text

/-!
# What decimal numerals denote

A decimal numeral has a plus sign at most and then one or more digits, and it denotes what these
are worth.  Reading finds that number exactly if it is below the limit.  The limit is looked at
behind each digit, which makes no difference: the first digits are never worth more than all.
-/

/-- Digits that are worth a number below the limit. -/
structure Denotes (limit : Nat) (digits : List Char) (n : Nat) : Prop where
  nonempty : digits ≠ []
  figures : ∀ c ∈ digits, c.isDigit = true
  worth : Nat.ofDigitChars 10 digits 0 = n
  small : n < limit

/-- A decimal numeral of a number below the limit. -/
inductive IsNumeral (limit : Nat) : List Char → Nat → Prop
  | unsigned {digits : List Char} {n : Nat} (denotes : Denotes limit digits n) :
      IsNumeral limit digits n
  | signed {digits : List Char} {n : Nat} (denotes : Denotes limit digits n) :
      IsNumeral limit ('+' :: digits) n

theorem IsNumeral.small {limit n : Nat} {word : List Char} (numeral : IsNumeral limit word n) :
    n < limit := by
  cases numeral with
  | unsigned denotes => exact denotes.small
  | signed denotes => exact denotes.small

theorem Denotes.isWord {limit n : Nat} {digits : List Char} (denotes : Denotes limit digits n) :
    IsWord digits where
  nonempty := denotes.nonempty
  solid := by
    intro c member
    have zero : '0'.toNat = 0x30 := rfl
    have nine : '9'.toNat = 0x39 := rfl
    have figure := Char.isDigit_iff_toNat.mp (denotes.figures c member)
    exact isBlank_of_graphic (by omega) (by omega)

/-! ## Reading -/

theorem digitValue_ten (c : Char) :
    digitValue 10 c = if c.isDigit then some (c.toNat - '0'.toNat) else none := by
  have zero : '0'.toNat = 48 := rfl
  have nine : '9'.toNat = 57 := rfl
  simp only [digitValue, Char.isDigit_iff_toNat, zero, nine]
  by_cases figure : 48 ≤ c.toNat ∧ c.toNat ≤ 57
  · rw [if_pos figure, if_pos figure, if_pos (by omega)]
  · rw [if_neg figure, if_neg figure]
    by_cases lower : 97 ≤ c.toNat ∧ c.toNat ≤ 102
    · rw [if_pos lower, if_neg (by omega)]
    · by_cases upper : 65 ≤ c.toNat ∧ c.toNat ≤ 70
      · rw [if_neg lower, if_pos upper, if_neg (by omega)]
      · rw [if_neg lower, if_neg upper, if_neg (Nat.lt_irrefl 10)]

theorem le_ofDigitChars (digits : List Char) (sofar : Nat) :
    sofar ≤ Nat.ofDigitChars 10 digits sofar := by
  induction digits generalizing sofar with
  | nil => exact Nat.le_of_eq Nat.ofDigitChars_nil.symm
  | cons c digits ih =>
    rw [Nat.ofDigitChars_cons]
    have later := ih (10 * sofar + (c.toNat - '0'.toNat))
    omega

theorem readDigits_eq_ok_iff {limit : Nat} {past : NumeralFault} {digits : List Char}
    {sofar n : Nat} (small : sofar < limit) :
    readDigits 10 limit past sofar digits = .ok n ↔
      (∀ c ∈ digits, c.isDigit = true) ∧ Nat.ofDigitChars 10 digits sofar = n ∧ n < limit := by
  induction digits generalizing sofar with
  | nil =>
    rw [readDigits, Nat.ofDigitChars_nil]
    constructor
    · rintro ⟨⟩
      exact ⟨nofun, rfl, small⟩
    · rintro ⟨-, rfl, -⟩
      rfl
  | cons c digits ih =>
    rw [readDigits, digitValue_ten, Nat.ofDigitChars_cons, List.forall_mem_cons]
    by_cases figure : c.isDigit = true
    · rw [if_pos figure, Nat.mul_comm 10 sofar]
      by_cases below : sofar * 10 + (c.toNat - '0'.toNat) < limit
      · simp only [if_pos below, ih below, figure, true_and]
      · -- More digits never bring a number back below the limit.
        have beyond : ¬ Nat.ofDigitChars 10 digits (sofar * 10 + (c.toNat - '0'.toNat)) < limit :=
          fun within => below (Nat.lt_of_le_of_lt (le_ofDigitChars _ _) within)
        simp only [if_neg below, reduceCtorEq, false_iff]
        rintro ⟨-, rfl, within⟩
        exact beyond within
    · rw [if_neg figure]
      exact iff_of_false nofun fun whole => figure whole.1.1

theorem readMagnitude_eq_ok_iff {limit : Nat} (positive : 0 < limit) {past : NumeralFault}
    {digits : List Char} {n : Nat} :
    readMagnitude 10 limit past digits = .ok n ↔ Denotes limit digits n := by
  cases digits with
  | nil => exact iff_of_false nofun fun denotes => denotes.nonempty rfl
  | cons c digits =>
    have read : readMagnitude 10 limit past (c :: digits) =
        readDigits 10 limit past 0 (c :: digits) := rfl
    rw [read, readDigits_eq_ok_iff positive]
    constructor
    · rintro ⟨figures, worth, small⟩
      exact ⟨List.cons_ne_nil c digits, figures, worth, small⟩
    · rintro ⟨-, figures, worth, small⟩
      exact ⟨figures, worth, small⟩

/-- What is read as a numeral is one, and every numeral is read. -/
theorem readNumeral_eq_ok_iff {limit : Nat} (positive : 0 < limit) {word : List Char} {n : Nat} :
    readNumeral 10 limit word = .ok n ↔ IsNumeral limit word n := by
  have magnitude : ∀ digits, readMagnitude 10 limit .tooLarge digits = .ok n ↔
      Denotes limit digits n := fun digits => readMagnitude_eq_ok_iff positive
  fun_cases readNumeral 10 limit word with
  | case1 =>
    refine iff_of_false nofun ?_
    rintro ⟨denotes⟩
    exact denotes.nonempty rfl
  | case2 digits =>
    rw [magnitude]
    constructor
    · exact .signed
    · rintro (denotes | denotes)
      · cases denotes.figures '+' List.mem_cons_self
      · exact denotes
  | case3 digits nonempty unsigned =>
    rw [magnitude]
    constructor
    · exact .unsigned
    · rintro (denotes | @⟨digits, -, denotes⟩)
      · exact denotes
      · exact absurd rfl (unsigned digits)

/-! ## Writing -/

/-- A number in decimal behind leading zeros. -/
def decimal (zeros n : Nat) : List Char :=
  List.replicate zeros '0' ++ Nat.toDigits 10 n

theorem denotes_decimal {limit n : Nat} (zeros : Nat) (small : n < limit) :
    Denotes limit (decimal zeros n) n where
  nonempty := fun empty => Nat.toDigits_ne_nil (List.append_eq_nil_iff.mp empty).2
  figures := by
    refine List.forall_mem_append.mpr ⟨?_, ?_⟩
    · intro c member
      rw [List.eq_of_mem_replicate member]
      rfl
    · exact fun c => Nat.isDigit_of_mem_toDigits (by omega) (Nat.le_refl 10)
  worth := by
    induction zeros with
    | zero => exact Nat.ofDigitChars_toDigits (by omega) (Nat.le_refl 10)
    | succ zeros ih =>
      rw [decimal, List.replicate_succ, List.cons_append, Nat.ofDigitChars_cons]
      exact ih
  small := small

end Text
end FirmwareGateway
