import FirmwareGateway.Checksum
import FirmwareGateway.Proofs.Checksum.Bits
import Mathlib.Algebra.Polynomial.Div
import Mathlib.Tactic.ComputeDegree

namespace FirmwareGateway
namespace Checksum

/-!
# The checksum as a remainder

The register stands for a polynomial of degree below sixteen.  Shifting it multiplies
that polynomial by x and takes the remainder by the generator; an octet is added at
sixteen powers above its own.  So at any time the register is the remainder of what
was fed, whether it was fed octet by octet or bit by bit.  Since a remainder has only
one register, the two ways of feeding agree.
-/

open Polynomial

/-- The generator polynomial. -/
noncomputable def generator : (ZMod 2)[X] :=
  X ^ 16 + X ^ 12 + X ^ 5 + 1

/-- The polynomial that a register stands for. -/
noncomputable def residue (register : Register) : (ZMod 2)[X] :=
  Bits.toPolynomial (Bits.ofWord register.toBitVec)

/-- The register after one more bit: it is shifted to the left, and the generator is
added if the bit that leaves it differs from the one that comes. -/
def serialStep (register : Register) (bit : Bool) : Register :=
  (register <<< 1) ^^^ (if register.toBitVec.msb ^^ bit then polynomial else 0)

/-- The register after more bits. -/
def serial (register : Register) (bits : List Bool) : Register :=
  bits.foldl serialStep register

/-- A register holds the remainder of a polynomial. -/
def Holds (register : Register) (dividend : (ZMod 2)[X]) : Prop :=
  residue register = dividend %ₘ generator

/-! ## The generator -/

theorem monic_generator : generator.Monic := by
  unfold generator
  monicity!

theorem degree_generator : generator.degree = 16 := by
  unfold generator
  compute_degree!

theorem degree_residue_lt (register : Register) : (residue register).degree < generator.degree := by
  have below := Bits.degree_toPolynomial_lt (Bits.ofWord register.toBitVec)
  rw [Bits.length_ofWord] at below
  rw [degree_generator]
  exact below

theorem residue_injective : Function.Injective residue := by
  intro first second same
  apply UInt16.toBitVec_inj.mp
  exact Bits.toPolynomial_ofWord_injective same

theorem holds_iff {register : Register} {dividend : (ZMod 2)[X]} :
    Holds register dividend ↔ generator ∣ dividend - residue register := by
  have small : residue register %ₘ generator = residue register :=
    (modByMonic_eq_self_iff monic_generator).mpr (degree_residue_lt register)
  constructor
  · intro holds
    have divides := dvd_modByMonic_sub dividend generator
    rw [← holds] at divides
    exact (dvd_sub_comm).mp divides
  · intro divides
    have same := modByMonic_eq_of_dvd_sub monic_generator divides
    rw [Holds, same, small]

/-- A remainder has one register only. -/
theorem Holds.unique {first second : Register} {dividend : (ZMod 2)[X]}
    (holds : Holds first dividend) (also : Holds second dividend) : first = second :=
  residue_injective (holds.trans also.symm)

/-! ## One bit -/

theorem residue_xor (first second : Register) :
    residue (first ^^^ second) = residue first + residue second :=
  Bits.toPolynomial_ofWord_xor first.toBitVec second.toBitVec

theorem residue_zero : residue 0 = 0 := by
  ext power
  simp [residue, Bits.coeff_ofWord, Bits.coefficient]

theorem residue_polynomial : residue polynomial = X ^ 12 + X ^ 5 + 1 := by
  have bits : Bits.ofWord polynomial.toBitVec =
      [false, false, false, true, false, false, false, false, false, false, true, false, false,
        false, false, true] := by decide
  simp [residue, bits, Bits.toPolynomial, Bits.coefficient]
  ring

/-- What leaves a register on the left is the coefficient of the sixteenth power. -/
theorem residue_shiftLeft (register : Register) :
    residue (register <<< 1) + C (Bits.coefficient register.toBitVec.msb) * X ^ 16 =
      X * residue register := by
  ext power
  rw [coeff_add, coeff_C_mul_X_pow]
  cases power with
  | zero => simp [residue, Bits.coeff_ofWord, Bits.coefficient]
  | succ power =>
    have shifted : (register <<< 1).toBitVec.getLsbD (power + 1) =
        (decide (power + 1 < 16) && register.toBitVec.getLsbD power) := by simp
    rw [coeff_X_mul, residue, residue, Bits.coeff_ofWord, Bits.coeff_ofWord, shifted]
    rcases Nat.lt_trichotomy power 15 with below | rfl | above
    · have inside : power + 1 < 16 := Nat.succ_lt_succ below
      simp [inside, Nat.ne_of_lt below]
    · simp [BitVec.msb_eq_getLsbD_last, Bits.coefficient]
    · have none := BitVec.getLsbD_of_ge register.toBitVec power above
      simp [none, Nat.ne_of_gt above, Bits.coefficient]

/-- The generator is taken off once more when the bit that leaves and the one that comes
differ. -/
theorem residue_serialStep (register : Register) (bit : Bool) :
    residue (serialStep register bit) =
      X * residue register + C (Bits.coefficient bit) * X ^ 16 +
        C (Bits.coefficient (register.toBitVec.msb ^^ bit)) * generator := by
  have two : (2 : (ZMod 2)[X]) = 0 := CharTwo.two_eq_zero
  have taken : residue (if register.toBitVec.msb ^^ bit then polynomial else 0) =
      C (Bits.coefficient (register.toBitVec.msb ^^ bit)) * (X ^ 12 + X ^ 5 + 1) := by
    cases register.toBitVec.msb ^^ bit with
    | false => simp [residue_zero, Bits.coefficient]
    | true => simp [residue_polynomial, Bits.coefficient]
  rw [serialStep, residue_xor, taken, ← residue_shiftLeft, Bits.coefficient_xor, C_add, generator]
  -- the sixteenth power comes twice with either bit, which is not at all
  linear_combination
    -(C (Bits.coefficient register.toBitVec.msb) + C (Bits.coefficient bit)) * X ^ 16 * two

theorem Holds.serialStep {register : Register} {dividend : (ZMod 2)[X]}
    (holds : Holds register dividend) (bit : Bool) :
    Holds (serialStep register bit) (X * dividend + C (Bits.coefficient bit) * X ^ 16) := by
  rcases holds_iff.mp holds with ⟨quotient, divides⟩
  rw [holds_iff, residue_serialStep]
  refine ⟨X * quotient - C (Bits.coefficient (register.toBitVec.msb ^^ bit)), ?_⟩
  linear_combination X * divides

/-! ## Strings of bits and octets -/

theorem holds_residue (register : Register) : Holds register (residue register) := by
  rw [holds_iff, sub_self]
  exact dvd_zero generator

theorem Holds.serial {register : Register} {dividend : (ZMod 2)[X]}
    (holds : Holds register dividend) (bits : List Bool) :
    Holds (serial register bits)
      (X ^ bits.length * dividend + X ^ 16 * Bits.toPolynomial bits) := by
  induction bits generalizing register dividend with
  | nil => simpa [Checksum.serial, Bits.toPolynomial] using holds
  | cons bit rest ih =>
    have fed := ih (holds.serialStep bit)
    have dividends : X ^ rest.length * (X * dividend + C (Bits.coefficient bit) * X ^ 16) +
        X ^ 16 * Bits.toPolynomial rest =
        X ^ (bit :: rest).length * dividend + X ^ 16 * Bits.toPolynomial (bit :: rest) := by
      rw [List.length_cons, Bits.toPolynomial]
      ring
    rw [dividends] at fed
    exact fed

theorem Holds.xor {register : Register} {dividend : (ZMod 2)[X]}
    (holds : Holds register dividend) (other : Register) :
    Holds (register ^^^ other) (dividend + residue other) := by
  rw [holds_iff, residue_xor, add_sub_add_right_eq_sub]
  exact holds_iff.mp holds

/-- Shifting is feeding a bit that is not set. -/
theorem shift_eq_serialStep (register : Register) : shift register = serialStep register false := by
  have top : 0x8000 ≤ register ↔ register.toBitVec.msb = true := by
    rw [BitVec.msb_eq_decide, decide_eq_true_iff]
    exact UInt16.le_iff_toNat_le
  simp only [shift, serialStep, Bool.xor_false, top]

theorem Holds.shifts {register : Register} {dividend : (ZMod 2)[X]}
    (holds : Holds register dividend) (count : Nat) :
    Holds (shifts count register) (X ^ count * dividend) := by
  induction count generalizing register dividend with
  | zero => simpa [Checksum.shifts] using holds
  | succ count ih =>
    have shifted := holds.serialStep false
    rw [← shift_eq_serialStep] at shifted
    have more := ih shifted
    have dividends : X ^ count * (X * dividend + C (Bits.coefficient false) * X ^ 16) =
        X ^ (count + 1) * dividend := by
      have none : Bits.coefficient false = 0 := rfl
      rw [none, C_0]
      ring
    rw [dividends] at more
    exact more

theorem residue_highHalf (octet : UInt8) :
    residue (highHalf octet) = X ^ 8 * Bits.toPolynomial (Bits.ofWord octet.toBitVec) := by
  ext power
  have moved : (highHalf octet).toBitVec.getLsbD power =
      (decide (8 ≤ power) && octet.toBitVec.getLsbD (power - 8)) := by
    have notBelow : (!decide (power < 8)) = decide (8 ≤ power) := by
      rw [← decide_not, decide_eq_decide]
      exact Nat.not_lt
    by_cases high : power < 16
    · simp [highHalf, high, notBelow]
    · have beyond : 8 ≤ power - 8 := by omega
      have none := BitVec.getLsbD_of_ge octet.toBitVec (power - 8) beyond
      simp [highHalf, high, none]
  rw [residue, Bits.coeff_ofWord, coeff_X_pow_mul', Bits.coeff_ofWord, moved]
  by_cases low : 8 ≤ power
  · simp [low]
  · simp [low, Bits.coefficient]

theorem Holds.step {register : Register} {dividend : (ZMod 2)[X]}
    (holds : Holds register dividend) (octet : UInt8) :
    Holds (step register octet)
      (X ^ 8 * dividend + X ^ 16 * Bits.toPolynomial (Bits.ofWord octet.toBitVec)) := by
  have fed := (holds.xor (highHalf octet)).shifts 8
  rw [residue_highHalf, mul_add, ← mul_assoc, ← pow_add] at fed
  exact fed

/-- The dividend goes with the register: what was fed before moves up by each octet behind
it. -/
theorem Holds.feed {register : Register} {dividend : (ZMod 2)[X]}
    (holds : Holds register dividend) (bytes : Bytes) :
    Holds (feed register bytes)
      (X ^ (8 * bytes.length) * dividend + X ^ 16 * Bits.toPolynomial (Bits.ofBytes bytes)) := by
  induction bytes generalizing register dividend with
  | nil => simpa [Checksum.feed, Bits.toPolynomial, Bits.ofBytes] using holds
  | cons octet rest ih =>
    have fed := ih (holds.step octet)
    have dividends : X ^ (8 * rest.length) *
          (X ^ 8 * dividend + X ^ 16 * Bits.toPolynomial (Bits.ofWord octet.toBitVec)) +
        X ^ 16 * Bits.toPolynomial (Bits.ofBytes rest) =
        X ^ (8 * (octet :: rest).length) * dividend +
          X ^ 16 * Bits.toPolynomial (Bits.ofBytes (octet :: rest)) := by
      rw [Bits.ofBytes_cons, Bits.toPolynomial_append, Bits.length_ofBytes, List.length_cons]
      ring
    rw [dividends] at fed
    exact fed

/-- Octet by octet and bit by bit the register becomes the same. -/
theorem feed_eq_serial (register : Register) (bytes : Bytes) :
    feed register bytes = serial register (Bits.ofBytes bytes) := by
  have octets := (holds_residue register).feed bytes
  have bits := (holds_residue register).serial (Bits.ofBytes bytes)
  rw [Bits.length_ofBytes] at bits
  exact octets.unique bits

/-! ## The checksum -/

theorem holds_ofBytes (bytes : Bytes) :
    Holds (ofBytes bytes)
      (X ^ 16 * Bits.toPolynomial (Bits.ofBytes bytes) +
        X ^ (8 * bytes.length) * residue preset) := by
  rw [add_comm]
  exact (holds_residue preset).feed bytes

/-- The checksum is the one register with the remainder of the message, moved up by the
sixteen places of the register, and of the preset, moved up by the length of the message.
Feeding the bits one by one, from high to low, comes to the same, and so does feeding the
message in parts. -/
theorem ofBytes_eq_iff_remainder :
    (∀ bytes register, ofBytes bytes = register ↔
      residue register =
        (X ^ 16 * Bits.toPolynomial (Bits.ofBytes bytes) +
          X ^ (8 * bytes.length) * residue preset) %ₘ generator) ∧
    (∀ bytes, ofBytes bytes = serial preset (Bits.ofBytes bytes)) ∧
    ∀ parts, ofParts parts = ofBytes parts.flatten := by
  refine ⟨?_, feed_eq_serial preset, fun parts => List.foldl_flatten.symm⟩
  intro bytes register
  have holds := holds_ofBytes bytes
  constructor
  · rintro rfl
    exact holds
  · intro remains
    exact holds.unique remains

end Checksum

end FirmwareGateway
