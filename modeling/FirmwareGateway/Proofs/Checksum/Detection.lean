import FirmwareGateway.Proofs.Checksum.Remainder
import Mathlib.RingTheory.Coprime.Lemmas

namespace FirmwareGateway
namespace Checksum

/-!
# What the checksum detects

Messages of one length have the same checksum only if the generator divides the
polynomial of the bits in which they differ.  It divides none of odd weight, because it
has a root at one, and none of degree below its own, however far that one is moved up,
because it has no root at zero.  So an odd number of wrong bits is always detected, and
so are wrong bits that all lie among sixteen in a row.

A message with its checksum behind it has the checksum zero, and no other two octets
behind it give zero.  A receiver that compares the checksum with the octets that came
detects the same.
-/

open Polynomial

/-! ## What the generator divides -/

theorem isCoprime_generator_X : IsCoprime generator X := by
  refine ⟨1, -(X ^ 15 + X ^ 11 + X ^ 4), ?_⟩
  rw [generator]
  ring

theorem dvd_of_dvd_X_pow_mul {power : Nat} {p : (ZMod 2)[X]}
    (divides : generator ∣ X ^ power * p) : generator ∣ p :=
  isCoprime_generator_X.pow_right.dvd_of_dvd_mul_left divides

theorem eq_zero_of_dvd {p : (ZMod 2)[X]} (divides : generator ∣ p)
    (small : p.degree < generator.degree) : p = 0 := by
  by_contra nonzero
  exact monic_generator.not_dvd_of_degree_lt nonzero small divides

theorem eval_one_generator : generator.eval 1 = 0 := by
  simp only [generator, eval_add, eval_pow, eval_X, eval_one, one_pow]
  decide

theorem not_dvd_of_odd {bits : List Bool} (odd : Odd (bits.count true)) :
    ¬ generator ∣ Bits.toPolynomial bits := by
  intro divides
  have root := eval_eq_zero_of_dvd_of_eval_eq_zero divides eval_one_generator
  rw [Bits.eval_one_toPolynomial, ZMod.natCast_eq_zero_iff_even] at root
  exact Nat.not_even_iff_odd.mpr odd root

/-- Some bits of a string are set, and all of them lie among sixteen in a row. -/
def Burst (bits : List Bool) : Prop :=
  ∃ before burst after,
    bits = List.replicate before false ++ burst ++ List.replicate after false ∧
      burst.length ≤ 16 ∧ true ∈ burst

theorem not_dvd_of_burst {bits : List Bool} (bursts : Burst bits) :
    ¬ generator ∣ Bits.toPolynomial bits := by
  rcases bursts with ⟨before, burst, after, rfl, short, set⟩
  intro divides
  rw [Bits.toPolynomial_append, Bits.toPolynomial_append, Bits.toPolynomial_replicate_false,
    Bits.toPolynomial_replicate_false, mul_zero, zero_add, add_zero] at divides
  have small : (Bits.toPolynomial burst).degree < generator.degree := by
    rw [degree_generator]
    exact lt_of_lt_of_le (Bits.degree_toPolynomial_lt burst) (Nat.cast_le.mpr short)
  exact Bits.toPolynomial_ne_zero set (eq_zero_of_dvd (dvd_of_dvd_X_pow_mul divides) small)

/-! ## Messages that differ -/

/-- The bits in which two octet strings differ. -/
def differences (first second : Bytes) : List Bool :=
  List.zipWith xor (Bits.ofBytes first) (Bits.ofBytes second)

/-- Octets came as others of the same number: an odd number of bits is wrong, or those
that are wrong lie among sixteen in a row. -/
structure Damaged (sent received : Bytes) : Prop where
  length : sent.length = received.length
  wrong : Odd ((differences sent received).count true) ∨ Burst (differences sent received)

/-- Strings of one length that have the same checksum differ by a multiple of the generator:
they move the preset up alike, so only the strings themselves are left. -/
theorem dvd_differences {first second : Bytes} (length : first.length = second.length)
    (same : ofBytes first = ofBytes second) :
    generator ∣ Bits.toPolynomial (differences first second) := by
  have bits : (Bits.ofBytes first).length = (Bits.ofBytes second).length := by
    rw [Bits.length_ofBytes, Bits.length_ofBytes, length]
  have holds := holds_iff.mp (holds_ofBytes first)
  have also := holds_iff.mp (holds_ofBytes second)
  rw [same] at holds
  have divides := dvd_sub holds also
  rw [length, sub_sub_sub_cancel_right, add_sub_add_right_eq_sub, ← mul_sub] at divides
  rw [differences, Bits.toPolynomial_zipWith_xor bits, ← CharTwo.sub_eq_add]
  exact dvd_of_dvd_X_pow_mul divides

theorem Damaged.ofBytes_ne {sent received : Bytes} (damaged : Damaged sent received) :
    ofBytes sent ≠ ofBytes received := by
  intro same
  have divides := dvd_differences damaged.length same
  rcases damaged.wrong with odd | bursts
  · exact not_dvd_of_odd odd divides
  · exact not_dvd_of_burst bursts divides

/-! ## A checksum behind its message -/

/-- A word that follows is added to the register, which is then shifted to its end. -/
theorem feed_bigEndian (register word : Register) :
    feed register (Bytes.bigEndian 2 word.toNat) = shifts 16 (register ^^^ word) := by
  have octets := (holds_residue register).feed (Bytes.bigEndian 2 word.toNat)
  have moved := ((holds_residue register).xor word).shifts 16
  rw [Bits.ofBytes_bigEndian, Bytes.length_bigEndian, ← mul_add] at octets
  exact octets.unique moved

theorem shifts_eq_zero_iff {count : Nat} {register : Register} :
    shifts count register = 0 ↔ register = 0 := by
  have moved := (holds_residue register).shifts count
  constructor
  · intro zero
    rw [zero, holds_iff, residue_zero, sub_zero] at moved
    have none := eq_zero_of_dvd (dvd_of_dvd_X_pow_mul moved) (degree_residue_lt register)
    exact residue_injective (none.trans residue_zero.symm)
  · rintro rfl
    rw [residue_zero, mul_zero, ← residue_zero] at moved
    exact moved.unique (holds_residue 0)

theorem ofBytes_append_eq_zero_iff (bytes : Bytes) (word : UInt16) :
    ofBytes (bytes ++ Bytes.bigEndian 2 word.toNat) = 0 ↔ word = ofBytes bytes := by
  rw [ofBytes, feed_append, feed_bigEndian, shifts_eq_zero_iff, UInt16.xor_eq_zero_iff]
  exact eq_comm

/-- The check of a receiver: the last two octets, the higher one first, are the checksum
of those before them. -/
def Checks (octets : Bytes) : Prop :=
  Bytes.fromBigEndian (octets.drop (octets.length - 2)) =
    (ofBytes (octets.take (octets.length - 2))).toNat

theorem checks_append (bytes : Bytes) (word : UInt16) :
    Checks (bytes ++ Bytes.bigEndian 2 word.toNat) ↔ word = ofBytes bytes := by
  have cut : (bytes ++ Bytes.bigEndian 2 word.toNat).length - 2 = bytes.length := by
    rw [List.length_append, Bytes.length_bigEndian, Nat.add_sub_cancel]
  rw [Checks, cut, List.drop_left, List.take_left, Bytes.fromBigEndian_bigEndian,
    Nat.mod_eq_of_lt word.toNat_lt, UInt16.toNat_inj]

theorem exists_eq_append {octets : Bytes} (enough : 2 ≤ octets.length) :
    ∃ (bytes : Bytes) (word : UInt16), octets = bytes ++ Bytes.bigEndian 2 word.toNat := by
  have counted : (octets.drop (octets.length - 2)).length = 2 := by
    rw [List.length_drop]
    exact Nat.sub_sub_self enough
  have bound := Bytes.fromBigEndian_lt (octets.drop (octets.length - 2))
  have back := Bytes.bigEndian_fromBigEndian (octets.drop (octets.length - 2))
  rw [counted] at bound back
  refine ⟨octets.take (octets.length - 2),
    UInt16.ofNat (Bytes.fromBigEndian (octets.drop (octets.length - 2))), ?_⟩
  rw [UInt16.toNat_ofNat_of_lt' bound, back, List.take_append_drop]

/-- What passes the check is what has the checksum zero. -/
theorem checks_iff {octets : Bytes} (enough : 2 ≤ octets.length) :
    Checks octets ↔ ofBytes octets = 0 := by
  rcases exists_eq_append enough with ⟨bytes, word, rfl⟩
  rw [checks_append, ofBytes_append_eq_zero_iff]

end Checksum

end FirmwareGateway
