import FirmwareGateway.Bytes
import Mathlib.Algebra.CharP.Two
import Mathlib.Algebra.Field.ZMod
import Mathlib.Algebra.Polynomial.Degree.Lemmas
import Mathlib.Tactic.LinearCombination

namespace FirmwareGateway
namespace Bits

/-!
# Bits as polynomials

A string of bits stands for a polynomial over the field of two elements.  The last bit
is the constant coefficient, and every bit before it goes with the next higher power.
Putting strings one behind the other is shifting and adding, and where two strings
differ is their sum, so what is said about differences of messages can be said about
multiples of polynomials.
-/

open Polynomial

/-- The bits of a word, highest first. -/
def ofWord {width : Nat} (word : BitVec width) : List Bool :=
  (List.range width).reverse.map word.getLsbD

/-- The bits of an octet string: octet by octet, the highest bit of each first. -/
def ofBytes (bytes : Bytes) : List Bool :=
  bytes.flatMap fun octet => ofWord octet.toBitVec

/-- A bit as a coefficient. -/
def coefficient (bit : Bool) : ZMod 2 :=
  if bit then 1 else 0

/-- The polynomial with the given bits as coefficients, the highest power first. -/
noncomputable def toPolynomial : List Bool → (ZMod 2)[X]
  | [] => 0
  | bit :: rest => C (coefficient bit) * X ^ rest.length + toPolynomial rest

theorem coefficient_xor (first second : Bool) :
    coefficient (first ^^ second) = coefficient first + coefficient second := by
  cases first <;> cases second <;> decide

theorem coefficient_injective : Function.Injective coefficient := by decide

/-! ## Strings of bits -/

theorem toPolynomial_append (first second : List Bool) :
    toPolynomial (first ++ second) =
      X ^ second.length * toPolynomial first + toPolynomial second := by
  induction first with
  | nil => simp [toPolynomial]
  | cons bit first ih =>
    simp only [List.cons_append, toPolynomial, ih, List.length_append]
    ring

theorem toPolynomial_replicate_false (count : Nat) :
    toPolynomial (List.replicate count false) = 0 := by
  induction count with
  | zero => rfl
  | succ count ih => simp [List.replicate_succ, toPolynomial, ih, coefficient]

theorem toPolynomial_zipWith_xor {first second : List Bool}
    (same : first.length = second.length) :
    toPolynomial (List.zipWith xor first second) = toPolynomial first + toPolynomial second := by
  induction first generalizing second with
  | nil =>
    cases second with
    | nil => simp [toPolynomial]
    | cons bit second => cases same
  | cons bit first ih =>
    cases second with
    | nil => cases same
    | cons other second =>
      have rest : first.length = second.length := Nat.succ.inj same
      simp only [List.zipWith_cons_cons, toPolynomial, List.length_zipWith, ih rest, ← rest,
        Nat.min_self, coefficient_xor, C_add]
      ring

theorem coeff_toPolynomial (bits : List Bool) (power : Nat) :
    (toPolynomial bits).coeff power = coefficient (bits.reverse[power]?.getD false) := by
  induction bits with
  | nil => simp [toPolynomial, coefficient]
  | cons bit rest ih =>
    rw [toPolynomial, coeff_add, coeff_C_mul_X_pow, ih, List.reverse_cons]
    rcases Nat.lt_trichotomy power rest.length with below | same | above
    · have inside : power < rest.reverse.length := by rwa [List.length_reverse]
      rw [if_neg (Nat.ne_of_lt below), List.getElem?_append_left inside, zero_add]
    · have outside : rest.reverse[power]? = none := by simp [same]
      have here : (rest.reverse ++ [bit])[power]? = some bit := by simp [same]
      rw [if_pos same, outside, here]
      simp [coefficient]
    · have outside : rest.reverse[power]? = none := by simp; omega
      have beyond : (rest.reverse ++ [bit])[power]? = none := by simp; omega
      rw [if_neg (Nat.ne_of_gt above), outside, beyond, zero_add]

theorem degree_toPolynomial_lt (bits : List Bool) :
    (toPolynomial bits).degree < (bits.length : WithBot Nat) := by
  rw [degree_lt_iff_coeff_zero]
  intro power large
  have outside : bits.reverse[power]? = none := by simpa using large
  rw [coeff_toPolynomial, outside]
  rfl

/-- Only a string without a set bit stands for zero. -/
theorem toPolynomial_ne_zero {bits : List Bool} (set : true ∈ bits) : toPolynomial bits ≠ 0 := by
  intro zero
  rcases List.getElem?_of_mem (List.mem_reverse.mpr set) with ⟨power, here⟩
  have coeff := coeff_toPolynomial bits power
  rw [zero, coeff_zero, here] at coeff
  exact absurd coeff (by decide)

/-- At one a polynomial has the parity of its number of set bits. -/
theorem eval_one_toPolynomial (bits : List Bool) :
    (toPolynomial bits).eval 1 = (bits.count true : ZMod 2) := by
  induction bits with
  | nil => simp [toPolynomial]
  | cons bit rest ih =>
    simp only [toPolynomial, eval_add, eval_mul, eval_C, eval_pow, eval_X, one_pow, mul_one, ih]
    cases bit with
    | false => simp [coefficient]
    | true => simp [coefficient, add_comm]

/-! ## Words -/

section
variable {width : Nat}

@[simp] theorem length_ofWord (word : BitVec width) : (ofWord word).length = width := by
  simp [ofWord]

theorem coeff_ofWord (word : BitVec width) (power : Nat) :
    (toPolynomial (ofWord word)).coeff power = coefficient (word.getLsbD power) := by
  rw [coeff_toPolynomial, ofWord, ← List.map_reverse, List.reverse_reverse, List.getElem?_map]
  by_cases inside : power < width
  · simp [inside]
  · have beyond := BitVec.getLsbD_of_ge word power (Nat.not_lt.mp inside)
    simp [inside, beyond]

theorem toPolynomial_ofWord_injective :
    Function.Injective fun word : BitVec width => toPolynomial (ofWord word) := by
  intro first second same
  apply BitVec.eq_of_getLsbD_eq
  intro power _
  apply coefficient_injective
  rw [← coeff_ofWord, ← coeff_ofWord]
  exact congrArg (fun p => p.coeff power) same

theorem toPolynomial_ofWord_xor (first second : BitVec width) :
    toPolynomial (ofWord (first ^^^ second)) =
      toPolynomial (ofWord first) + toPolynomial (ofWord second) := by
  ext power
  simp only [coeff_add, coeff_ofWord, BitVec.getLsbD_xor, coefficient_xor]

end

/-! ## Octet strings -/

theorem ofBytes_cons (octet : UInt8) (bytes : Bytes) :
    ofBytes (octet :: bytes) = ofWord octet.toBitVec ++ ofBytes bytes := rfl

@[simp] theorem length_ofBytes (bytes : Bytes) : (ofBytes bytes).length = 8 * bytes.length := by
  induction bytes with
  | nil => rfl
  | cons octet bytes ih =>
    rw [ofBytes_cons, List.length_append, length_ofWord, ih, List.length_cons]
    omega

theorem getLsbD_ofNat (n power : Nat) :
    (UInt8.ofNat n).toBitVec.getLsbD power = (decide (power < 8) && n.testBit power) :=
  BitVec.getLsbD_ofNat 8 n power

/-- The octets of a word, the higher one first, have the bits of the word. -/
theorem ofBytes_bigEndian (word : UInt16) :
    ofBytes (Bytes.bigEndian 2 word.toNat) = ofWord word.toBitVec := by
  have octets : Bytes.bigEndian 2 word.toNat =
      [UInt8.ofNat (word.toNat / 2 ^ 8), UInt8.ofNat word.toNat] := rfl
  simp only [octets, ofBytes, List.flatMap_cons, List.flatMap_nil, List.append_nil, ofWord,
    getLsbD_ofNat, Nat.testBit_div_two_pow, List.range_succ, List.range_zero, List.nil_append,
    List.reverse_cons, List.reverse_nil, List.cons_append, List.map_cons, List.map_nil]
  rfl

end Bits

end FirmwareGateway
