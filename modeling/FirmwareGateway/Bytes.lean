namespace FirmwareGateway

/-!
# Octet strings and words in either byte order

A message on the wire is a list of octets.  Numbers are written with a fixed
width, lowest octet first or highest octet first.  Reading back what was written
gives the number modulo the size of the word, and writing back what was read
gives the octets themselves, so a word of a given width and its octets determine
each other.
-/

/-- A string of octets, first octet first. -/
abbrev Bytes := List UInt8

namespace Bytes

/-- The lowest `width` octets of a number, lowest first. -/
def littleEndian : Nat → Nat → Bytes
  | 0, _ => []
  | width + 1, n => UInt8.ofNat n :: littleEndian width (n / 256)

/-- The number whose octets, lowest first, are given. -/
def fromLittleEndian : Bytes → Nat
  | [] => 0
  | byte :: rest => byte.toNat + 256 * fromLittleEndian rest

/-- The lowest `width` octets of a number, highest first. -/
def bigEndian (width n : Nat) : Bytes :=
  (littleEndian width n).reverse

/-- The number whose octets, highest first, are given. -/
def fromBigEndian (bytes : Bytes) : Nat :=
  fromLittleEndian bytes.reverse

/-- `times` copies of a string, one behind the other. -/
def repeated (bytes : Bytes) (times : Nat) : Bytes :=
  (List.replicate times bytes).flatten

@[simp] theorem length_littleEndian (width n : Nat) :
    (littleEndian width n).length = width := by
  induction width generalizing n with
  | zero => rfl
  | succ width ih => simp [littleEndian, ih]

@[simp] theorem length_bigEndian (width n : Nat) :
    (bigEndian width n).length = width := by
  simp [bigEndian]

/-- One octet more holds 256 times as many numbers. -/
theorem pow_succ (width : Nat) : Nat.pow 256 (width + 1) = 256 * Nat.pow 256 width :=
  Nat.mul_comm _ _

theorem fromLittleEndian_lt (bytes : Bytes) :
    fromLittleEndian bytes < Nat.pow 256 bytes.length := by
  induction bytes with
  | nil => exact Nat.zero_lt_one
  | cons byte rest ih =>
    have bound := byte.toNat_lt
    rw [fromLittleEndian, List.length_cons, pow_succ]
    omega

theorem fromBigEndian_lt (bytes : Bytes) :
    fromBigEndian bytes < Nat.pow 256 bytes.length := by
  have bound := fromLittleEndian_lt bytes.reverse
  rw [List.length_reverse] at bound
  exact bound

theorem fromLittleEndian_littleEndian (width n : Nat) :
    fromLittleEndian (littleEndian width n) = n % Nat.pow 256 width := by
  induction width generalizing n with
  | zero => exact (Nat.mod_one n).symm
  | succ width ih =>
    simp only [littleEndian, fromLittleEndian, ih, UInt8.toNat_ofNat']
    rw [pow_succ, Nat.mod_mul]

theorem littleEndian_fromLittleEndian (bytes : Bytes) :
    littleEndian bytes.length (fromLittleEndian bytes) = bytes := by
  induction bytes with
  | nil => rfl
  | cons byte rest ih =>
    have bound := byte.toNat_lt
    have low : UInt8.ofNat (byte.toNat + 256 * fromLittleEndian rest) = byte := by
      apply UInt8.toNat_inj.mp
      simp only [UInt8.toNat_ofNat']
      omega
    have high : (byte.toNat + 256 * fromLittleEndian rest) / 256 = fromLittleEndian rest := by
      omega
    simp only [List.length_cons, fromLittleEndian, littleEndian, low, high, ih]

theorem fromBigEndian_bigEndian (width n : Nat) :
    fromBigEndian (bigEndian width n) = n % Nat.pow 256 width := by
  rw [fromBigEndian, bigEndian, List.reverse_reverse, fromLittleEndian_littleEndian]

theorem bigEndian_fromBigEndian (bytes : Bytes) :
    bigEndian bytes.length (fromBigEndian bytes) = bytes := by
  have readBack := littleEndian_fromLittleEndian bytes.reverse
  simp only [List.length_reverse] at readBack
  simp [bigEndian, fromBigEndian, readBack]

end Bytes

end FirmwareGateway
