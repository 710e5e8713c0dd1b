import FirmwareGateway.Bytes

namespace FirmwareGateway

/-!
# Firmware images and their checksum

The checksum of images and reports is a cyclic redundancy check of sixteen bits.  The
register starts at `1d0f`.  Every octet, highest bit first, is added to the high half of
the register, which is then shifted out through the polynomial x¹⁶ + x¹² + x⁵ + 1.
Neither the octets nor the register are reflected, and nothing is added at the
end.  The register after an octet string depends on the string alone and not on
how it is cut, since feeding is a fold.

An image travels in chunks of forty octets, counted from one.  Only the last chunk
may be shorter.  There is no chunk of number zero and none past the last; those
are empty.
-/

namespace Checksum

/-- The remainder that the check carries from octet to octet. -/
abbrev Register := UInt16

/-- The generator polynomial without its leading term. -/
def polynomial : Register := 0x1021

/-- The register before the first octet. -/
def preset : Register := 0x1d0f

/-- Multiplies the register by x, modulo the generator polynomial. -/
def shift (register : Register) : Register :=
  (register <<< 1) ^^^ (if 0x8000 ≤ register then polynomial else 0)

/-- Multiplies the register by a power of x. -/
def shifts : Nat → Register → Register
  | 0, register => register
  | n + 1, register => shifts n (shift register)

/-- An octet in the high half of a register. -/
def highHalf (octet : UInt8) : Register :=
  octet.toUInt16 <<< 8

/-- The register after one more octet. -/
def step (register : Register) (octet : UInt8) : Register :=
  shifts 8 (register ^^^ highHalf octet)

/-- The register after more octets. -/
def feed (register : Register) (bytes : Bytes) : Register :=
  bytes.foldl step register

/-- The checksum of an octet string. -/
def ofBytes (bytes : Bytes) : UInt16 :=
  feed preset bytes

/-- The checksum of several octet strings, fed one behind the other. -/
def ofParts (parts : List Bytes) : UInt16 :=
  parts.foldl feed preset

theorem feed_append (register : Register) (first second : Bytes) :
    feed register (first ++ second) = feed (feed register first) second :=
  List.foldl_append

end Checksum

/-! ## Images and their chunks -/

/-- The octets of a firmware image. -/
structure Image where
  data : Bytes
  deriving DecidableEq, Repr

namespace Image

/-- The octets in every chunk but the last. -/
def chunkSize : Nat := 40

/-- How many chunks an image has. -/
def totalChunks (image : Image) : Nat :=
  (image.data.length + (chunkSize - 1)) / chunkSize

/-- The chunk of a given number. -/
def chunk (image : Image) : Nat → Bytes
  | 0 => []
  | n + 1 => (image.data.drop (chunkSize * n)).take chunkSize

/-- The checksum of the whole image. -/
def checksum (image : Image) : UInt16 :=
  Checksum.ofBytes image.data

end Image

end FirmwareGateway
