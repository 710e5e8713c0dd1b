import FirmwareGateway.Bytes

namespace FirmwareGateway
namespace Wire

/-!
# Fields of a message

A field is a word of fixed width and byte order, a block of octets of fixed
length, or the tail that runs to the end of the message.  It holds a number or an
octet string.
-/

/-- The words that occur in messages, by width in bits and byte order. -/
inductive Word
  | u8
  | u16be
  | u16le
  | u32le
  deriving DecidableEq, Repr

namespace Word

/-- How many octets a word takes. -/
def width : Word → Nat
  | .u8 => 1
  | .u16be => 2
  | .u16le => 2
  | .u32le => 4

/-- The octets of a number in a word. -/
def write (word : Word) (n : Nat) : Bytes :=
  match word with
  | .u16be => Bytes.bigEndian 2 n
  | .u8 | .u16le | .u32le => Bytes.littleEndian word.width n

/-- The number in the octets of a word. -/
def read (word : Word) (bytes : Bytes) : Nat :=
  match word with
  | .u16be => Bytes.fromBigEndian bytes
  | .u8 | .u16le | .u32le => Bytes.fromLittleEndian bytes

/-- The word as messages about it write it. -/
def label : Word → String
  | .u8 => "U8"
  | .u16be => "U16Be"
  | .u16le => "U16Le"
  | .u32le => "U32Le"

@[simp] theorem length_write (word : Word) (n : Nat) : (word.write n).length = word.width := by
  cases word <;> simp [write, width]

theorem read_write (word : Word) (n : Nat) (h : n < Nat.pow 256 word.width) :
    word.read (word.write n) = n := by
  cases word <;>
    simp [read, write, width, Bytes.fromLittleEndian_littleEndian,
      Bytes.fromBigEndian_bigEndian] <;>
    simp [width] at h <;> omega

theorem write_read (word : Word) (bytes : Bytes) (h : bytes.length = word.width) :
    word.write (word.read bytes) = bytes := by
  have low := Bytes.littleEndian_fromLittleEndian bytes
  have high := Bytes.bigEndian_fromBigEndian bytes
  cases word <;> simp only [width] at h <;> simp only [h] at low high <;>
    simp [read, write, width, low, high]

theorem read_lt (word : Word) (bytes : Bytes) (h : bytes.length = word.width) :
    word.read bytes < Nat.pow 256 word.width := by
  have low := Bytes.fromLittleEndian_lt bytes
  have high := Bytes.fromBigEndian_lt bytes
  cases word <;> simp only [h] at low high <;> assumption

end Word

/-- What a field is made of. -/
inductive FieldKind
  | word (word : Word)
  | fixed (length : Nat)
  | tail
  deriving DecidableEq, Repr

namespace FieldKind

/-- The octets that a field always takes; a tail may be empty. -/
def width : FieldKind → Nat
  | .word w => w.width
  | .fixed length => length
  | .tail => 0

/-- The kind as messages about it write it. -/
def label : FieldKind → String
  | .word w => w.label
  | .fixed length => s!"Fixed({length})"
  | .tail => "Tail"

end FieldKind

/-- A named field. -/
structure Field where
  name : String
  kind : FieldKind
  deriving DecidableEq, Repr

/-- What a field holds. -/
inductive Value
  | int (n : UInt32)
  | bytes (octets : Bytes)
  deriving DecidableEq, Repr

/-- The value as messages about it write it. -/
def Value.label : Value → String
  | .int n => s!"Int({n.toNat})"
  | .bytes octets =>
    "Bytes([" ++ ", ".intercalate (octets.map fun octet => toString octet.toNat) ++ "])"

end Wire
end FirmwareGateway
