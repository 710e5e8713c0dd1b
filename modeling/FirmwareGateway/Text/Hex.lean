import FirmwareGateway.Bytes

namespace FirmwareGateway
namespace Text

/-!
# Hexadecimal text

Octets are written as two lower case digits each and are read in either case.
Reading works on the octets of the text.  A text of odd length is refused before
any digit of it is looked at; otherwise the first octet that is no digit is named
together with its position.

A message that names a single character puts it between single quotes.  Six characters
have an escape of their own.  The control characters, the no-break space and the soft
hyphen would not show, so they appear by number; every other character of the first 256
stands for itself.
-/

/-- The lower case digit of a number below sixteen. -/
def hexDigit (n : Nat) : Char :=
  if n < 10 then Char.ofNat (48 + n) else Char.ofNat (87 + n)

/-- The value of an octet that spells a hexadecimal digit, of either case. -/
def hexValue (octet : UInt8) : Option Nat :=
  let n := octet.toNat
  if 48 ≤ n ∧ n ≤ 57 then some (n - 48)
  else if 97 ≤ n ∧ n ≤ 102 then some (n - 87)
  else if 65 ≤ n ∧ n ≤ 70 then some (n - 55)
  else none

/-- The two digits of one octet. -/
def hexPair (octet : UInt8) : List Char :=
  [hexDigit (octet.toNat / 16), hexDigit (octet.toNat % 16)]

/-- Octets as lower case digits, two for each. -/
def hexText (bytes : Bytes) : String :=
  String.ofList (bytes.flatMap hexPair)

/-- A number in lower case digits, without leading zeros. -/
def hexNumber (n : Nat) : String :=
  String.ofList (Nat.toDigits 16 n)

/-- Why a text is not the hexadecimal form of an octet string. -/
inductive HexFault
  | oddLength
  | badDigit (octet : UInt8) (position : Nat)
  deriving DecidableEq, Repr

/-- Reads pairs of digits; `position` is that of the first octet. -/
def hexPairs : Nat → Bytes → Except HexFault Bytes
  | _, [] => .ok []
  | _, [_] => .error .oddLength
  | position, high :: low :: rest =>
    match hexValue high, hexValue low with
    | none, _ => .error (.badDigit high position)
    | some _, none => .error (.badDigit low (position + 1))
    | some h, some l =>
      (hexPairs (position + 2) rest).map (UInt8.ofNat (16 * h + l) :: ·)

/-- Reads an octet string from the octets of its hexadecimal form. -/
def readHex (octets : Bytes) : Except HexFault Bytes :=
  if octets.length % 2 = 1 then .error .oddLength else hexPairs 0 octets

/-! ## What a reader is told -/

/-- Among the first 256 characters, those that leave no mark on the page. -/
def isInvisible (c : Char) : Bool :=
  c.toNat < 0x20 || (0x7f ≤ c.toNat && c.toNat ≤ 0xa0) || c.toNat == 0xad

/-- The text of a character between its quotes. -/
def escaped (c : Char) : String :=
  match c.toNat with
  | 0x00 => "\\0"
  | 0x09 => "\\t"
  | 0x0a => "\\n"
  | 0x0d => "\\r"
  | 0x27 => "\\\x27"
  | 0x5c => "\\\\"
  | n => if isInvisible c then "\\u\x7b" ++ hexNumber n ++ "\x7d" else c.toString

/-- A character in single quotes. -/
def quoted (c : Char) : String :=
  "\x27" ++ escaped c ++ "\x27"

/-- What a reader is told about a text that is not hexadecimal: an octet is shown
as the character of the same number. -/
def HexFault.message : HexFault → String
  | .oddLength => "Odd number of digits"
  | .badDigit octet position =>
    s!"Invalid character {quoted (Char.ofNat octet.toNat)} at position {position}"

end Text
end FirmwareGateway
