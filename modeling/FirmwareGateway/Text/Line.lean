namespace FirmwareGateway
namespace Text

/-!
# Words and numerals on a line

The words of a line are its maximal runs of characters that are not white space, which
is what has the Unicode property `White_Space`.

A word may be a numeral: an optional plus sign and one or more digits; leading zeros are
welcome.  Digits are taken from the left, and the first character that is no digit, or
the first digit that takes the number past its limit, settles the outcome.  Signed
numerals may have a minus sign in place of the plus.
-/

/-- Whether a character has the property `White_Space`. -/
def isBlank (c : Char) : Bool :=
  let n := c.toNat
  (0x09 ≤ n && n ≤ 0x0d) || n == 0x20 || n == 0x85 || n == 0xa0 || n == 0x1680
    || (0x2000 ≤ n && n ≤ 0x200a) || n == 0x2028 || n == 0x2029 || n == 0x202f
    || n == 0x205f || n == 0x3000

/-- A line without the white space at its two ends. -/
def trim (line : List Char) : List Char :=
  ((line.dropWhile isBlank).reverse.dropWhile isBlank).reverse

/-- The words of a line, `word` being the characters already read of the first
one, last first. -/
def wordsFrom : List Char → List Char → List (List Char)
  | word, [] => if word.isEmpty then [] else [word.reverse]
  | word, c :: rest =>
    if isBlank c then
      if word.isEmpty then wordsFrom [] rest else word.reverse :: wordsFrom [] rest
    else wordsFrom (c :: word) rest

/-- The maximal runs of characters that are not white space, from left to right. -/
def words (line : List Char) : List (List Char) :=
  wordsFrom [] line

/-! ## Numerals of bounded size -/

/-- Why a text is not a numeral within its limits. -/
inductive NumeralFault
  | empty
  | invalidDigit
  | tooLarge
  | tooSmall
  deriving DecidableEq, Repr

/-- What a reader is told about a text that is not a numeral. -/
def NumeralFault.message : NumeralFault → String
  | .empty => "cannot parse integer from empty string"
  | .invalidDigit => "invalid digit found in string"
  | .tooLarge => "number too large to fit in target type"
  | .tooSmall => "number too small to fit in target type"

/-- The value of a character as a digit of the given base, at most sixteen. -/
def digitValue (base : Nat) (c : Char) : Option Nat :=
  let n := c.toNat
  let value :=
    if 48 ≤ n ∧ n ≤ 57 then n - 48
    else if 97 ≤ n ∧ n ≤ 102 then n - 87
    else if 65 ≤ n ∧ n ≤ 70 then n - 55
    else base
  if value < base then some value else none

/-- Continues the number `sofar` with digits, staying below `limit`; `past` is
the fault of a number that does not. -/
def readDigits (base limit : Nat) (past : NumeralFault) : Nat → List Char → Except NumeralFault Nat
  | sofar, [] => .ok sofar
  | sofar, c :: rest =>
    match digitValue base c with
    | none => .error .invalidDigit
    | some digit =>
      let next := sofar * base + digit
      if next < limit then readDigits base limit past next rest else .error past

/-- One or more digits spelling a number below `limit`.  A sign with nothing
behind it has no digit. -/
def readMagnitude (base limit : Nat) (past : NumeralFault) : List Char → Except NumeralFault Nat
  | [] => .error .invalidDigit
  | digits => readDigits base limit past 0 digits

/-- A number below `limit`, with an optional plus sign. -/
def readNumeral (base limit : Nat) : List Char → Except NumeralFault Nat
  | [] => .error .empty
  | '+' :: digits => readMagnitude base limit .tooLarge digits
  | digits => readMagnitude base limit .tooLarge digits

/-- A number of at least `-limit` and below `limit`, with an optional sign. -/
def readInteger (limit : Nat) : List Char → Except NumeralFault Int
  | [] => .error .empty
  | '-' :: digits => (readMagnitude 10 (limit + 1) .tooSmall digits).map fun n => -(n : Int)
  | '+' :: digits => (readMagnitude 10 limit .tooLarge digits).map Int.ofNat
  | digits => (readMagnitude 10 limit .tooLarge digits).map Int.ofNat

end Text
end FirmwareGateway
