import FirmwareGateway.Bytes

namespace FirmwareGateway
namespace Text

/-!
# Reading octets as text

Octets that a peer sends as status text are read as UTF-8.  A part that cannot
begin or continue a character is shown as one replacement character; such a part
is as long as the octets could still have become a character.
-/

/-- The octets of a text in UTF-8. -/
def utf8 (text : List Char) : Bytes :=
  text.flatMap String.utf8EncodeChar

/-- What the front of an octet string spells: a character, or nothing, and how
many octets behind the first one belong to it. -/
structure Reading where
  character : Option Char
  behind : Nat

/-- Octets `80` to `bf` continue a character. -/
def continues (octet : UInt8) : Bool :=
  0x80 ≤ octet && octet ≤ 0xbf

/-- Whether `second` may follow `first` in a character of three or four octets.
The bounds leave out longer spellings of short characters, surrogates and what
lies past the last code point. -/
def mayFollow (first second : UInt8) : Bool :=
  if first == 0xe0 then 0xa0 ≤ second && second ≤ 0xbf
  else if first == 0xed then 0x80 ≤ second && second ≤ 0x9f
  else if first == 0xf0 then 0x90 ≤ second && second ≤ 0xbf
  else if first == 0xf4 then 0x80 ≤ second && second ≤ 0x8f
  else continues second

/-- The code point whose first octet carries `first` and whose other octets carry
six bits each. -/
def assemble (first : Nat) (others : Bytes) : Char :=
  Char.ofNat (others.foldl (fun sofar octet => sofar * 64 + octet.toNat % 64) first)

/-- Reads the front of an octet string whose first octet is given. -/
def readFront (first : UInt8) (rest : Bytes) : Reading :=
  if first < 0x80 then ⟨some (Char.ofNat first.toNat), 0⟩
  else if 0xc2 ≤ first && first ≤ 0xdf then
    match rest with
    | second :: _ =>
      if continues second then ⟨some (assemble (first.toNat % 32) [second]), 1⟩ else ⟨none, 0⟩
    | [] => ⟨none, 0⟩
  else if 0xe0 ≤ first && first ≤ 0xef then
    match rest with
    | second :: rest =>
      if mayFollow first second then
        match rest with
        | third :: _ =>
          if continues third then ⟨some (assemble (first.toNat % 16) [second, third]), 2⟩
          else ⟨none, 1⟩
        | [] => ⟨none, 1⟩
      else ⟨none, 0⟩
    | [] => ⟨none, 0⟩
  else if 0xf0 ≤ first && first ≤ 0xf4 then
    match rest with
    | second :: rest =>
      if mayFollow first second then
        match rest with
        | third :: rest =>
          if continues third then
            match rest with
            | fourth :: _ =>
              if continues fourth then
                ⟨some (assemble (first.toNat % 8) [second, third, fourth]), 3⟩
              else ⟨none, 2⟩
            | [] => ⟨none, 2⟩
          else ⟨none, 1⟩
        | [] => ⟨none, 1⟩
      else ⟨none, 0⟩
    | [] => ⟨none, 0⟩
  else ⟨none, 0⟩

/-- The characters of an octet string, with a replacement character for every
part that spells none. -/
def lossyCharacters : Bytes → List Char
  | [] => []
  | first :: rest =>
    let reading := readFront first rest
    reading.character.getD '\uFFFD' :: lossyCharacters (rest.drop reading.behind)
  termination_by bytes => bytes.length
  decreasing_by simp only [List.length_drop, List.length_cons]; omega

/-- An octet string as text, with a replacement character for every part that
spells none. -/
def lossyText (bytes : Bytes) : String :=
  String.ofList (lossyCharacters bytes)

end Text
end FirmwareGateway
