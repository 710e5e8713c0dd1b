import FirmwareGateway.Bytes

namespace FirmwareGateway

/-!
# The digest of a file

Files are announced with their MD5 digest of sixteen octets.  The message is
followed by a bit that is set, by zeros up to eight octets short of a multiple of
sixty-four, and by its length in bits as a little-endian word.  Every block of
sixty-four octets then passes through sixty-four rounds, each of which mixes one
word of the block into a state of four words.  A message may come in pieces; then
the octets behind the last whole block are kept until more come.
-/

namespace Digest

/-- The four words of the state between blocks. -/
structure State where
  a : UInt32
  b : UInt32
  c : UInt32
  d : UInt32
  deriving DecidableEq, Repr

/-- The state before the first block. -/
def start : State :=
  ⟨0x67452301, 0xefcdab89, 0x98badcfe, 0x10325476⟩

/-- The constant added in each round: the integer part of 2³² times the absolute
value of the sine of the round's number, counted from one. -/
def constants : List UInt32 :=
  [0xd76aa478, 0xe8c7b756, 0x242070db, 0xc1bdceee, 0xf57c0faf, 0x4787c62a, 0xa8304613, 0xfd469501,
   0x698098d8, 0x8b44f7af, 0xffff5bb1, 0x895cd7be, 0x6b901122, 0xfd987193, 0xa679438e, 0x49b40821,
   0xf61e2562, 0xc040b340, 0x265e5a51, 0xe9b6c7aa, 0xd62f105d, 0x02441453, 0xd8a1e681, 0xe7d3fbc8,
   0x21e1cde6, 0xc33707d6, 0xf4d50d87, 0x455a14ed, 0xa9e3e905, 0xfcefa3f8, 0x676f02d9, 0x8d2a4c8a,
   0xfffa3942, 0x8771f681, 0x6d9d6122, 0xfde5380c, 0xa4beea44, 0x4bdecfa9, 0xf6bb4b60, 0xbebfbc70,
   0x289b7ec6, 0xeaa127fa, 0xd4ef3085, 0x04881d05, 0xd9d4d039, 0xe6db99e5, 0x1fa27cf8, 0xc4ac5665,
   0xf4292244, 0x432aff97, 0xab9423a7, 0xfc93a039, 0x655b59c3, 0x8f0ccc92, 0xffeff47d, 0x85845dd1,
   0x6fa87e4f, 0xfe2ce6e0, 0xa3014314, 0x4e0811a1, 0xf7537e82, 0xbd3af235, 0x2ad7d2bb, 0xeb86d391]

/-- A word turned to the left. -/
def rotate (word : UInt32) (places : UInt32) : UInt32 :=
  (word <<< places) ||| (word >>> (32 - places))

/-- One round: which word of the block it mixes in, how far it turns the sum, and
the constant it adds. -/
structure Round where
  word : Nat
  turn : UInt32
  constant : UInt32

/-- How far each of four successive rounds turns the sum, by quarter. -/
def turns : Nat → List UInt32
  | 0 => [7, 12, 17, 22]
  | 1 => [5, 9, 14, 20]
  | 2 => [4, 11, 16, 23]
  | _ => [6, 10, 15, 21]

/-- The word of the block that a round mixes in. -/
def wordOf (round : Nat) : Nat :=
  match round / 16 with
  | 0 => round
  | 1 => (5 * round + 1) % 16
  | 2 => (3 * round + 5) % 16
  | _ => 7 * round % 16

/-- The sixty-four rounds in order, with their numbers. -/
def rounds : List (Nat × Round) :=
  constants.zipIdx.map fun (constant, i) =>
    (i, ⟨wordOf i, (turns (i / 16)).getD (i % 4) 0, constant⟩)

/-- The bitwise function of the last three words that a round uses. -/
def mix (round : Nat) (s : State) : UInt32 :=
  match round / 16 with
  | 0 => (s.b &&& s.c) ||| (~~~s.b &&& s.d)
  | 1 => (s.d &&& s.b) ||| (~~~s.d &&& s.c)
  | 2 => s.b ^^^ s.c ^^^ s.d
  | _ => s.c ^^^ (s.b ||| ~~~s.d)

/-- Takes the state through one round of a block. -/
def turnRound (block : Array UInt32) (s : State) (numbered : Nat × Round) : State :=
  let round := numbered.2
  let sum := s.a + mix numbered.1 s + round.constant + block.getD round.word 0
  ⟨s.d, s.b + rotate sum round.turn, s.b, s.c⟩

/-- The words of an octet string, lowest octet first. -/
def wordsOf : Bytes → List UInt32
  | b0 :: b1 :: b2 :: b3 :: rest =>
    UInt32.ofNat (Bytes.fromLittleEndian [b0, b1, b2, b3]) :: wordsOf rest
  | _ => []

/-- Takes the state through one block. -/
def absorb (s : State) (block : Bytes) : State :=
  let words := (wordsOf block).toArray
  let t := rounds.foldl (turnRound words) s
  ⟨s.a + t.a, s.b + t.b, s.c + t.c, s.d + t.d⟩

/-- Takes the state through as many whole blocks as are given. -/
def absorbAll : Nat → State → Bytes → State
  | 0, s, _ => s
  | blocks + 1, s, bytes => absorbAll blocks (absorb s (bytes.take 64)) (bytes.drop 64)

/-- The octets that fill the last block of a message of the given length. -/
def padding (length : Nat) : Bytes :=
  let zeros := (119 - length % 64) % 64
  0x80 :: List.replicate zeros 0 ++ Bytes.littleEndian 8 (8 * length)

/-- A message with the octets that fill its last block. -/
def padded (message : Bytes) : Bytes :=
  message ++ padding message.length

/-- The octets of a state. -/
def State.octets (s : State) : Bytes :=
  [s.a, s.b, s.c, s.d].flatMap fun word => Bytes.littleEndian 4 word.toNat

/-- The sixteen octets of the digest of a message. -/
def ofBytes (message : Bytes) : Bytes :=
  let blocks := padded message
  (absorbAll (blocks.length / 64) start blocks).octets

theorem State.length_octets (s : State) : s.octets.length = 16 := by
  simp [octets]

theorem length_ofBytes (message : Bytes) : (ofBytes message).length = 16 :=
  State.length_octets _

/-! ## Messages that come in pieces -/

/-- The digest of a message under way: the state behind its whole blocks, the octets
that are not yet a block, and how many octets have come. -/
structure Progress where
  state : State
  pending : Bytes
  length : Nat
  deriving DecidableEq, Repr

namespace Progress

/-- Nothing has come yet. -/
def empty : Progress := ⟨start, [], 0⟩

/-- Takes in the next piece of the message. -/
def update (progress : Progress) (piece : Bytes) : Progress :=
  let octets := progress.pending ++ piece
  let blocks := octets.length / 64
  ⟨absorbAll blocks progress.state octets, octets.drop (64 * blocks),
    progress.length + piece.length⟩

/-- The digest of the message that has come. -/
def finish (progress : Progress) : Bytes :=
  let last := progress.pending ++ padding progress.length
  (absorbAll (last.length / 64) progress.state last).octets

theorem length_finish (progress : Progress) : progress.finish.length = 16 :=
  State.length_octets _

end Progress

end Digest

end FirmwareGateway
