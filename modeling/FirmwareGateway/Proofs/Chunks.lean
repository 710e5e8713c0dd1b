import FirmwareGateway.Checksum

namespace FirmwareGateway
namespace Image

/-!
# The chunks of an image

A chunk begins inside the image exactly when its number is not past the last.  The
chunks laid end to end, counted from one, are the image again, and all but the last are full, so
the number of an octet's chunk and its offset there are quotient and remainder of its place.
The places between which a chunk is looked for are computed in words of bounded size, and lie
inside the image for every number.
-/

/-- Chunk `n + 1` begins inside the image exactly when there is such a chunk. -/
theorem chunkSize_mul_lt_iff (image : Image) (n : Nat) :
    chunkSize * n < image.data.length ↔ n < image.totalChunks := by
  simp only [totalChunks, chunkSize]
  omega

theorem length_le_chunkSize_mul (image : Image) :
    image.data.length ≤ chunkSize * image.totalChunks := by
  apply Nat.not_lt.mp
  intro inside
  exact Nat.lt_irrefl _ ((image.chunkSize_mul_lt_iff image.totalChunks).mp inside)

/-- No octets are in the chunk of number zero and in those behind the last, and in no
other. -/
theorem chunk_eq_nil_iff {image : Image} {number : Nat} :
    image.chunk number = [] ↔ number = 0 ∨ image.totalChunks < number := by
  cases number with
  | zero => exact iff_of_true rfl (Or.inl rfl)
  | succ n =>
    have size : chunkSize ≠ 0 := by decide
    have begins := image.chunkSize_mul_lt_iff n
    rw [chunk, List.take_eq_nil_iff, List.drop_eq_nil_iff]
    omega

/-- Behind the last chunk there are only empty ones. -/
theorem chunk_of_totalChunks_lt {image : Image} {number : Nat}
    (behind : image.totalChunks < number) : image.chunk number = [] :=
  chunk_eq_nil_iff.mpr (Or.inr behind)

/-- The last chunk reaches to the end of the image. -/
theorem chunk_totalChunks (image : Image) :
    image.chunk image.totalChunks = image.data.drop (chunkSize * (image.totalChunks - 1)) := by
  have bound := image.length_le_chunkSize_mul
  cases count : image.totalChunks with
  | zero =>
    rw [count] at bound
    rw [List.eq_nil_of_length_eq_zero (Nat.le_zero.mp bound), chunk, List.drop_nil]
  | succ n =>
    rw [count, Nat.mul_succ] at bound
    rw [chunk, Nat.add_sub_cancel, List.take_of_length_le]
    rw [List.length_drop]
    omega

/-! ## The chunks laid end to end -/

theorem flatMap_chunk (image : Image) (count : Nat) :
    (List.range' 1 count).flatMap image.chunk = image.data.take (chunkSize * count) := by
  induction count with
  | zero => rfl
  | succ count ih =>
    rw [List.range'_concat, List.flatMap_append, ih, List.flatMap_singleton, Nat.one_mul,
      Nat.add_comm 1 count, chunk, Nat.mul_succ, List.take_add]

theorem flatMap_chunk_totalChunks (image : Image) :
    (List.range' 1 image.totalChunks).flatMap image.chunk = image.data := by
  rw [flatMap_chunk, List.take_of_length_le image.length_le_chunkSize_mul]

/-! ## The lengths of chunks -/

theorem length_chunk_succ (image : Image) (n : Nat) :
    (image.chunk (n + 1)).length = min chunkSize (image.data.length - chunkSize * n) := by
  rw [chunk, List.length_take, List.length_drop]

theorem length_chunk_le (image : Image) (number : Nat) :
    (image.chunk number).length ≤ chunkSize := by
  cases number with
  | zero => exact Nat.zero_le _
  | succ n =>
    rw [length_chunk_succ]
    exact Nat.min_le_left _ _

/-- A chunk that another one follows is full. -/
theorem length_chunk_of_lt_totalChunks {image : Image} {number : Nat} (positive : 0 < number)
    (before : number < image.totalChunks) : (image.chunk number).length = chunkSize := by
  rcases Nat.exists_eq_succ_of_ne_zero (Nat.pos_iff_ne_zero.mp positive) with ⟨n, rfl⟩
  have next : chunkSize * (n + 1) < image.data.length :=
    (image.chunkSize_mul_lt_iff (n + 1)).mpr before
  rw [Nat.mul_succ] at next
  rw [length_chunk_succ]
  exact Nat.min_eq_left (by omega)

/-- An image that is not empty has octets in its last chunk. -/
theorem length_chunk_totalChunks_pos {image : Image} (filled : 0 < image.data.length) :
    0 < (image.chunk image.totalChunks).length := by
  have some : 0 < image.totalChunks := (image.chunkSize_mul_lt_iff 0).mp filled
  apply List.length_pos_iff.mpr
  intro none
  rcases chunk_eq_nil_iff.mp none with zero | behind
  · exact Nat.lt_irrefl 0 (zero ▸ some)
  · exact Nat.lt_irrefl _ behind

/-- No fewer chunks hold the image. -/
theorem totalChunks_le_of_length_le {image : Image} {count : Nat}
    (holds : image.data.length ≤ chunkSize * count) : image.totalChunks ≤ count := by
  apply Nat.not_lt.mp
  intro fewer
  exact Nat.not_lt.mpr holds ((image.chunkSize_mul_lt_iff count).mpr fewer)

/-! ## The octets of chunks -/

/-- The octet at a place of the image is the one at an offset in a chunk: what stands before it
is all chunks before that one and as much of the chunk as the offset says. -/
structure Lies (image : Image) (place number offset : Nat) : Prop where
  inside : offset < (image.chunk number).length
  before : place = ((List.range' 1 (number - 1)).flatMap image.chunk).length + offset

theorem length_flatMap_chunk (image : Image) (count : Nat) :
    ((List.range' 1 count).flatMap image.chunk).length =
      min (chunkSize * count) image.data.length := by
  rw [flatMap_chunk, List.length_take]

theorem lies_succ_iff {image : Image} {place n offset : Nat} :
    image.Lies place (n + 1) offset ↔
      offset < chunkSize ∧ place < image.data.length ∧ place = chunkSize * n + offset := by
  have length := image.length_chunk_succ n
  have before := image.length_flatMap_chunk n
  constructor
  · rintro ⟨inside, rfl⟩
    rw [Nat.add_sub_cancel, before]
    omega
  · rintro ⟨small, within, rfl⟩
    refine ⟨?_, ?_⟩
    · omega
    · rw [Nat.add_sub_cancel, before]
      omega

/-- Each octet lies in one chunk only, the one whose number is the quotient, counted from one, and
its offset there is the remainder. -/
theorem lies_iff {image : Image} {place number offset : Nat}
    (within : place < image.data.length) :
    image.Lies place number offset ↔
      number = place / chunkSize + 1 ∧ offset = place % chunkSize := by
  have size : 0 < chunkSize := by decide
  cases number with
  | zero =>
    apply iff_of_false
    · rintro ⟨inside, -⟩
      exact Nat.not_lt_zero _ inside
    · rintro ⟨zero, -⟩
      cases zero
  | succ n =>
    rw [lies_succ_iff, Nat.add_right_cancel_iff]
    constructor
    · rintro ⟨small, -, rfl⟩
      rw [Nat.mul_add_div size, Nat.mul_add_mod, Nat.div_eq_of_lt small, Nat.mod_eq_of_lt small]
      exact ⟨rfl, rfl⟩
    · rintro ⟨rfl, rfl⟩
      exact ⟨Nat.mod_lt place size, within, (Nat.div_add_mod place chunkSize).symm⟩

theorem getElem?_chunk (image : Image) (place : Nat) :
    (image.chunk (place / chunkSize + 1))[place % chunkSize]? = image.data[place]? := by
  have small : place % chunkSize < chunkSize := Nat.mod_lt place (by decide)
  rw [chunk, List.getElem?_take_of_lt small, List.getElem?_drop, Nat.div_add_mod]

/-! ## Places in the image -/

/-- The octets from one place of a string up to another, if the places are in order and inside
the string. -/
def slice? (octets : Bytes) (start stop : Nat) : Option Bytes :=
  if start ≤ stop ∧ stop ≤ octets.length then some ((octets.drop start).take (stop - start))
  else none

theorem slice?_eq {octets : Bytes} {start stop : Nat} (ordered : start ≤ stop)
    (inside : stop ≤ octets.length) :
    slice? octets start stop = some ((octets.drop start).take (stop - start)) :=
  if_pos ⟨ordered, inside⟩

/-- A number in a word of 64 bits that goes no further than it can. -/
def saturated (n : Nat) : Nat :=
  min n (UInt64.size - 1)

/-- Where a chunk begins, or the end of an image that does not reach so far. -/
def startOf (image : Image) (number : Nat) : Nat :=
  min (saturated ((number - 1) * chunkSize)) image.data.length

/-- Where a chunk ends, or the end of an image that does not reach so far. -/
def stopOf (image : Image) (number : Nat) : Nat :=
  min (saturated (image.startOf number + chunkSize)) image.data.length

/-- The places of a chunk whose number has 32 bits are inside the image, and the chunk is what
lies between them. -/
theorem slice?_chunk (image : Image) {number : Nat} (positive : 0 < number)
    (small : number < UInt32.size) :
    slice? image.data (image.startOf number) (image.stopOf number) =
      some (image.chunk number) := by
  rcases Nat.exists_eq_succ_of_ne_zero (Nat.pos_iff_ne_zero.mp positive) with ⟨n, rfl⟩
  have start : image.startOf (n + 1) = min (chunkSize * n) image.data.length := by
    simp only [startOf, saturated, chunkSize, UInt64.size, UInt32.size] at small ⊢
    omega
  have stop : image.stopOf (n + 1) = min (chunkSize * n + chunkSize) image.data.length := by
    simp only [stopOf, start, saturated, chunkSize, UInt64.size, UInt32.size] at small ⊢
    omega
  have ordered : image.startOf (n + 1) ≤ image.stopOf (n + 1) := by
    rw [start, stop]
    omega
  have inside : image.stopOf (n + 1) ≤ image.data.length := Nat.min_le_right _ _
  rw [slice?_eq ordered inside, chunk, Option.some.injEq]
  by_cases begins : chunkSize * n ≤ image.data.length
  · rw [start, stop, Nat.min_eq_left begins, List.take_eq_take_iff, List.length_drop]
    omega
  · have behind : image.data.length ≤ chunkSize * n := Nat.le_of_not_le begins
    rw [start, Nat.min_eq_right behind, List.drop_length, List.drop_of_length_le behind,
      List.take_nil, List.take_nil]

/-! ## The partition -/

/-- The chunks of an image partition it.  Laid end to end they are the image, and there are no
more of them than it takes.  All but the last have forty octets, and the last has at least one
unless the image is empty.  There is nothing outside of them, and with a number of 32 bits
nothing is looked at that is outside of the image.  Each octet lies in the chunk whose number is
the quotient of its place by forty, counted from one, at the remainder as its offset, and nowhere
else. -/
theorem chunks_partition (image : Image) :
    (List.range' 1 image.totalChunks).flatMap image.chunk = image.data ∧
    (∀ number, 1 ≤ number → number < image.totalChunks → (image.chunk number).length = 40) ∧
    (0 < image.data.length → 1 ≤ (image.chunk image.totalChunks).length ∧
      (image.chunk image.totalChunks).length ≤ 40) ∧
    (∀ number, number = 0 ∨ image.totalChunks < number → image.chunk number = []) ∧
    (∀ number, 0 < number → number < UInt32.size →
      slice? image.data (image.startOf number) (image.stopOf number) =
        some (image.chunk number)) ∧
    (image.data.length ≤ 40 * image.totalChunks ∧
      ∀ count, image.data.length ≤ 40 * count → image.totalChunks ≤ count) ∧
    ∀ place, place < image.data.length →
      (∀ number offset, image.Lies place number offset ↔
        number = place / 40 + 1 ∧ offset = place % 40) ∧
      (image.chunk (place / 40 + 1))[place % 40]? = image.data[place]? := by
  refine ⟨image.flatMap_chunk_totalChunks, ?_, ?_, ?_, ?_, ?_, ?_⟩
  · intro number positive before
    exact length_chunk_of_lt_totalChunks positive before
  · intro filled
    exact ⟨length_chunk_totalChunks_pos filled, image.length_chunk_le _⟩
  · intro number outside
    exact chunk_eq_nil_iff.mpr outside
  · intro number positive small
    exact image.slice?_chunk positive small
  · refine ⟨image.length_le_chunkSize_mul, ?_⟩
    intro count holds
    exact totalChunks_le_of_length_le holds
  · intro place within
    refine ⟨?_, image.getElem?_chunk place⟩
    intro number offset
    exact lies_iff within

/-- One octet more than a chunk holds. -/
def oneOver : Image where
  data := List.replicate 40 0x2a ++ [0x2b]

theorem chunks_partition_one_over :
    (oneOver.chunk 1).length = 40 ∧
    (1 ≤ (oneOver.chunk 2).length ∧ (oneOver.chunk 2).length ≤ 40) ∧
    oneOver.chunk 3 = [] ∧
    slice? oneOver.data (oneOver.startOf 4294967295) (oneOver.stopOf 4294967295) = some [] ∧
    oneOver.totalChunks ≤ 2 ∧
    oneOver.Lies 40 2 0 ∧ ¬ oneOver.Lies 40 1 40 ∧
    (oneOver.chunk 2)[0]? = some 0x2b := by
  rcases chunks_partition oneOver with ⟨-, full, last, outside, looked, ⟨-, least⟩, lies⟩
  rcases lies 40 (by decide) with ⟨liesAt, octet⟩
  refine ⟨full 1 (by decide) (by decide), last (by decide), outside 3 (by decide), ?_,
    least 2 (by decide), ?_, ?_, octet⟩
  · exact looked 4294967295 (by decide) (by decide)
  · exact (liesAt 2 0).mpr ⟨rfl, rfl⟩
  · intro behind
    cases ((liesAt 1 40).mp behind).1

end Image
end FirmwareGateway
