import FirmwareGateway.Files
import FirmwareGateway.Relay.Target

namespace FirmwareGateway
namespace Relay

/-!
# Sources

The content of a file comes in the pieces that reading it yields.  A source that
fails does so when more is wanted than its pieces hold; another one simply ends.

A file is read twice.  The first time, block by block, only its size and digest are
taken; then it is read again from the beginning as it is relayed.
-/

/-- What is left of a file to be read, and the failure that it ends in, if any. -/
structure Source where
  pieces : List Bytes
  fault : Option IoFault
  deriving DecidableEq, Repr

/-- The first `n` octets of some pieces, or all of them, and the pieces left. -/
def takePieces : Nat → List Bytes → Bytes × List Bytes
  | _, [] => ([], [])
  | n, piece :: later =>
    match piece.drop n with
    | [] =>
      let (more, left) := takePieces (n - piece.length) later
      (piece ++ more, left)
    | rest => (piece.take n, rest :: later)

namespace Source

/-- A source that ends behind the given content. -/
def ofBytes (content : Bytes) : Source := ⟨[content], none⟩

/-- A source that fails with the first read that wants more than the first `n`
octets of the content.  When the content is shorter than that, it ends first. -/
def failingAt (n : Nat) (content : Bytes) (fault : IoFault) : Source :=
  if n ≤ content.length then ⟨[content.take n], some fault⟩ else ofBytes content

/-- What is left to be read. -/
def content (source : Source) : Bytes := source.pieces.flatten

/-- Reads `n` octets, or as many as there are. -/
def take (source : Source) (n : Nat) : Except Error (Bytes × Source) :=
  let (chunk, left) := takePieces n source.pieces
  match source.fault with
  | some fault =>
    if chunk.length < n then .error (.io fault) else .ok (chunk, ⟨left, some fault⟩)
  | none => .ok (chunk, ⟨left, none⟩)

end Source

/-! ## Files -/

/-- A file that is open for reading: what it holds, and what of that was not read
yet. -/
structure OpenFile where
  content : Bytes
  unread : Bytes
  deriving DecidableEq, Repr

namespace OpenFile

/-- A file that was just opened. -/
def opened (content : Bytes) : OpenFile := ⟨content, content⟩

/-- Reads at most so many octets; none are there at the end of the file only. -/
def read (file : OpenFile) (most : Nat) : Bytes × OpenFile :=
  (file.unread.take most, { file with unread := file.unread.drop most })

/-- Reading that yields something leaves less to be read. -/
theorem read_shorter {file rest : OpenFile} {most : Nat} {octet : UInt8} {octets : Bytes}
    (h : file.read most = (octet :: octets, rest)) : rest.unread.length < file.unread.length := by
  simp only [read, Prod.mk.injEq] at h
  have taken := congrArg List.length h.1
  rw [List.length_take, List.length_cons] at taken
  rw [← h.2, List.length_drop]
  omega

/-- Goes back to the beginning. -/
def rewound (file : OpenFile) : OpenFile := opened file.content

end OpenFile

/-- What is known of a file that has been read so far. -/
structure Survey where
  size : Nat
  progress : Digest.Progress
  deriving DecidableEq, Repr

namespace Survey

/-- How many octets are read at a time. -/
def blockSize : Nat := 8 * 1024

/-- Nothing is known yet. -/
def empty : Survey := ⟨0, .empty⟩

/-- Takes in one more block of the file. -/
def behind (survey : Survey) (block : Bytes) : Survey :=
  ⟨survey.size + block.length, survey.progress.update block⟩

/-- The size and digest of the file that has been read. -/
def info (survey : Survey) : FileInfo :=
  ⟨survey.size, survey.progress.finish, survey.progress.length_finish⟩

/-- Reads the rest of a file, block by block. -/
def complete (survey : Survey) (file : OpenFile) : Survey × OpenFile :=
  match _read : file.read blockSize with
  | ([], rest) => (survey, rest)
  | (octet :: octets, rest) => (survey.behind (octet :: octets)).complete rest
  termination_by file.unread.length
  decreasing_by exact OpenFile.read_shorter _read

end Survey

/-- A file that is ready to be relayed. -/
structure FirmwareFile where
  path : String
  info : FileInfo
  content : Bytes
  deriving DecidableEq, Repr

/-- Reads a file once for its size and digest, and goes back to its beginning. -/
def FirmwareFile.read (files : Files) (path : String) : Except Error FirmwareFile := do
  let file := OpenFile.opened (← files.read path)
  let (survey, file) := Survey.empty.complete file
  return ⟨path, survey.info, file.rewound.unread⟩

end Relay
end FirmwareGateway
