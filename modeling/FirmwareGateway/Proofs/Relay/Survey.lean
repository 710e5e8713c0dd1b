import FirmwareGateway.Proofs.Digest
import FirmwareGateway.Relay.Session

namespace FirmwareGateway
namespace Relay

/-!
# Files that are read twice

A file is first read block by block for its size and digest, and then again as it is
relayed.  Whatever the blocks are, what is taken down is the size and the digest of the
whole content, and behind the first pass the second finds all of it.
-/

namespace Survey

/-- What is known when some octets of a file have been read. -/
structure Holds (survey : Survey) (octets : Bytes) : Prop where
  size : survey.size = octets.length
  progress : survey.progress.Holds octets

theorem holds_empty : empty.Holds [] :=
  ⟨rfl, Digest.Progress.holds_empty⟩

theorem Holds.behind {survey : Survey} {octets : Bytes} (holds : survey.Holds octets)
    (block : Bytes) : (survey.behind block).Holds (octets ++ block) where
  size := by
    rw [List.length_append, ← holds.size]
    rfl
  progress := holds.progress.update block

theorem Holds.info_eq {survey : Survey} {content : Bytes} (holds : survey.Holds content) :
    survey.info = .of content := by
  simp only [info, FileInfo.of, holds.size, holds.progress.finish]

/-- Each block is one step of the induction: what has been read and what is unread are
the file. -/
theorem holds_complete {survey : Survey} {file : OpenFile} {octets : Bytes}
    (holds : survey.Holds octets) (split : octets ++ file.unread = file.content) :
    (survey.complete file).1.Holds file.content ∧
      (survey.complete file).2.content = file.content := by
  fun_induction complete survey file generalizing octets with
  | case1 survey file rest read =>
    simp only [OpenFile.read, Prod.mk.injEq] at read
    have nothing : file.unread = [] := by
      rcases List.take_eq_nil_iff.mp read.1 with never | none
      · cases never
      · exact none
    rw [nothing, List.append_nil] at split
    rw [← read.2, ← split]
    exact ⟨holds, rfl⟩
  | case2 survey file octet block rest read ih =>
    simp only [OpenFile.read, Prod.mk.injEq] at read
    have content : rest.content = file.content := by rw [← read.2]
    have further : octets ++ octet :: block ++ rest.unread = rest.content := by
      rw [content, ← split, ← read.1, ← read.2, List.append_assoc, List.take_append_drop]
    rw [← content]
    exact ih (holds.behind (octet :: block)) further

end Survey

/-- A file is relayed with the size and digest of all that is relayed. -/
theorem FirmwareFile.read_eq (files : Files) (path : String) :
    read files path = (files.read path).map fun content => ⟨path, .of content, content⟩ := by
  cases found : files.read path with
  | error fault => simp only [read, found, bind, Except.bind, Except.map]
  | ok content =>
    have opened : [] ++ (OpenFile.opened content).unread = (OpenFile.opened content).content := rfl
    rcases Survey.holds_complete Survey.holds_empty opened with ⟨holds, still⟩
    simp only [read, found, bind, Except.bind, Except.map, pure, Except.pure, OpenFile.rewound,
      holds.info_eq, still]
    rfl

theorem runFile_eq {files : Files} {path : String} {content : Bytes}
    (found : files.read path = .ok content) (target : Target) (sink : Sink) (reads : List Read) :
    runFile files path target sink reads =
      run target (.of content) (.ofBytes content) sink reads := by
  rw [runFile, FirmwareFile.read_eq, found]
  rfl

end Relay
end FirmwareGateway
