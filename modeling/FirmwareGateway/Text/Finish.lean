import FirmwareGateway.Text.Plain

namespace FirmwareGateway
namespace Text

/-!
# Finished output

What the gateway writes is read by a terminal, which obeys control sequences, or by a
program, for which they are taken out.  Its output counts as read by a program
unless the environment forces the sequences to stay.  Reports of failures can be
given a finish of their own.
-/

/-- Whether control sequences stay in what is written. -/
inductive Finish
  | plain
  | styled
  deriving DecidableEq, Repr

namespace Finish

/-- The variable that forbids control sequences. -/
def forbidding : String := "NO_COLOR"

/-- The variable that forces control sequences to stay. -/
def forcing : String := "CLICOLOR_FORCE"

/-- The finish that an environment asks for.  A variable counts if it has any value
but the empty one, and forbidding wins over forcing. -/
def of (environment : List (String × String)) : Finish :=
  let counts := fun name => (environment.lookup name).any fun value => value != ""
  if counts forcing && !counts forbidding then .styled else .plain

/-- The variable that gives reports of failures a finish of their own. -/
def ofReportsOnly : String := "RUST_LOG_STYLE"

/-- The finish of reports of failures.  Two values of their own variable decide it, and
without one of these it is that of everything else. -/
def ofReports (environment : List (String × String)) : Finish :=
  match environment.lookup ofReportsOnly with
  | some "never" => .plain
  | some "always" => .styled
  | _ => .of environment

/-- The variables that decide about finishes. -/
def consulted : List String :=
  [forbidding, forcing, ofReportsOnly]

/-- A text as it is written. -/
def text : Finish → String → String
  | .plain, text => Text.plain text
  | .styled, text => text

/-- The lines of a text as it is written. -/
def lines (finish : Finish) (text : String) : List String :=
  (finish.text text).splitOn "\n"

/-- The first line of a text as it is written.  A carriage return before the end of
the line belongs to that end. -/
def firstLine (finish : Finish) (text : String) : String :=
  let (line, behind) := (finish.text text).toList.span (· ≠ '\n')
  match behind, line.reverse with
  | _ :: _, '\r' :: rest => String.ofList rest.reverse
  | _, _ => String.ofList line

end Finish

/-- The finishes of a run: that of reports of failures, and that of everything else. -/
structure Finishes where
  reports : Finish
  messages : Finish
  deriving DecidableEq, Repr

/-- The finishes that an environment asks for. -/
def Finishes.of (environment : List (String × String)) : Finishes :=
  ⟨.ofReports environment, .of environment⟩

end Text
end FirmwareGateway
