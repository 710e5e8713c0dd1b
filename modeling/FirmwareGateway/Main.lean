import FirmwareGateway.CommandLine.Program

/-!
The program: reads its arguments, the environment, standard input and the files it
is asked for, and prints what the command line came to.  Links to nodes and clients
are not opened here; a command that needs one reports the address it would use.
-/

namespace FirmwareGateway
namespace Main

open CommandLine

/-- The variables of the environment that say how output is finished or that arguments
may come from. -/
def environment : IO (List (String × String)) := do
  let names := specs.flatMap fun spec => spec.arguments.filterMap Argument.fromEnv
  (Text.Finish.consulted ++ names).eraseDups.filterMapM fun name => do
    return (← IO.getEnv name).map fun value => (name, value)

/-- Whether what a path leads to can be opened. -/
def canOpen (path : String) : IO Bool := do
  try
    discard (IO.FS.Handle.mk path .read)
    return true
  catch _ => return false

/-- What is known about a path: the file it leads to, or nothing.  What can be opened
and not read is a directory, which is told by an entry of it. -/
def loadFile (path : String) : IO Files := do
  try
    let content ← IO.FS.readBinFile path
    return ⟨[(path, content.toList)]⟩
  catch _ =>
    return ⟨if ← canOpen path then [(path ++ "/entry", [])] else []⟩

/-- The files that a request asks for. -/
def filesFor : Request → IO Files
  | .update path _ => loadFile path
  | _ => return ⟨[]⟩

/-- The files that a line on the console asks for. -/
def filesForLine (line : String) : IO Files :=
  match Operator.Action.parse line with
  | .ok (.relay _ _ path) => loadFile path
  | _ => return ⟨[]⟩

/-- Answers lines on the console until one ends the session or there are no more. -/
partial def console (finishes : Text.Finishes) (input : IO.FS.Stream) : IO Unit := do
  let line ← input.getLine
  if line.isEmpty then return
  match respond (← filesForLine line) .empty line with
  | .stop => return
  | .nothing => console finishes input
  | .said lines =>
    lines.forM IO.println
    console finishes input
  | .failed fault =>
    IO.eprintln (failureLine finishes fault)
    console finishes input

/-- Prints what a run came to and gives its exit code. -/
def report (finishes : Text.Finishes) : Outcome → IO UInt32
  | .ended ending => do
    let printout := ending.printout finishes
    printout.output.forM IO.println
    printout.errors.forM IO.eprintln
    return printout.code.toUInt32
  | .linked address _ => do
    IO.eprintln s!"no link to {address.text} was opened"
    return 1

/-- Runs the words of a command line. -/
def runWords (words : List String) : IO UInt32 := do
  let environment ← environment
  let report := report (.of environment)
  match interpret environment words with
  | .error ending => report (.ended ending)
  | .ok (.serve settings) =>
    match settings.validate with
    | .error fault => report (.ended (.failed fault))
    | .ok () => do
      console (.of environment) (← IO.getStdin)
      return 0
  | .ok request => report (request.run (← filesFor request) "")

end Main
end FirmwareGateway

/-- The entry point. -/
def main (words : List String) : IO UInt32 :=
  FirmwareGateway.Main.runWords words
