import FirmwareGateway.CommandLine.Help
import FirmwareGateway.CommandLine.Request
import FirmwareGateway.Operator.Dispatch
import FirmwareGateway.Text.Finish
import FirmwareGateway.Update.Transfer

namespace FirmwareGateway
namespace CommandLine

/-!
# Runs of the gateway

A run of a command line ends with a help text, a refusal, a failure, or the lines of
a command that was carried out.  What is printed about that is told apart from it:
lines for the standard output, lines that name failures, and an exit code.  A
command that goes on over a link to a node hands back the address of the node and
the request.
-/

/-! ## How runs end -/

/-- How a run ends. -/
inductive Ending
  | helped (text : String)
  | refused (refusal : Refusal)
  | failed (fault : Error)
  | finished (output : List String) (faults : List Error)
  deriving DecidableEq, Repr

/-- What is printed about a run. -/
structure Printout where
  code : UInt8
  output : List String
  errors : List String
  deriving DecidableEq, Repr

/-- The line that reports a failure. -/
def failureLine (finishes : Text.Finishes) (fault : Error) : String :=
  finishes.reports.firstLine (fault.message ++ "\n")

/-- What is printed about a run that ends. -/
def Ending.printout (finishes : Text.Finishes) : Ending → Printout
  | .helped text => ⟨0, finishes.messages.lines text, []⟩
  | .refused refusal => ⟨2, [], [finishes.messages.firstLine refusal.message]⟩
  | .failed fault => ⟨1, [], [failureLine finishes fault]⟩
  | .finished output faults => ⟨0, output, faults.map (failureLine finishes)⟩

/-- What came of a command line: the end of its run, or a request that goes on over a
link to the node at an address. -/
inductive Outcome
  | ended (ending : Ending)
  | linked (address : SocketAddress) (request : Request)
  deriving DecidableEq, Repr

/-! ## Carrying out requests -/

/-- What a line on the console comes to. -/
inductive Response
  | nothing
  | stop
  | said (lines : List String)
  | failed (fault : Error)
  deriving DecidableEq, Repr

/-- Answers a line on the console.  Blank lines say nothing, and two words end the
session. -/
def respond (files : Files) (floor : Bridge.Floor) (line : String) : Response :=
  let line := String.ofList (Text.trim line.toList)
  if line = "" then .nothing
  else if line = "quit" ∨ line = "x" then .stop
  else
    let planned := do
      let action ← Operator.Action.parse line
      Operator.plan files floor.registry.list floor.registry action
    match planned with
    | .error fault => .failed fault
    | .ok (.clients addresses) => .said (Operator.Output.clients addresses).lines
    | .ok (.submit _ _) => .nothing

/-- A console session over some lines while no client is connected. -/
def serveLines (files : Files) : List String → List String × List Error
  | [] => ([], [])
  | line :: rest =>
    match respond files .empty line with
    | .stop => ([], [])
    | .nothing => serveLines files rest
    | .said lines =>
      let (output, faults) := serveLines files rest
      (lines ++ output, faults)
    | .failed fault =>
      let (output, faults) := serveLines files rest
      (output, fault :: faults)

/-- The address of the node that the settings name. -/
def nodeAddress (settings : Update.Settings) : Except Error SocketAddress :=
  match settings.node with
  | none => .error (.configuration .nodeMissing)
  | some node => .ok (.v6 (nodeHost node) settings.service 0 0)

/-- A number of sixteen bits as four upper case digits. -/
def upperHex (n : UInt16) : String :=
  (Text.hexText (Bytes.bigEndian 2 n.toNat)).map Char.toUpper

/-- The line that gives the checksum of the octets spelled by some digits. -/
def checksumLine (digits : String) : Except Error String :=
  match Text.readHex (Text.utf8 (Text.trim digits.toList)) with
  | .error fault => .error (.configuration (.data fault))
  | .ok bytes => .ok (upperHex (Checksum.ofBytes bytes))

/-- Goes on over a link, if there is one to go on over. -/
def overLink (request : Request) : Except Error SocketAddress → Outcome
  | .error fault => .ended (.failed fault)
  | .ok address => .linked address request

/-- Carries out a request as far as it goes without a link. -/
def Request.run (files : Files) (input : String) (request : Request) : Outcome :=
  match request with
  | .serve settings =>
    match settings.validate with
    | .error fault => .ended (.failed fault)
    | .ok () =>
      let (output, faults) := serveLines files (input.splitOn "\n")
      .ended (.finished output faults)
  | .update path settings =>
    overLink request ((Update.prepare files path settings).map Prod.snd)
  | .askMetadata settings => overLink request (nodeAddress settings)
  | .askVersion settings => overLink request (nodeAddress settings)
  | .checksum digits =>
    match checksumLine digits with
    | .error fault => .ended (.failed fault)
    | .ok line => .ended (.finished [line] [])

/-- What the words of a command line ask for, or how the run ends without that. -/
def interpret (environment : List (String × String)) (words : List String) :
    Except Ending Request :=
  match choose specs words with
  | .error refusal => .error (.refused refusal)
  | .ok (.help none) => .error (.helped (programHelp specs))
  | .ok (.help (some spec)) => .error (.helped (spec.help environment))
  | .ok (.command spec words) =>
    match spec.read environment words with
    | .ok given => .ok (requestOf spec given)
    | .error .helpWanted => .error (.helped (spec.help environment))
    | .error refusal => .error (.refused refusal)

/-- Runs a command line. -/
def run (files : Files) (environment : List (String × String)) (input : String)
    (words : List String) : Outcome :=
  match interpret environment words with
  | .error ending => .ended ending
  | .ok request => request.run files input

end CommandLine
end FirmwareGateway
