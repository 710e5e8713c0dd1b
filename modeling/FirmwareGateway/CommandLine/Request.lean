import FirmwareGateway.Bridge.Floor
import FirmwareGateway.CommandLine.Commands
import FirmwareGateway.CommandLine.Reader
import FirmwareGateway.Update.Settings

namespace FirmwareGateway
namespace CommandLine

/-!
# Requests

A request is a command whose arguments have been read: the settings it is carried
out with, where arguments that were not given keep their defaults.
-/

/-- What a command line asks for. -/
inductive Request
  | serve (settings : Bridge.Settings)
  | update (path : String) (settings : Update.Settings)
  | askMetadata (settings : Update.Settings)
  | askVersion (settings : Update.Settings)
  | checksum (digits : String)
  deriving DecidableEq, Repr

/-- Arguments with their values. -/
abbrev Given := List (String × Datum)

/-- Whether a flag was given. -/
def Given.flag (given : Given) (name : String) : Bool :=
  (given.lookup name).isSome

/-- The number given for an argument. -/
def Given.number? (given : Given) (name : String) : Option Nat :=
  match given.lookup name with
  | some (.number n) => some n
  | _ => none

/-- The text given for an argument, empty if there is none. -/
def Given.text (given : Given) (name : String) : String :=
  match given.lookup name with
  | some (.text text) => text
  | _ => ""

/-- The address given for an argument. -/
def Given.address? (given : Given) (name : String) : Option SocketAddress :=
  match given.lookup name with
  | some (.address address) => some address
  | _ => none

/-- The settings with which a node is reached. -/
def nodeSettings (given : Given) : Update.Settings :=
  let start : Update.Settings := {}
  { start with
    node := (given.number? "node").map UInt16.ofNat
    service := ((given.number? "port").map UInt16.ofNat).getD start.service
    secure := !given.flag "insecure" }

/-- The settings of an update. -/
def updateSettings (given : Given) : Update.Settings :=
  let start := nodeSettings given
  { start with
    vendor := ((given.number? "vendor-id").map UInt16.ofNat).getD start.vendor
    firmware := ((given.number? "firmware-id").map UInt16.ofNat).getD start.firmware
    target := ((given.number? "target").map UInt8.ofNat).getD start.target
    hardware := ((given.number? "hw-version").map UInt8.ofNat).getD start.hardware
    requestTimeout := ((given.number? "timeout").map (· * 1000)).getD start.requestTimeout
    ackPolicy := if given.flag "require-ack" then .require else start.ackPolicy
    activate := given.flag "activate" }

/-- The request of a command with its arguments. -/
def requestOf (spec : CommandSpec) (given : Given) : Request :=
  if spec = serveSpec then
    let start : Bridge.Settings := {}
    .serve { start with listen := (given.address? "listen").getD start.listen }
  else if spec = updateSpec then .update (given.text "FIRMWARE") (updateSettings given)
  else if spec = metadataSpec then .askMetadata (nodeSettings given)
  else if spec = versionSpec then .askVersion (nodeSettings given)
  else .checksum (given.text "DATA")

end CommandLine
end FirmwareGateway
