import FirmwareGateway.Relay.Target
import FirmwareGateway.Text.Line
import FirmwareGateway.Text.Utf8

namespace FirmwareGateway
namespace Operator

/-!
# Actions of an operator

An operator lists the clients, relays a file to one, or forwards a command through
one to a node.  A client is named by its place in the list, counted from one.  An
action is written as words on a line; white space of any kind and amount stands
between them.
-/

/-- What an operator can ask for. -/
inductive Action
  | list
  | relay (client : UInt64) (target : Relay.Target) (path : String)
  | forward (client : UInt64) (node : UInt16) (payload : Bytes) (secure : Bool)
  deriving DecidableEq, Repr

namespace Action

/-- A number below `limit` in decimal. -/
def readNumber (limit : Nat) (word : String) : Except Error Nat :=
  match Text.readNumeral 10 limit word.toList with
  | .ok n => .ok n
  | .error _ => .error (.configuration (.number word))

/-- The place of a client in the list. -/
def readClient (word : String) : Except Error UInt64 :=
  (readNumber UInt64.size word).map UInt64.ofNat

/-- The number of a node. -/
def readNode (word : String) : Except Error UInt16 :=
  (readNumber UInt16.size word).map UInt16.ofNat

/-- A command in hexadecimal. -/
def readPayload (word : String) : Except Error Bytes :=
  match Text.readHex (Text.utf8 word.toList) with
  | .ok payload => .ok payload
  | .error fault => .error (.configuration (.payload fault))

/-- Reads a forward with what may follow it read already. -/
def readForward (client node payload : String) (secure : Bool) : Except Error Action := do
  let client ← readClient client
  let node ← readNode node
  let payload ← readPayload payload
  return .forward client node payload secure

/-- Reads an action from the words of a line; `unknown` is the failure of words that
are none. -/
def ofWords (unknown : Error) : List String → Except Error Action
  | ["list"] => .ok .list
  | ["relay", "bridge", client, path] => do
    return .relay (← readClient client) .bridge path
  | ["relay", "ncp", client, path] => do
    return .relay (← readClient client) .coprocessor path
  | ["relay", "node", client, node, path] => do
    let client ← readClient client
    return .relay client (.node (← readNode node)) path
  | ["forward", client, node, payload] => readForward client node payload false
  | ["forward", client, node, payload, "secure"] => readForward client node payload true
  | _ => .error unknown

/-- Reads an action from a line. -/
def parse (line : String) : Except Error Action :=
  let characters := line.toList
  let unknown := ConfigurationFault.command (String.ofList (Text.trim characters))
  ofWords (.configuration unknown) ((Text.words characters).map String.ofList)

end Action

end Operator
end FirmwareGateway
