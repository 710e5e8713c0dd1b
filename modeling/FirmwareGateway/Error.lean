import FirmwareGateway.Address.Printer
import FirmwareGateway.Text.Hex
import FirmwareGateway.Wire.Field

namespace FirmwareGateway

/-!
# What can go wrong

Every failure is a value that names its cause.  The causes fall into the classes
of `Error`; where a class covers several causes, they are an inductive type of
their own.  `Error.message` gives the one text that stands for a failure.
-/

open Wire (FieldKind Value)

/-- Messages and records that break the rules of their format. -/
inductive ProtocolFault
  | valueCount (layout : String) (expected got : Nat)
  | misplacedTail (layout field : String)
  | fixedLength (layout field : String) (need got : Nat)
  | wrongKind (layout field : String) (kind : FieldKind) (value : Value)
  | messageLength (layout : String) (expected got : Nat)
  | leadMismatch (layout : String) (got : Bytes)
  | reportData (length limit : Nat)
  | channelTag (value : UInt8)
  | recordType (value : UInt8)
  deriving DecidableEq, Repr

/-- Settings and commands that make no sense. -/
inductive ConfigurationFault
  | requestTimeout
  | ackTimeout
  | nodeMissing
  | queueDepth
  | receiveBuffer
  | command (line : String)
  | number (word : String)
  | payload (fault : Text.HexFault)
  | data (fault : Text.HexFault)
  deriving DecidableEq, Repr

/-- Failures of files and streams. -/
inductive IoFault
  | notFound
  | notDirectory
  | isDirectory
  | nameTooLong
  | nulInName
  | brokenPipe
  | other (description : String)
  deriving DecidableEq, Repr

/-- Every failure the gateway reports. -/
inductive Error
  | protocol (fault : ProtocolFault)
  | truncated (message : String) (need got : Nat)
  | fieldOverflow (field : String) (value : UInt32)
  | peerClosed (need got : Nat)
  | ackTimeout
  | io (fault : IoFault)
  | firmwareTooLarge (chunks : Nat)
  | unknownClient (address : SocketAddress)
  | clientIndex (index : UInt64)
  | connectionClosed (address : SocketAddress)
  | configuration (fault : ConfigurationFault)
  deriving DecidableEq, Repr

/-- An octet in two hexadecimal digits behind `0x`. -/
def octetNumber (octet : UInt8) : String :=
  "0x" ++ Text.hexText [octet]

/-- Octets in hexadecimal, as a list. -/
def octetList (bytes : Bytes) : String :=
  "[" ++ ", ".intercalate (bytes.map fun octet => Text.hexText [octet]) ++ "]"

/-- What is said about a message or record that breaks its format. -/
def ProtocolFault.message : ProtocolFault → String
  | .valueCount layout expected got => s!"{layout}: expected {expected} values, got {got}"
  | .misplacedTail layout field => s!"{layout}: tail field {field} is not last"
  | .fixedLength layout field need got => s!"{layout}: field {field} needs {need} bytes, got {got}"
  | .wrongKind layout field kind value =>
    s!"{layout}: field {field} ({kind.label}) cannot hold {value.label}"
  | .messageLength layout expected got => s!"{layout}: expected {expected} bytes, got {got}"
  | .leadMismatch layout got => s!"{layout}: prefix mismatch, got {octetList got}"
  | .reportData length limit => s!"report data is {length} bytes, limit is {limit}"
  | .channelTag value => s!"Invalid channel tag: {octetNumber value}"
  | .recordType value => s!"Invalid record type: {octetNumber value}"

/-- What is said about a setting or command that makes no sense. -/
def ConfigurationFault.message : ConfigurationFault → String
  | .requestTimeout => "chunk request timeout must be non-zero"
  | .ackTimeout => "ack timeout must be non-zero when acknowledgment is required"
  | .nodeMissing => "node id must be set"
  | .queueDepth => "queue depth must be at least 1"
  | .receiveBuffer => "receive buffer must be at least 1 byte"
  | .command line => s!"unrecognised command: {line}"
  | .number word => s!"not a number: {word}"
  | .payload fault => s!"payload: {fault.message}"
  | .data fault => s!"data: {fault.message}"

/-- What is said about a failing file or stream. -/
def IoFault.message : IoFault → String
  | .notFound => "No such file or directory (os error 2)"
  | .notDirectory => "Not a directory (os error 20)"
  | .isDirectory => "Is a directory (os error 21)"
  | .nameTooLong => "File name too long (os error 36)"
  | .nulInName => "file name contained an unexpected NUL byte"
  | .brokenPipe => "broken pipe"
  | .other description => description

/-- The text of a failure. -/
def Error.message : Error → String
  | .protocol fault => s!"Protocol error: {fault.message}"
  | .truncated message need got => s!"Truncated {message}: need {need} bytes, got {got}"
  | .fieldOverflow field value =>
    s!"Field {field} value 0x{Text.hexNumber value.toNat} does not fit its wire width"
  | .peerClosed need got => s!"Peer closed the stream after {got} of {need} pull header bytes"
  | .ackTimeout => "Timed out waiting for firmware update request acknowledgment"
  | .io fault => s!"IO error: {fault.message}"
  | .firmwareTooLarge chunks =>
    s!"Firmware too large: {chunks} chunks exceed the 15-bit report number"
  | .unknownClient address => s!"No client connected at {address.text}"
  | .clientIndex index => s!"No client number {index.toNat}"
  | .connectionClosed address => s!"Connection task for {address.text} is gone"
  | .configuration fault => s!"Invalid configuration: {fault.message}"

end FirmwareGateway
