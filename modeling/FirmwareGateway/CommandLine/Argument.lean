import FirmwareGateway.Address.Parser

namespace FirmwareGateway
namespace CommandLine

/-!
# Arguments of a command

A command is described by its arguments: what each is called, how it is given, how
its text is read, and where its value comes from when it is not given.  Both the
reader of a command line and the help text work from these descriptions.
-/

/-- How the text of a value is read. -/
inductive ValueKind
  | upTo (most : Nat)
  | word64
  | identifier
  | address
  | path
  | text
  deriving DecidableEq, Repr

/-- A value that was read. -/
inductive Datum
  | set
  | number (n : Nat)
  | address (address : SocketAddress)
  | text (text : String)
  deriving DecidableEq, Repr

/-- Why a text is not a value: it is empty where something must stand, or it cannot
be read, for a reason. -/
inductive ValueFault
  | empty
  | unreadable (reason : String)
  deriving DecidableEq, Repr

/-- Takes up the reading of a numeral. -/
def ofNumeral (read : Except Text.NumeralFault Nat) (context : String) :
    Except ValueFault Datum :=
  match read with
  | .ok n => .ok (.number n)
  | .error fault => .error (.unreadable (context ++ fault.message))

/-- An identifier of sixteen bits, in decimal or behind `0x` in hexadecimal.  What is
said about a bad one repeats it. -/
def readIdentifier (text : String) : Except ValueFault Datum :=
  let context := text ++ ": "
  match text.toList with
  | '0' :: 'x' :: digits => ofNumeral (Text.readNumeral 16 65536 digits) context
  | '0' :: 'X' :: digits => ofNumeral (Text.readNumeral 16 65536 digits) context
  | digits => ofNumeral (Text.readNumeral 10 65536 digits) context

/-- Reads the text of a value. -/
def ValueKind.read (kind : ValueKind) (text : String) : Except ValueFault Datum :=
  match kind with
  | .upTo most =>
    match Text.readInteger (UInt64.size / 2) text.toList with
    | .error fault => .error (.unreadable fault.message)
    | .ok n =>
      if 0 ≤ n ∧ n ≤ most then .ok (.number n.toNat)
      else .error (.unreadable s!"{n} is not in 0..={most}")
  | .word64 => ofNumeral (Text.readNumeral 10 UInt64.size text.toList) ""
  | .identifier => readIdentifier text
  | .address =>
    match SocketAddress.read? text.toList with
    | some found => .ok (.address found)
    | none => .error (.unreadable "invalid socket address syntax")
  | .path => if text = "" then .error .empty else .ok (.text text)
  | .text => .ok (.text text)

/-- How an argument is given. -/
inductive Form
  | positional
  | option (short : Option Char)
  | flag (short : Option Char)
  deriving DecidableEq, Repr

/-- The description of an argument. -/
structure Argument where
  name : String
  form : Form
  kind : ValueKind := .text
  valueName : String := ""
  help : String
  required : Bool := false
  many : Bool := false
  fromEnv : Option String := none
  fallback : Option String := none
  deriving DecidableEq, Repr

namespace Argument

/-- The one letter by which an argument can be given. -/
def short? (argument : Argument) : Option Char :=
  match argument.form with
  | .positional => none
  | .option short => short
  | .flag short => short

/-- Whether an argument stands by its place alone. -/
def isPositional (argument : Argument) : Bool :=
  argument.form == .positional

/-- The argument as messages name it. -/
def label (argument : Argument) : String :=
  match argument.form with
  | .positional =>
    let name := argument.valueName
    let place := if argument.required then s!"<{name}>" else s!"[{name}]"
    if argument.many then place ++ "..." else place
  | .option _ => s!"--{argument.name} <{argument.valueName}>"
  | .flag _ => s!"--{argument.name}"

/-- The flag that asks for help. -/
def helpFlag : Argument where
  name := "help"
  form := .flag (some 'h')
  help := "Print help"

end Argument

/-- The description of a command. -/
structure CommandSpec where
  name : String
  about : String
  arguments : List Argument
  helps : Bool := true
  deriving DecidableEq, Repr

namespace CommandSpec

/-- The arguments that a command takes by name, and the flag that asks for help if
the command has it. -/
def named (spec : CommandSpec) : List Argument :=
  spec.arguments.filter (fun argument => !argument.isPositional)
    ++ if spec.helps then [.helpFlag] else []

/-- The arguments that a command takes by place. -/
def positionals (spec : CommandSpec) : List Argument :=
  spec.arguments.filter Argument.isPositional

/-- The command that asks for help.  Every word behind it counts as the name of a
command, so no flag can ask for help about it. -/
def helpCommand : CommandSpec where
  name := "help"
  about := "Print this message or the help of the given subcommand(s)"
  arguments :=
    [{ name := "COMMAND", form := .positional, valueName := "COMMAND"
       help := "Print help for the subcommand(s)", many := true }]
  helps := false

end CommandSpec

end CommandLine
end FirmwareGateway
