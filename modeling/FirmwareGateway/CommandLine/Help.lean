import FirmwareGateway.CommandLine.Commands
import FirmwareGateway.CommandLine.Reader
import FirmwareGateway.Text.Plain

namespace FirmwareGateway
namespace CommandLine

/-!
# Help texts and messages

A help text tells what a command is for, how it is called, and what its arguments
are.  Descriptions stand in one column, two blanks behind the longest term; a
description of several lines keeps to the column.  Headings and what is typed as it
stands are set off.

A message says what is wrong with a command line and where to find help.  What the
user has written is set off from what is said about it.
-/

/-- The name by which the gateway is called. -/
def programName : String := "zgw-ota"

/-- What the gateway is for. -/
def programAbout : String :=
  "Serve firmware to Z-Wave nodes and relay images to gateway bridges"

/-- A number of blanks. -/
def blanks (count : Nat) : String :=
  String.ofList (List.replicate count ' ')

/-- A term with its description.  The width is that of the term as it is shown. -/
structure Row where
  term : String
  width : Nat
  description : String

/-- Terms with their descriptions in one column. -/
def table (rows : List Row) : String :=
  let width := (rows.map Row.width).foldl max 0
  let column := "\n" ++ blanks (width + 4)
  "\n".intercalate <| rows.map fun row =>
    "  " ++ row.term ++ blanks (width - row.width + 2)
      ++ column.intercalate (row.description.splitOn "\n")

/-- A table under a heading, if there is anything in it. -/
def titled (heading : String) (rows : List Row) : List String :=
  if rows.isEmpty then []
  else [Text.Emphasis.heading.around (heading ++ ":") ++ "\n" ++ table rows]

/-- The name of an argument as it is typed, set off. -/
def Argument.typed (argument : Argument) : String :=
  let name := Text.Emphasis.literal.around ("--" ++ argument.name)
  match argument.form with
  | .positional => argument.label
  | .option _ => name ++ s!" <{argument.valueName}>"
  | .flag _ => name

/-- The term of an argument, behind its letter or the room for one, and its width. -/
def term (argument : Argument) : String × Nat :=
  match argument.form with
  | .positional => (argument.label, argument.label.length)
  | _ =>
    let letter := match argument.short? with
      | some letter => Text.Emphasis.literal.around ("-" ++ letter.toString) ++ ", "
      | none => blanks 4
    (letter ++ argument.typed, 4 + argument.label.length)

/-- The description of an argument: its help, the variable it may come from with the
value that has, and its default. -/
def describe (environment : List (String × String)) (argument : Argument) : String :=
  let source := match argument.fromEnv with
    | some name =>
      let value := (environment.lookup name).getD ""
      s!" [env: {name}={value}]"
    | none => ""
  let fallback := match argument.fallback with
    | some value => s!" [default: {value}]"
    | none => ""
  argument.help ++ source ++ fallback

/-- The row of an argument. -/
def argumentRow (environment : List (String × String)) (argument : Argument) : Row :=
  let (shown, width) := term argument
  ⟨shown, width, describe environment argument⟩

/-- The row of a command. -/
def commandRow (spec : CommandSpec) : Row :=
  ⟨Text.Emphasis.literal.around spec.name, spec.name.length, spec.about⟩

/-- How a command is called. -/
def usage (words : List String) : String :=
  Text.Emphasis.heading.around "Usage:" ++ " " ++ " ".intercalate words

/-- The words with which a command is called. -/
def CommandSpec.usageWords (spec : CommandSpec) : List String :=
  let optional := spec.named.any fun argument => !argument.required && argument != .helpFlag
  let required := spec.named.filter Argument.required
  [Text.Emphasis.literal.around s!"{programName} {spec.name}"]
    ++ (if optional then ["[OPTIONS]"] else [])
    ++ required.map Argument.typed ++ spec.positionals.map Argument.label

/-- The help text of a command. -/
def CommandSpec.help (environment : List (String × String)) (spec : CommandSpec) : String :=
  let row := argumentRow environment
  "\n\n".intercalate <| [spec.about, usage spec.usageWords]
    ++ titled "Arguments" (spec.positionals.map row)
    ++ titled "Options" (spec.named.map row)

/-- The help text of the gateway. -/
def programHelp (specs : List CommandSpec) : String :=
  "\n\n".intercalate <|
    [programAbout, usage [Text.Emphasis.literal.around programName, "<COMMAND>"]]
    ++ titled "Commands" (specs.map commandRow)
    ++ titled "Options" [argumentRow [] .helpFlag]

/-! ## Messages about a command line -/

/-- A part of a message between single quotes, set off. -/
def cited (emphasis : Text.Emphasis) (part : String) : String :=
  "\x27" ++ emphasis.around part ++ "\x27"

/-- What is said about a command line that has something wrong with it. -/
def complaint (wrong : String) : String :=
  Text.Emphasis.failure.around "error:" ++ " " ++ wrong
    ++ s!"\n\nFor more information, try {cited .literal Argument.helpFlag.label}.\n"

/-- What is said about a refused command line.  The reason why a value cannot be read
is not set off, even if it repeats the value.  Without a command, the gateway says
what it is for and how it is called. -/
def Refusal.message : Refusal → String
  | .missingCommand | .helpWanted => programHelp specs
  | .missingArguments => complaint "the following required arguments were not provided:"
  | .unknownCommand word => complaint s!"unrecognized subcommand {cited .invalid word}"
  | .unexpected word => complaint s!"unexpected argument {cited .invalid word} found"
  | .invalidValue value label reason =>
    complaint s!"invalid value {cited .invalid value} for {cited .literal label}: {reason}"
  | .surplusValue value label =>
    complaint (s!"unexpected value {cited .invalid value} for {cited .literal label} found; "
      ++ "no more were expected")
  | .valueRequired label =>
    complaint s!"a value is required for {cited .invalid label} but none was supplied"
  | .repeated label =>
    complaint s!"the argument {cited .invalid label} cannot be used multiple times"

end CommandLine
end FirmwareGateway
