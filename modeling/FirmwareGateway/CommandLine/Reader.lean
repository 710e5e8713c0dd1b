import FirmwareGateway.CommandLine.Argument

namespace FirmwareGateway
namespace CommandLine

/-!
# Reading a command line

Words are taken one by one.  Behind two dashes stands the name of an argument, with
its value behind an equals sign or as the next word; behind one dash stand letters.
A word of two dashes alone makes everything behind it positional.

A value given as a word of its own is looked at when the next argument begins or the
line ends.  So a word that cannot be an argument is refused first, even if the value
before it is no good, and an option is found to lack its value only then.  An
argument that is not on the line may come from a variable of the environment.
-/

/-- Why a command line is refused, or what it asks for instead of a command. -/
inductive Refusal
  | missingArguments
  | missingCommand
  | unknownCommand (word : String)
  | unexpected (word : String)
  | invalidValue (value label reason : String)
  | surplusValue (value label : String)
  | valueRequired (label : String)
  | repeated (label : String)
  | helpWanted
  deriving DecidableEq, Repr

/-- A word by its dashes. -/
inductive Word
  | escape
  | long (name : String) (value : Option String)
  | short (letter : Char) (rest : List Char)
  | plain
  deriving DecidableEq, Repr

/-- The text behind an equals sign, if it starts with one. -/
def attached : List Char → Option String
  | '=' :: value => some (String.ofList value)
  | _ => none

/-- Looks at the dashes of a word.  One dash alone is a word like any other. -/
def Word.of (word : String) : Word :=
  match word.toList with
  | ['-', '-'] => .escape
  | '-' :: '-' :: rest =>
    let (name, behind) := rest.span (· ≠ '=')
    .long (String.ofList name) (attached behind)
  | '-' :: letter :: rest => .short letter rest
  | _ => .plain

/-- What has been read of a command: the arguments taken, the argument being read
with its value if that was seen, the places still to be filled, and whether
everything to come is positional. -/
structure Reading where
  taken : List (String × Datum)
  current : Option (Argument × Option String)
  places : List Argument
  escaped : Bool

namespace Reading

/-- Whether an argument was taken. -/
def has (reading : Reading) (argument : Argument) : Bool :=
  reading.taken.any fun entry => entry.1 == argument.name

/-- Takes an argument, which may be taken only once. -/
def take (reading : Reading) (argument : Argument) (datum : Datum) : Reading :=
  { reading with taken := reading.taken ++ [(argument.name, datum)] }

/-- Takes an argument with the text of its value. -/
def store (reading : Reading) (argument : Argument) (text : String) : Except Refusal Reading :=
  if reading.has argument then .error (.repeated argument.label)
  else
    match argument.kind.read text with
    | .ok datum => .ok (reading.take argument datum)
    | .error .empty => .error (.valueRequired argument.label)
    | .error (.unreadable reason) => .error (.invalidValue text argument.label reason)

/-- Takes the argument being read, if there is one. -/
def settle (reading : Reading) : Except Refusal Reading :=
  match reading.current with
  | none => .ok reading
  | some (argument, none) => .error (.valueRequired argument.label)
  | some (argument, some text) => { reading with current := none }.store argument text

/-- Takes a flag. -/
def raise (reading : Reading) (flag : Argument) : Except Refusal Reading := do
  let reading ← reading.settle
  if flag = .helpFlag then .error .helpWanted
  else if reading.has flag then .error (.repeated flag.label)
  else return reading.take flag .set

/-- Begins an option, or takes it whole if its value is attached. -/
def option (reading : Reading) (argument : Argument) (value : Option String) :
    Except Refusal Reading := do
  let reading ← reading.settle
  match value with
  | some text => reading.store argument text
  | none => return { reading with current := some (argument, none) }

/-- Takes a word by its place. -/
def place (reading : Reading) (word : String) : Except Refusal Reading :=
  match reading.places with
  | [] => .error (.unexpected word)
  | argument :: places => do
    let reading ← reading.settle
    return { reading with current := some (argument, some word), places := places }

/-- Takes the name of an argument and what is attached to it. -/
def long (arguments : List Argument) (reading : Reading) (name : String) (value : Option String) :
    Except Refusal Reading :=
  match arguments.find? fun argument => argument.name == name with
  | none => .error (.unexpected ("--" ++ name))
  | some argument =>
    match argument.form, value with
    | .flag _, some text => .error (.surplusValue text argument.label)
    | .flag _, none => reading.raise argument
    | _, value => reading.option argument value

/-- Takes letters: flags, up to an option, to which the rest belongs as its value. -/
def letters (arguments : List Argument) (reading : Reading) : Char → List Char →
    Except Refusal Reading
  | letter, rest =>
    match arguments.find? fun argument => argument.short? == some letter with
    | none => .error (.unexpected ("-" ++ letter.toString))
    | some argument =>
      match argument.form, rest with
      | .flag _, [] => reading.raise argument
      | .flag _, next :: rest => do letters arguments (← reading.raise argument) next rest
      | _, [] => reading.option argument none
      | _, rest => reading.option argument (some ((attached rest).getD (String.ofList rest)))
  termination_by _ rest => rest.length

/-- Takes a word. -/
def word (arguments : List Argument) (reading : Reading) (word : String) :
    Except Refusal Reading :=
  if reading.escaped then reading.place word
  else
    match Word.of word with
    | .escape => .ok { reading with escaped := true }
    | .long name value => reading.long arguments name value
    | .short letter rest => reading.letters arguments letter rest
    | .plain =>
      match reading.current with
      | some (argument, none) => .ok { reading with current := some (argument, some word) }
      | _ => reading.place word

/-- Takes what is missing from the environment. -/
def complete (environment : List (String × String)) (reading : Reading) (argument : Argument) :
    Except Refusal Reading :=
  if reading.has argument then .ok reading
  else
    match argument.fromEnv.bind fun name => environment.lookup name with
    | some text => reading.store argument text
    | none => .ok reading

end Reading

/-- The arguments of a command, by name, read from the words behind it. -/
def CommandSpec.read (spec : CommandSpec) (environment : List (String × String))
    (words : List String) : Except Refusal (List (String × Datum)) := do
  let start : Reading := ⟨[], none, spec.positionals, false⟩
  let reading ← words.foldlM (Reading.word spec.named) start
  let reading ← reading.settle
  let reading ← spec.arguments.foldlM (Reading.complete environment) reading
  if spec.arguments.any fun argument => argument.required && !reading.has argument then
    throw .missingArguments
  return reading.taken

/-- What the words of a command line ask for: a command with the words behind it, or
help, in general or for a command. -/
inductive Choice
  | command (spec : CommandSpec) (words : List String)
  | help (spec : Option CommandSpec)

/-- The command of a given name. -/
def find? (specs : List CommandSpec) (name : String) : Option CommandSpec :=
  specs.find? fun spec => spec.name == name

/-- Reads what help is wanted for.  No command has commands of its own. -/
def chooseHelp (specs : List CommandSpec) : List String → Except Refusal Choice
  | [] => .ok (.help none)
  | word :: behind =>
    match find? specs word, behind with
    | some spec, [] => .ok (.help (some spec))
    | some _, next :: _ => .error (.unknownCommand next)
    | none, _ => .error (.unknownCommand word)

/-- The first word that must not stand before a command, once everything is
positional. -/
def refuseBehindEscape (specs : List CommandSpec) : List String → Refusal
  | [] => .missingCommand
  | word :: _ => if (find? specs word).isSome then .unexpected word else .unknownCommand word

/-- Finds the command on a command line. -/
def choose (specs : List CommandSpec) : List String → Except Refusal Choice
  | [] => .error .missingCommand
  | word :: rest =>
    match find? specs word with
    | some spec =>
      if spec = .helpCommand then chooseHelp specs rest else .ok (.command spec rest)
    | none =>
      match Word.of word with
      | .escape => .error (refuseBehindEscape specs rest)
      | .long "help" none => .ok (.help none)
      | .long "help" (some value) => .error (.surplusValue value Argument.helpFlag.label)
      | .long name _ => .error (.unexpected ("--" ++ name))
      | .short 'h' _ => .ok (.help none)
      | .short letter _ => .error (.unexpected ("-" ++ letter.toString))
      | .plain => .error (.unknownCommand word)

end CommandLine
end FirmwareGateway
