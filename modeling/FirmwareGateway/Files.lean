import FirmwareGateway.Error

namespace FirmwareGateway

/-!
# Files

A file is found by its path from the directory the gateway works in, or from the
root.  Directories are those that lead to a file, and those above the working
directory.  A path goes from step to step; an empty step and a point stay where
they are, and two points go up.  A file can be nothing but the last step of a path,
so a path that goes on behind it, were it only by a slash, fails.  A directory can
be found but not read.

Names and paths are limited in length, counted in octets.  A path as a whole is
checked before its first step is taken, a name only when it is looked for.
-/

/-- The files there are, each with its name and content. -/
structure Files where
  entries : List (String × Bytes)
  deriving DecidableEq, Repr

namespace Files

/-- Where a path leads: the steps from the working directory, of which leading pairs
of points go up from it, or from the root, which is the step `/`. -/
abbrev Location := List String

/-- One directory up. -/
def up (here : Location) : Location :=
  match here.getLast? with
  | none => [".."]
  | some ".." => here ++ [".."]
  | some "/" => here
  | some _ => here.dropLast

/-- One step further. -/
def advance (here : Location) (step : String) : Location :=
  if step = "" ∨ step = "." then here
  else if step = ".." then up here
  else here ++ [step]

/-- Where a path starts. -/
def origin (path : String) : Location :=
  if path.startsWith "/" then ["/"] else []

/-- The steps of a path. -/
def steps (path : String) : List String :=
  path.splitOn "/"

/-- Where the name of a file leads. -/
def locate (name : String) : Location :=
  (steps name).foldl advance (origin name)

/-- What a path leads to. -/
inductive Place
  | directory (here : Location)
  | file (content : Bytes)

/-- Whether a place is the working directory, the root, or above the working
directory. -/
def isAbove (here : Location) : Bool :=
  here.all fun step => step == ".." || step == "/"

/-- What is to be found at a location. -/
def lookup (files : Files) (here : Location) : Option Place :=
  match files.entries.find? fun entry => locate entry.1 = here with
  | some entry => some (.file entry.2)
  | none =>
    if isAbove here || files.entries.any fun entry => here.isPrefixOf (locate entry.1) then
      some (.directory here)
    else none

/-- The octets that a name may have. -/
def longestName : Nat := 255

/-- The octets that a path may have. -/
def longestPath : Nat := 4095

/-- Follows the steps of a path from a place. -/
def follow (files : Files) : Place → List String → Except IoFault Place
  | place, [] => .ok place
  | .file _, _ :: _ => .error .notDirectory
  | .directory here, step :: rest =>
    if longestName < step.utf8ByteSize then .error .nameTooLong
    else
      match files.lookup (advance here step) with
      | some place => follow files place rest
      | none => .error .notFound

/-- What a path leads to. -/
def find (files : Files) (path : String) : Except IoFault Place :=
  if path.toList.contains '\x00' then .error .nulInName
  else if path = "" then .error .notFound
  else if longestPath < path.utf8ByteSize then .error .nameTooLong
  else files.follow (.directory (origin path)) (steps path)

/-- The content of the file at a path. -/
def read (files : Files) (path : String) : Except Error Bytes :=
  match files.find path with
  | .ok (.file content) => .ok content
  | .ok (.directory _) => .error (.io .isDirectory)
  | .error fault => .error (.io fault)

end Files

end FirmwareGateway
