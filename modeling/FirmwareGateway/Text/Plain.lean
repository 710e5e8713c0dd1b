import FirmwareGateway.Bytes

namespace FirmwareGateway
namespace Text

/-!
# Emphasis and plain text

A text for a terminal may hold control sequences, which a terminal obeys and does
not show.  Parts of a text are set off by them, one before the part and one behind it
that resets the terminal.  The second also ends whatever the part itself has left
open.

Where there is no terminal, the text is made plain: the sequences are left out, and so
are control characters other than blanks.

A blank control character in an unfinished sequence suspends it.  What follows is
shown until a control character takes the sequence up again or a character beyond
ASCII ends it.  Sequences that carry a text of their own cannot be suspended.
-/

/-- How a part of a text is set off. -/
inductive Emphasis
  | heading
  | failure
  | literal
  | invalid
  deriving DecidableEq, Repr

namespace Emphasis

/-- The control sequences before the part. -/
def opening : Emphasis → String
  | .heading => "\x1b[1m\x1b[4m"
  | .failure => "\x1b[1m\x1b[31m"
  | .literal => "\x1b[1m"
  | .invalid => "\x1b[33m"

/-- The control sequence behind the part. -/
def reset : String := "\x1b[0m"

/-- A part of a text, set off. -/
def around (emphasis : Emphasis) (part : String) : String :=
  emphasis.opening ++ part ++ reset

end Emphasis

/-! ## Plain text -/

/-- Whether a character lies between two others. -/
def within (low high c : Char) : Bool :=
  low ≤ c && c ≤ high

/-- The control characters that leave a blank: tabulator, line feed, form feed and
carriage return. -/
def isBlankControl (c : Char) : Bool :=
  c == '\t' || c == '\n' || c == '\x0c' || c == '\r'

/-- Whether a character is shown where no sequence is open. -/
def isShown (c : Char) : Bool :=
  isBlankControl c || (' ' ≤ c && c ≠ '\x7f')

/-- What is open at a place in a text: nothing, a sequence whose kind is not yet
known, a selection, a control with its parameters, a device control before its own
text (at its start, in its parameters, behind them), a passage that runs to its
terminator, or a title. -/
inductive Opened
  | nothing
  | escape
  | selection
  | control
  | device
  | deviceParameters
  | deviceSelection
  | passage
  | title
  deriving DecidableEq, Repr

namespace Opened

/-- Whether an open sequence can be suspended. -/
def suspends : Opened → Bool
  | .escape | .selection | .control => true
  | _ => false

/-- Whether a character of a passage ends it, which one does whose encoding has the
octet `9c`. -/
def endsPassage (c : Char) : Bool :=
  (String.utf8EncodeChar c).contains 0x9c

/-- What is open behind a character that belongs to what is open before it.  An
escape opens a new sequence anywhere, and two characters cancel any. -/
def next (opened : Opened) (c : Char) : Opened :=
  if c = '\x1b' then .escape
  else if c = '\x18' ∨ c = '\x1a' then .nothing
  else
    match opened with
    | .nothing => .nothing
    | .escape =>
      if within ' ' '/' c then .selection
      else if c = '[' then .control
      else if c = ']' then .title
      else if c = 'P' then .device
      else if c = 'X' ∨ c = '^' ∨ c = '_' then .passage
      else if within '0' '~' c then .nothing
      else .escape
    | .selection => if within '0' '~' c then .nothing else .selection
    | .control => if within '@' '~' c then .nothing else .control
    | .device =>
      if within ' ' '/' c then .deviceSelection
      else if within '0' '?' c then .deviceParameters
      else if within '@' '~' c then .passage
      else .device
    | .deviceParameters =>
      if within ' ' '/' c then .deviceSelection
      else if within '<' '~' c then .passage
      else .deviceParameters
    | .deviceSelection => if within '0' '~' c then .passage else .deviceSelection
    | .passage => if endsPassage c then .nothing else .passage
    | .title => if c = '\x07' then .nothing else .title

end Opened

/-- A place in a text: what is open, and whether it is suspended. -/
structure Place where
  opened : Opened
  suspended : Bool
  deriving DecidableEq, Repr

namespace Place

/-- The beginning of a text. -/
def start : Place := ⟨.nothing, false⟩

/-- Whether a character at a place is shown. -/
def shows (place : Place) (c : Char) : Bool :=
  if place.opened = .nothing ∨ place.suspended then isShown c
  else place.opened.suspends && isBlankControl c

/-- The place behind a character.  Behind one that is shown a sequence is suspended,
unless the character lies beyond ASCII. -/
def next (place : Place) (c : Char) : Place :=
  if place.shows c then
    if c ≤ '\x7f' then { place with suspended := place.opened ≠ .nothing } else start
  else ⟨place.opened.next c, false⟩

end Place

/-- The characters of a text that are shown, from a place on. -/
def shown : Place → List Char → List Char
  | _, [] => []
  | place, c :: rest =>
    if place.shows c then c :: shown (place.next c) rest else shown (place.next c) rest

/-- A text without its control sequences. -/
def plain (text : String) : String :=
  String.ofList (shown .start text.toList)

end Text
end FirmwareGateway
