import FirmwareGateway.Error

namespace FirmwareGateway
namespace Wire

/-!
# Message layouts

A layout gives a message its name, the octets it begins with, and its fields in
order.  One writer and one reader serve every message.  Writing goes from field to
field, so a field that cannot take its value leaves the ones before it written;
`Attempt` keeps both what was written and what stopped it.  Reading looks at the
length and the leading octets first and then at each field in its place.  A tail
does not move the place of the fields behind it, though only a tail in the last
place can be written.
-/

/-- A kind of message. -/
structure Layout where
  name : String
  lead : Bytes
  fields : List Field
  deriving DecidableEq, Repr

/-- How far writing came: what was written, and why it stopped early if it did. -/
structure Attempt where
  written : Bytes
  fault : Option Error
  deriving DecidableEq, Repr

/-- What was written if nothing stopped it. -/
def Attempt.result (attempt : Attempt) : Except Error Bytes :=
  match attempt.fault with
  | none => .ok attempt.written
  | some fault => .error fault

namespace Layout

/-- The octets that fields always take, together. -/
def widths (fields : List Field) : Nat :=
  fields.foldr (fun field rest => field.kind.width + rest) 0

theorem widths_cons (field : Field) (fields : List Field) :
    widths (field :: fields) = field.kind.width + widths fields := rfl

/-- The length of the shortest message: its lead and every field of fixed width. -/
def fixedLength (layout : Layout) : Nat :=
  layout.lead.length + widths layout.fields

/-- Whether the last field is a tail. -/
def endsInTail (layout : Layout) : Bool :=
  match layout.fields.getLast? with
  | some field => field.kind == .tail
  | none => false

/-- The octets of a value in one field of the message called `layout`; `isLast`
holds for the last field. -/
def writeField (layout : String) (isLast : Bool) (field : Field) (value : Value) :
    Except Error Bytes :=
  match field.kind, value with
  | .tail, value =>
    if isLast then
      match value with
      | .bytes bytes => .ok bytes
      | .int _ => .error (.protocol (.wrongKind layout field.name field.kind value))
    else .error (.protocol (.misplacedTail layout field.name))
  | .fixed length, .bytes bytes =>
    if bytes.length = length then .ok bytes
    else .error (.protocol (.fixedLength layout field.name length bytes.length))
  | .word word, .int n =>
    if n.toNat < Nat.pow 256 word.width then .ok (word.write n.toNat)
    else .error (.fieldOverflow field.name n)
  | kind, value => .error (.protocol (.wrongKind layout field.name kind value))

/-- Writes values into the fields that go with them, up to the first that does
not take its value. -/
def writeFields (layout : String) : List Field → List Value → Attempt
  | field :: fields, value :: values =>
    match writeField layout fields.isEmpty field value with
    | .ok bytes =>
      let more := writeFields layout fields values
      ⟨bytes ++ more.written, more.fault⟩
    | .error fault => ⟨[], some fault⟩
  | _, _ => ⟨[], none⟩

/-- Writes a message.  Nothing is written when there is not one value to a field. -/
def write (layout : Layout) (values : List Value) : Attempt :=
  if values.length = layout.fields.length then
    let body := writeFields layout.name layout.fields values
    ⟨layout.lead ++ body.written, body.fault⟩
  else
    ⟨[], some (.protocol (.valueCount layout.name layout.fields.length values.length))⟩

/-- A buffer with the message behind what it held, and why the message is not
whole if it is not. -/
def append (layout : Layout) (buffer : Bytes) (values : List Value) : Attempt :=
  let attempt := layout.write values
  ⟨buffer ++ attempt.written, attempt.fault⟩

/-- The octets of a message. -/
def encode (layout : Layout) (values : List Value) : Except Error Bytes :=
  (layout.write values).result

/-- What a field holds when the octets from its place on are given. -/
def readField (kind : FieldKind) (octets : Bytes) : Option Value :=
  match kind with
  | .tail => some (.bytes octets)
  | .fixed length =>
    if octets.length < length then none else some (.bytes (octets.take length))
  | .word word =>
    if octets.length < word.width then none
    else some (.int (UInt32.ofNat (word.read (octets.take word.width))))

/-- What the fields hold when the octets behind the lead are given. -/
def readFields : List Field → Bytes → Option (List Value)
  | [], _ => some []
  | field :: fields, octets =>
    match readField field.kind octets, readFields fields (octets.drop field.kind.width) with
    | some value, some values => some (value :: values)
    | _, _ => none

/-- The values of a message, one for each field. -/
def decode (layout : Layout) (raw : Bytes) : Except Error (List Value) :=
  let need := layout.fixedLength
  if raw.length < need then .error (.truncated layout.name need raw.length)
  else if ¬ layout.endsInTail ∧ raw.length ≠ need then
    .error (.protocol (.messageLength layout.name need raw.length))
  else if ¬ layout.lead <+: raw then
    .error (.protocol (.leadMismatch layout.name (raw.take layout.lead.length)))
  else
    match readFields layout.fields (raw.drop layout.lead.length) with
    | some values => .ok values
    | none => .error (.truncated layout.name need raw.length)

end Layout

end Wire
end FirmwareGateway
