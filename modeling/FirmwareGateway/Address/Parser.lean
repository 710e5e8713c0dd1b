import FirmwareGateway.Address
import FirmwareGateway.Text.Line

namespace FirmwareGateway

/-!
# Reading addresses

More forms are read than are written: leading zeros in the last numbers, every way
of shortening an IPv6 address, and an IPv4 address in its last two groups.  What is
read is a front of the text, and a socket address is the whole of it.
-/

/-- The digits at the front of a text and what follows them. -/
def spanDigits (base : Nat) (text : List Char) : List Char × List Char :=
  text.span fun c => (Text.digitValue base c).isSome

/-- A number at the front of a text, with at most `most` digits. -/
def readShort (base most : Nat) (text : List Char) : Option (Nat × List Char) :=
  let (digits, rest) := spanDigits base text
  if digits.length > most then none
  else
    match Text.readMagnitude base (Nat.pow base most) .tooLarge digits with
    | .ok n => some (n, rest)
    | .error _ => none

/-- A number below `limit` at the front of a text, of any length. -/
def readLong (limit : Nat) (text : List Char) : Option (Nat × List Char) :=
  let (digits, rest) := spanDigits 10 text
  match Text.readMagnitude 10 limit .tooLarge digits with
  | .ok n => some (n, rest)
  | .error _ => none

/-- The text behind a given first character. -/
def skip (expected : Char) : List Char → Option (List Char)
  | c :: rest => if c = expected then some rest else none
  | [] => none

/-- An octet in decimal, without leading zeros. -/
def readOctet (text : List Char) : Option (Nat × List Char) := do
  let (digits, _) := spanDigits 10 text
  let (n, rest) ← readShort 10 3 text
  if n < 256 ∧ (digits.length ≤ 1 ∨ digits.head? ≠ some '0') then some (n, rest) else none

/-- An IPv4 address at the front of a text. -/
def readIpv4 (text : List Char) : Option (Nat × List Char) := do
  let (a, rest) ← readOctet text
  let (b, rest) ← readOctet (← skip '.' rest)
  let (c, rest) ← readOctet (← skip '.' rest)
  let (d, rest) ← readOctet (← skip '.' rest)
  some (((a * 256 + b) * 256 + c) * 256 + d, rest)

/-- Groups of an IPv6 address read from the front of a text. -/
structure ReadGroups where
  groups : List Nat
  dotted : Bool
  rest : List Char

/-- Reads at most `room` groups with colons between them; `first` holds for the
group that has no colon before it.  An IPv4 address takes the room of two groups
and ends them. -/
def readGroups : Nat → Bool → List Char → ReadGroups
  | 0, _, text => ⟨[], false, text⟩
  | room + 1, first, text =>
    match if first then some text else skip ':' text with
    | none => ⟨[], false, text⟩
    | some body =>
      match if room = 0 then none else readIpv4 body with
      | some (host, rest) => ⟨[host / 65536, host % 65536], true, rest⟩
      | none =>
        match readShort 16 4 body with
        | none => ⟨[], false, text⟩
        | some (group, rest) =>
          let more := readGroups room false rest
          ⟨group :: more.groups, more.dotted, more.rest⟩

/-- An IPv6 address at the front of a text.  Two colons stand for one or more
zero groups, and no IPv4 address stands before them. -/
def readIpv6 (text : List Char) : Option (Nat × List Char) := do
  let head := readGroups 8 true text
  if head.groups.length = 8 then some (groupsValue head.groups, head.rest)
  else if head.dotted then none
  else
    let behind ← skip ':' (← skip ':' head.rest)
    let tail := readGroups (7 - head.groups.length) true behind
    let zeros := List.replicate (8 - head.groups.length - tail.groups.length) 0
    some (groupsValue (head.groups ++ zeros ++ tail.groups), tail.rest)

/-- Reads an IPv4 address and the service behind it. -/
def readSocketV4 (text : List Char) : Option SocketAddress := do
  let (host, rest) ← readIpv4 text
  let (service, rest) ← readLong 65536 (← skip ':' rest)
  if rest.isEmpty then some (.v4 (UInt32.ofNat host) (UInt16.ofNat service)) else none

/-- Reads an IPv6 address in brackets, its optional scope, and the service
behind it.  A written address has no flow. -/
def readSocketV6 (text : List Char) : Option SocketAddress := do
  let (host, rest) ← readIpv6 (← skip '[' text)
  let (scope, rest) ←
    match skip '%' rest with
    | some digits => readLong UInt32.size digits
    | none => some (0, rest)
  let (service, rest) ← readLong 65536 (← skip ':' (← skip ']' rest))
  if rest.isEmpty then
    some (.v6 (BitVec.ofNat 128 host) (UInt16.ofNat service) 0 (UInt32.ofNat scope))
  else none

/-- Reads a socket address from the whole of a text. -/
def SocketAddress.read? (text : List Char) : Option SocketAddress :=
  match readSocketV4 text with
  | some address => some address
  | none => readSocketV6 text

end FirmwareGateway
