import FirmwareGateway.Address
import FirmwareGateway.Text.Hex

namespace FirmwareGateway

/-!
# Addresses as text

An address has one written form.  Two colons shorten the longest run of zero
groups of an IPv6 address, the first of several; a single zero group is written
out.
-/

/-- The four octets of an IPv4 address, highest first. -/
def ipv4Octets (host : Nat) : List Nat :=
  [host >>> 24 % 256, host >>> 16 % 256, host >>> 8 % 256, host % 256]

/-- An IPv4 address as its octets in decimal, with points between. -/
def ipv4Text (host : Nat) : String :=
  ".".intercalate ((ipv4Octets host).map toString)

/-- The eight groups of an IPv6 address, highest first. -/
def ipv6Groups (host : BitVec 128) : List Nat :=
  (List.range 8).map fun i => host.toNat >>> (16 * (7 - i)) % UInt16.size

/-- A run of groups that are zero. -/
structure ZeroRun where
  start : Nat
  length : Nat

/-- The longest run of zero groups, the first of several; `current` is the run
that ends before the groups still to be seen. -/
def longestZeroRun (best current : ZeroRun) : List Nat → ZeroRun
  | [] => best
  | group :: rest =>
    if group = 0 then
      let longer : ZeroRun := ⟨current.start, current.length + 1⟩
      longestZeroRun (if best.length < longer.length then longer else best) longer rest
    else longestZeroRun best ⟨current.start + current.length + 1, 0⟩ rest

/-- Groups in hexadecimal, with colons between. -/
def groupsText (groups : List Nat) : String :=
  ":".intercalate (groups.map Text.hexNumber)

/-- An IPv6 address.  Two colons stand for the longest run of two or more zero
groups.  An address that stands for an IPv4 address ends in its dotted form. -/
def ipv6Text (host : BitVec 128) : String :=
  let groups := ipv6Groups host
  if host.toNat / UInt32.size = 0xffff then "::ffff:" ++ ipv4Text (host.toNat % UInt32.size)
  else
    let run := longestZeroRun ⟨0, 0⟩ ⟨0, 0⟩ groups
    if run.length < 2 then groupsText groups
    else
      groupsText (groups.take run.start) ++ "::"
        ++ groupsText (groups.drop (run.start + run.length))

/-- The address in its one written form.  A scope of zero is not written, nor is the
flow. -/
def SocketAddress.text : SocketAddress → String
  | .v4 host service => s!"{ipv4Text host.toNat}:{service.toNat}"
  | .v6 host service _ scope =>
    if scope = 0 then s!"[{ipv6Text host}]:{service.toNat}"
    else s!"[{ipv6Text host}%{scope.toNat}]:{service.toNat}"

end FirmwareGateway
