namespace FirmwareGateway

/-!
# Socket addresses

A client is known by the address of its end of the connection: an IPv4 or IPv6
address, a number for the service on that host and, for IPv6, the label of the flow
and the scope of the address.  Lists of clients are in the order of
`SocketAddress.rank`, which tells every two addresses apart.
-/

/-- The address of one end of a connection. -/
inductive SocketAddress
  | v4 (host : UInt32) (service : UInt16)
  | v6 (host : BitVec 128) (service : UInt16) (flow scope : UInt32)
  deriving DecidableEq, Repr

namespace SocketAddress

/-- The place of an address in the order of addresses: every IPv4 address before
every IPv6 address, then by host, by service, by flow and by scope, each as a number. -/
def rank : SocketAddress → Nat
  | .v4 host service => host.toNat * UInt16.size + service.toNat
  | .v6 host service flow scope =>
    UInt32.size * UInt16.size +
      ((host.toNat * UInt16.size + service.toNat) * UInt32.size + flow.toNat) * UInt32.size +
      scope.toNat

/-- A number determines its last digit and what stands before it. -/
theorem digits_unique {base high low otherHigh otherLow : Nat} (digit : low < base)
    (otherDigit : otherLow < base)
    (same : high * base + low = otherHigh * base + otherLow) :
    high = otherHigh ∧ low = otherLow := by
  have lows : low = otherLow := calc
    low = (high * base + low) % base := (Nat.mul_add_mod_of_lt digit).symm
    _ = (otherHigh * base + otherLow) % base := congrArg (· % base) same
    _ = otherLow := Nat.mul_add_mod_of_lt otherDigit
  subst lows
  exact ⟨Nat.eq_of_mul_eq_mul_right (Nat.zero_lt_of_lt digit) (Nat.add_right_cancel same), rfl⟩

theorem v4_rank_injective {host otherHost : UInt32} {service otherService : UInt16}
    (same : (v4 host service).rank = (v4 otherHost otherService).rank) :
    v4 host service = v4 otherHost otherService := by
  rcases digits_unique service.toNat_lt otherService.toNat_lt same with ⟨hosts, services⟩
  rw [UInt32.toNat_inj.mp hosts, UInt16.toNat_inj.mp services]

theorem v6_rank_injective {host otherHost : BitVec 128} {service otherService : UInt16}
    {flow otherFlow scope otherScope : UInt32}
    (same : (v6 host service flow scope).rank =
      (v6 otherHost otherService otherFlow otherScope).rank) :
    v6 host service flow scope = v6 otherHost otherService otherFlow otherScope := by
  simp only [rank, Nat.add_assoc] at same
  have behind := Nat.add_left_cancel same
  rcases digits_unique scope.toNat_lt otherScope.toNat_lt behind with ⟨flows, scopes⟩
  rcases digits_unique flow.toNat_lt otherFlow.toNat_lt flows with ⟨ends, flows⟩
  rcases digits_unique service.toNat_lt otherService.toNat_lt ends with ⟨hosts, services⟩
  rw [BitVec.eq_of_toNat_eq hosts, UInt16.toNat_inj.mp services, UInt32.toNat_inj.mp flows,
    UInt32.toNat_inj.mp scopes]

theorem rank_v4_lt_rank_v6 (host : UInt32) (service otherService : UInt16)
    (otherHost : BitVec 128) (flow scope : UInt32) :
    (v4 host service).rank < (v6 otherHost otherService flow scope).rank := by
  have hostBound := host.toNat_lt
  have serviceBound := service.toNat_lt
  simp only [rank, UInt16.size, UInt32.size]
  omega

theorem rank_injective {a b : SocketAddress} (same : a.rank = b.rank) : a = b := by
  cases a with
  | v4 host service =>
    cases b with
    | v4 otherHost otherService => exact v4_rank_injective same
    | v6 otherHost otherService flow scope =>
      exact absurd same (Nat.ne_of_lt (rank_v4_lt_rank_v6 _ _ _ _ _ _))
  | v6 host service flow scope =>
    cases b with
    | v4 otherHost otherService =>
      exact absurd same (Nat.ne_of_gt (rank_v4_lt_rank_v6 _ _ _ _ _ _))
    | v6 otherHost otherService otherFlow otherScope => exact v6_rank_injective same

end SocketAddress

/-- The number of an IPv6 address whose eight groups, highest first, are given. -/
def groupsValue (groups : List Nat) : Nat :=
  groups.foldl (fun sofar group => sofar * 65536 + group) 0

/-- Nodes have their addresses in the unique local network `fd00:bbbb:1::`, the
node number being the last group. -/
def nodeHost (node : UInt16) : BitVec 128 :=
  BitVec.ofNat 128 (groupsValue [0xfd00, 0xbbbb, 0x1, 0, 0, 0, 0, node.toNat])

end FirmwareGateway
