import FirmwareGateway.Address

namespace FirmwareGateway
namespace Bridge

/-!
# The registry of clients

The registry keeps one handle to an address, in the order of addresses.  A new
handle takes the place of the one its address had.  What was at the address before
is handed back, so a caller can tell a replacement from an arrival.
-/

/-- The handles of connected clients by address. -/
structure Registry (α : Type) where
  entries : List (SocketAddress × α)
  deriving DecidableEq, Repr

namespace Registry

variable {α : Type}

/-- No client. -/
def empty : Registry α := ⟨[]⟩

/-- The handle at an address in a list of entries. -/
def lookup (address : SocketAddress) : List (SocketAddress × α) → Option α
  | [] => none
  | (other, handle) :: rest => if other = address then some handle else lookup address rest

/-- Puts a handle in its place, over the one that had the same address. -/
def insert (address : SocketAddress) (handle : α) :
    List (SocketAddress × α) → List (SocketAddress × α)
  | [] => [(address, handle)]
  | (other, present) :: rest =>
    if address = other then (address, handle) :: rest
    else if address.rank < other.rank then (address, handle) :: (other, present) :: rest
    else (other, present) :: insert address handle rest

/-- Takes out the handle at an address. -/
def erase (address : SocketAddress) : List (SocketAddress × α) → List (SocketAddress × α)
  | [] => []
  | (other, present) :: rest =>
    if other = address then erase address rest else (other, present) :: erase address rest

/-- The handle at an address. -/
def resolve (registry : Registry α) (address : SocketAddress) : Option α :=
  lookup address registry.entries

/-- Registers a handle and hands back the one it replaces. -/
def register (registry : Registry α) (address : SocketAddress) (handle : α) :
    Option α × Registry α :=
  (registry.resolve address, ⟨insert address handle registry.entries⟩)

/-- Removes the handle at an address and hands it back. -/
def unregister (registry : Registry α) (address : SocketAddress) : Option α × Registry α :=
  (registry.resolve address, ⟨erase address registry.entries⟩)

/-- Removes the handle at an address and hands it back, if it is accepted. -/
def unregisterIf (registry : Registry α) (address : SocketAddress) (accepts : α → Bool) :
    Option α × Registry α :=
  match registry.resolve address with
  | some handle => if accepts handle then registry.unregister address else (none, registry)
  | none => (none, registry)

/-- The registered addresses in order. -/
def list (registry : Registry α) : List SocketAddress :=
  registry.entries.map Prod.fst

/-- How many clients are registered. -/
def size (registry : Registry α) : Nat :=
  registry.entries.length

/-- Whether no client is registered. -/
def isEmpty (registry : Registry α) : Bool :=
  registry.entries.isEmpty

/-! ## Calls as data -/

/-- A call on the registry. -/
inductive Call (α : Type)
  | register (address : SocketAddress) (handle : α)
  | unregister (address : SocketAddress)
  | unregisterIf (address : SocketAddress) (accepts : α → Bool)
  | resolve (address : SocketAddress)

/-- The address a call is about. -/
def Call.address : Call α → SocketAddress
  | .register address _ => address
  | .unregister address => address
  | .unregisterIf address _ => address
  | .resolve address => address

/-- What a call returns, and the registry after it. -/
def call (registry : Registry α) : Call α → Option α × Registry α
  | .register address handle => registry.register address handle
  | .unregister address => registry.unregister address
  | .unregisterIf address accepts => registry.unregisterIf address accepts
  | .resolve address => (registry.resolve address, registry)

/-- What some calls return, one after the other, and the registry after them. -/
def calls (registry : Registry α) : List (Call α) → List (Option α) × Registry α
  | [] => ([], registry)
  | c :: rest =>
    let (answer, next) := registry.call c
    let (answers, last) := next.calls rest
    (answer :: answers, last)

/-! ## Look-up after a change -/

theorem lookup_cons_self (address : SocketAddress) (handle : α)
    (entries : List (SocketAddress × α)) :
    lookup address ((address, handle) :: entries) = some handle :=
  if_pos rfl

theorem lookup_cons_other {address other : SocketAddress} (different : other ≠ address)
    (handle : α) (entries : List (SocketAddress × α)) :
    lookup address ((other, handle) :: entries) = lookup address entries :=
  if_neg different

theorem lookup_insert_self (address : SocketAddress) (handle : α)
    (entries : List (SocketAddress × α)) :
    lookup address (insert address handle entries) = some handle := by
  induction entries with
  | nil => exact lookup_cons_self address handle []
  | cons entry rest ih =>
    rcases entry with ⟨here, present⟩
    by_cases same : address = here
    · rw [insert, if_pos same, lookup_cons_self]
    · by_cases before : address.rank < here.rank
      · rw [insert, if_neg same, if_pos before, lookup_cons_self]
      · rw [insert, if_neg same, if_neg before, lookup_cons_other (Ne.symm same), ih]

theorem lookup_insert_other {address other : SocketAddress} (different : address ≠ other)
    (handle : α) (entries : List (SocketAddress × α)) :
    lookup other (insert address handle entries) = lookup other entries := by
  induction entries with
  | nil => exact lookup_cons_other different handle []
  | cons entry rest ih =>
    rcases entry with ⟨here, present⟩
    by_cases same : address = here
    · subst same
      rw [insert, if_pos rfl, lookup_cons_other different, lookup_cons_other different]
    · by_cases before : address.rank < here.rank
      · rw [insert, if_neg same, if_pos before, lookup_cons_other different]
      · rw [insert, if_neg same, if_neg before, lookup, lookup, ih]

theorem lookup_insert (address other : SocketAddress) (handle : α)
    (entries : List (SocketAddress × α)) :
    lookup other (insert address handle entries) =
      if address = other then some handle else lookup other entries := by
  by_cases same : address = other
  · subst same
    rw [lookup_insert_self, if_pos rfl]
  · rw [lookup_insert_other same, if_neg same]

theorem lookup_erase_self (address : SocketAddress) (entries : List (SocketAddress × α)) :
    lookup address (erase address entries) = none := by
  induction entries with
  | nil => rfl
  | cons entry rest ih =>
    rcases entry with ⟨here, present⟩
    by_cases same : here = address
    · rw [erase, if_pos same, ih]
    · rw [erase, if_neg same, lookup_cons_other same, ih]

theorem lookup_erase_other {address other : SocketAddress} (different : address ≠ other)
    (entries : List (SocketAddress × α)) :
    lookup other (erase address entries) = lookup other entries := by
  induction entries with
  | nil => rfl
  | cons entry rest ih =>
    rcases entry with ⟨here, present⟩
    by_cases same : here = address
    · subst same
      rw [erase, if_pos rfl, lookup_cons_other different, ih]
    · rw [erase, if_neg same, lookup, lookup, ih]

theorem lookup_erase (address other : SocketAddress) (entries : List (SocketAddress × α)) :
    lookup other (erase address entries) =
      if address = other then none else lookup other entries := by
  by_cases same : address = other
  · subst same
    rw [lookup_erase_self, if_pos rfl]
  · rw [lookup_erase_other same, if_neg same]

theorem resolve_register (registry : Registry α) (address other : SocketAddress) (handle : α) :
    (registry.register address handle).2.resolve other =
      if address = other then some handle else registry.resolve other :=
  lookup_insert address other handle registry.entries

theorem resolve_unregister (registry : Registry α) (address other : SocketAddress) :
    (registry.unregister address).2.resolve other =
      if address = other then none else registry.resolve other :=
  lookup_erase address other registry.entries

theorem unregisterIf_of_rejects {registry : Registry α} {address : SocketAddress}
    {accepts : α → Bool}
    (rejects : ∀ handle, registry.resolve address = some handle → accepts handle = false) :
    (registry.unregisterIf address accepts).2 = registry := by
  cases found : registry.resolve address with
  | none => simp only [unregisterIf, found]
  | some handle =>
    simp only [unregisterIf, found, rejects handle found]
    rfl

theorem resolve_unregisterIf_self {registry : Registry α} {address : SocketAddress}
    {accepts : α → Bool} {handle : α} (found : registry.resolve address = some handle)
    (accepted : accepts handle = true) :
    (registry.unregisterIf address accepts).2.resolve address = none := by
  simp only [unregisterIf, found, accepted, if_true]
  exact (registry.resolve_unregister address address).trans (if_pos rfl)

theorem resolve_unregisterIf_other {address other : SocketAddress} (registry : Registry α)
    (accepts : α → Bool) (different : address ≠ other) :
    (registry.unregisterIf address accepts).2.resolve other = registry.resolve other := by
  cases found : registry.resolve address with
  | none => simp only [unregisterIf, found]
  | some handle =>
    simp only [unregisterIf, found]
    cases accepts handle with
    | false => rfl
    | true => exact (registry.resolve_unregister address other).trans (if_neg different)

end Registry

end Bridge
end FirmwareGateway
