import FirmwareGateway.Bridge.Registry

namespace FirmwareGateway
namespace Bridge
namespace Registry

/-!
# The order of a registry

Entries are kept in the order of their addresses, and every call keeps them so.  Then
an address has at most one entry, looking it up finds that entry, and a registry is
determined by what its addresses lead to.
-/

variable {α : Type}

/-- Entries whose addresses ascend. -/
def Ordered (entries : List (SocketAddress × α)) : Prop :=
  entries.Pairwise fun first second => first.1.rank < second.1.rank

/-! ## Changes keep the order -/

section
variable {address : SocketAddress} {handle : α} {entries : List (SocketAddress × α)}

theorem mem_insert {entry : SocketAddress × α} (member : entry ∈ insert address handle entries) :
    entry = (address, handle) ∨ entry ∈ entries := by
  induction entries with
  | nil => exact Or.inl (List.mem_singleton.mp member)
  | cons first rest ih =>
    rcases first with ⟨other, present⟩
    by_cases same : address = other
    · rw [insert, if_pos same] at member
      exact (List.mem_cons.mp member).imp_right (List.mem_cons_of_mem _)
    · by_cases below : address.rank < other.rank
      · rw [insert, if_neg same, if_pos below] at member
        exact List.mem_cons.mp member
      · rw [insert, if_neg same, if_neg below] at member
        rcases List.mem_cons.mp member with here | behind
        · exact Or.inr (here ▸ List.mem_cons_self)
        · exact (ih behind).imp_right (List.mem_cons_of_mem _)

theorem ordered_insert (ordered : Ordered entries) : Ordered (insert address handle entries) := by
  induction entries with
  | nil => exact List.pairwise_singleton _ _
  | cons first rest ih =>
    rcases first with ⟨other, present⟩
    rcases List.pairwise_cons.mp ordered with ⟨above, others⟩
    by_cases same : address = other
    · subst same
      rw [insert, if_pos rfl]
      exact List.pairwise_cons.mpr ⟨above, others⟩
    · by_cases below : address.rank < other.rank
      · rw [insert, if_neg same, if_pos below]
        refine List.pairwise_cons.mpr ⟨?_, ordered⟩
        intro entry member
        rcases List.mem_cons.mp member with rfl | behind
        · exact below
        · exact Nat.lt_trans below (above entry behind)
      · rw [insert, if_neg same, if_neg below]
        refine List.pairwise_cons.mpr ⟨?_, ih others⟩
        intro entry member
        rcases mem_insert member with rfl | behind
        · have apart : other.rank ≠ address.rank :=
            fun equal => same (SocketAddress.rank_injective equal).symm
          exact Nat.lt_of_le_of_ne (Nat.not_lt.mp below) apart
        · exact above entry behind

theorem erase_sublist (address : SocketAddress) (entries : List (SocketAddress × α)) :
    (erase address entries).Sublist entries := by
  induction entries with
  | nil => exact .slnil
  | cons first rest ih =>
    rcases first with ⟨other, present⟩
    by_cases same : other = address
    · rw [erase, if_pos same]
      exact ih.cons _
    · rw [erase, if_neg same]
      exact ih.cons_cons _

theorem ordered_erase (ordered : Ordered entries) : Ordered (erase address entries) :=
  ordered.sublist (erase_sublist address entries)

end

theorem ordered_call {registry : Registry α} (ordered : Ordered registry.entries) (call : Call α) :
    Ordered (registry.call call).2.entries := by
  cases call with
  | register address handle => exact ordered_insert ordered
  | unregister address => exact ordered_erase ordered
  | unregisterIf address accepts =>
    rw [Registry.call, unregisterIf]
    cases registry.resolve address with
    | none => exact ordered
    | some handle =>
      cases accepted : accepts handle with
      | true =>
        simp only [accepted, if_true]
        exact ordered_erase ordered
      | false =>
        simp only [accepted, Bool.false_eq_true, if_false]
        exact ordered
  | resolve address => exact ordered

theorem ordered_calls {registry : Registry α} (ordered : Ordered registry.entries)
    (calls : List (Call α)) : Ordered (registry.calls calls).2.entries := by
  induction calls generalizing registry with
  | nil => exact ordered
  | cons call calls ih => exact ih (ordered_call ordered call)

/-! ## What an address leads to -/

theorem lookup_eq_some_iff {entries : List (SocketAddress × α)} (ordered : Ordered entries)
    {address : SocketAddress} {handle : α} :
    lookup address entries = some handle ↔ (address, handle) ∈ entries := by
  induction entries with
  | nil => simp [lookup]
  | cons first rest ih =>
    rcases first with ⟨other, present⟩
    rcases List.pairwise_cons.mp ordered with ⟨above, others⟩
    by_cases same : other = address
    · subst same
      rw [lookup_cons_self]
      constructor
      · intro found
        exact Option.some.inj found ▸ List.mem_cons_self
      · intro member
        rcases List.mem_cons.mp member with here | behind
        · exact congrArg some (Prod.mk.inj here).2.symm
        · exact absurd (above _ behind) (Nat.lt_irrefl _)
    · rw [lookup_cons_other same, ih others, List.mem_cons]
      exact (or_iff_right fun here => same (Prod.mk.inj here).1.symm).symm

/-- What the addresses lead to is all that a registry in order holds. -/
theorem eq_of_resolve_eq {registry other : Registry α} (ordered : Ordered registry.entries)
    (also : Ordered other.entries)
    (same : ∀ address, registry.resolve address = other.resolve address) : registry = other := by
  have distinct : ∀ {entries : List (SocketAddress × α)}, Ordered entries → entries.Nodup := by
    intro entries ascending
    apply ascending.imp
    rintro first second below rfl
    exact Nat.lt_irrefl _ below
  have members : ∀ entry, entry ∈ registry.entries ↔ entry ∈ other.entries := by
    rintro ⟨address, handle⟩
    have found : lookup address registry.entries = lookup address other.entries := same address
    rw [← lookup_eq_some_iff ordered, ← lookup_eq_some_iff also, found]
  have permuted := (List.perm_ext_iff_of_nodup (distinct ordered) (distinct also)).mpr members
  have entries : registry.entries = other.entries := by
    apply permuted.eq_of_pairwise _ ordered also
    intro first second _ _ below above
    exact absurd below (Nat.lt_asymm above)
  cases registry
  cases other
  cases entries
  rfl

/-! ## The list of addresses -/

/-- The list of a registry holds the addresses that lead anywhere, each once and in
order, and its length is the size of the registry. -/
structure Listed (registry : Registry α) : Prop where
  ascending : registry.list.Pairwise fun first second => first.rank < second.rank
  mem_iff : ∀ address, address ∈ registry.list ↔ ∃ handle, registry.resolve address = some handle
  size : registry.size = registry.list.length
  isEmpty : registry.isEmpty = true ↔ registry.list = []

theorem listed_of_ordered {registry : Registry α} (ordered : Ordered registry.entries) :
    registry.Listed where
  ascending := List.pairwise_map.mpr ordered
  mem_iff := by
    intro address
    constructor
    · intro member
      rcases List.mem_map.mp member with ⟨⟨_, handle⟩, entry, rfl⟩
      exact ⟨handle, (lookup_eq_some_iff ordered).mpr entry⟩
    · rintro ⟨handle, found⟩
      exact List.mem_map_of_mem ((lookup_eq_some_iff ordered).mp found)
  size := (List.length_map Prod.fst).symm
  isEmpty := by rw [isEmpty, List.isEmpty_iff, list, List.map_eq_nil_iff]

end Registry

end Bridge
end FirmwareGateway
