import FirmwareGateway.Operator.Dispatch
import FirmwareGateway.Proofs.Bridge.Sharing

namespace FirmwareGateway

/-!
# Which client a number stands for

A client is chosen by its number in the list of clients, in two looks at the registry, and
between them connections may come, go and take the place of others.  The first look alone
decides which address the number stands for, the second what is there.  So whatever
happens in between, a number leads to its address or nowhere, and never to another client
that has moved up to its place in the list.
-/

namespace Bridge
namespace Registry

variable {α : Type}

/-- An address is the one with the given number, counted from one, among the addresses that
lead anywhere. -/
structure IsNth (registry : Registry α) (number : Nat) (address : SocketAddress) : Prop where
  registered : ∃ handle, registry.resolve address = some handle
  before : registry.list.countP (fun other => other.rank < address.rank) + 1 = number

/-- In an ascending list, an address has as many before it as its place says. -/
theorem countP_of_getElem? {addresses : List SocketAddress}
    (ascending : addresses.Pairwise fun first second => first.rank < second.rank) {place : Nat}
    {address : SocketAddress} (found : addresses[place]? = some address) :
    addresses.countP (fun other => other.rank < address.rank) = place := by
  induction addresses generalizing place with
  | nil => cases found
  | cons first rest ih =>
    rcases List.pairwise_cons.mp ascending with ⟨above, others⟩
    cases place with
    | zero =>
      have same : first = address := Option.some.inj found
      subst same
      have none : rest.countP (fun other => other.rank < first.rank) = 0 := by
        apply List.countP_eq_zero.mpr
        intro other member below
        exact Nat.lt_asymm (above other member) (of_decide_eq_true below)
      have here : decide (first.rank < first.rank) = false := decide_eq_false (Nat.lt_irrefl _)
      rw [List.countP_cons, none, here]
      rfl
    | succ place =>
      have behind : rest[place]? = some address := found
      have below : decide (first.rank < address.rank) = true :=
        decide_eq_true (above address (List.mem_of_getElem? behind))
      rw [List.countP_cons, ih others behind, below]
      rfl

theorem isNth_iff {registry : Registry α} (listed : registry.Listed) {number : Nat}
    {address : SocketAddress} :
    registry.IsNth number address ↔
      ∃ place, number = place + 1 ∧ registry.list[place]? = some address := by
  constructor
  · rintro ⟨registered, before⟩
    rcases List.mem_iff_getElem?.mp ((listed.mem_iff address).mpr registered) with ⟨place, found⟩
    rw [countP_of_getElem? listed.ascending found] at before
    exact ⟨place, before.symm, found⟩
  · rintro ⟨place, rfl, found⟩
    refine ⟨(listed.mem_iff address).mp (List.mem_of_getElem? found), ?_⟩
    rw [countP_of_getElem? listed.ascending found]

theorem IsNth.unique {registry : Registry α} (listed : registry.Listed) {number : Nat}
    {address other : SocketAddress} (first : registry.IsNth number address)
    (second : registry.IsNth number other) : other = address := by
  rcases (isNth_iff listed).mp first with ⟨place, rfl, found⟩
  rcases (isNth_iff listed).mp second with ⟨also, same, there⟩
  cases same
  exact Option.some.inj (there.symm.trans found)

/-! ## Handles at their own address -/

/-- Every handle that some calls register is registered at its own address. -/
def Own (calls : List (Call Handle)) : Prop :=
  ∀ address handle, .register address handle ∈ calls → handle.address = address

/-- In a registry every handle is at its own address. -/
def AtHome (registry : Registry Handle) : Prop :=
  ∀ address handle, registry.resolve address = some handle → handle.address = address

theorem AtHome.call {registry : Registry Handle} (atHome : registry.AtHome) {call : Call Handle}
    (own : Own [call]) : (registry.call call).2.AtHome := by
  intro address handle found
  rw [resolve_call, Call.behind] at found
  by_cases same : call.address = address
  · rw [if_pos same] at found
    by_cases changes : call.changes (registry.resolve address) = true
    · rw [if_pos changes] at found
      cases call with
      | register _ _ =>
        cases found
        exact own address handle (same ▸ List.mem_cons_self)
      | _ => cases found
    · rw [if_neg changes] at found
      exact atHome address handle found
  · rw [if_neg same] at found
    exact atHome address handle found

theorem AtHome.calls {registry : Registry Handle} (atHome : registry.AtHome)
    {calls : List (Call Handle)} (own : Own calls) : (registry.calls calls).2.AtHome := by
  induction calls generalizing registry with
  | nil => exact atHome
  | cons call calls ih =>
    have first : Own [call] := by
      intro address handle member
      exact own address handle (List.mem_singleton.mp member ▸ List.mem_cons_self)
    apply ih (atHome.call first)
    intro address handle member
    exact own address handle (List.mem_cons_of_mem call member)

theorem atHome_after {calls : List (Call Handle)} (own : Own calls) : (after calls).AtHome := by
  have none : (empty : Registry Handle).AtHome := nofun
  exact none.calls own

end Registry
end Bridge

namespace Operator

open Bridge (Handle Registry)

section
variable {snapshot : List SocketAddress} {registry : Registry Handle} {client : UInt64}
  {address : SocketAddress}

theorem addressAt_eq_some_iff :
    addressAt snapshot client = some address ↔
      ∃ place, client.toNat = place + 1 ∧ snapshot[place]? = some address := by
  cases number : client.toNat with
  | zero =>
    simp only [addressAt, number]
    exact ⟨nofun, fun ⟨_, same, _⟩ => nomatch same⟩
  | succ place =>
    simp only [addressAt, number]
    constructor
    · exact fun found => ⟨place, rfl, found⟩
    · rintro ⟨_, same, found⟩
      cases same
      exact found

theorem addressAt_eq_none_iff :
    addressAt snapshot client = none ↔ client = 0 ∨ snapshot.length < client.toNat := by
  have zero_iff : client = 0 ↔ client.toNat = 0 := UInt64.toNat_inj.symm
  rw [zero_iff]
  cases number : client.toNat with
  | zero =>
    have nowhere : addressAt snapshot client = none := by simp only [addressAt, number]
    exact iff_of_true nowhere (Or.inl rfl)
  | succ place =>
    simp only [addressAt, number, List.getElem?_eq_none_iff]
    omega

theorem select_of_none (none : addressAt snapshot client = none) :
    select snapshot registry client = .error (.clientIndex client) := by
  simp only [select, none]

theorem select_of_some (found : addressAt snapshot client = some address) :
    select snapshot registry client =
      match registry.resolve address with
      | none => .error (.unknownClient address)
      | some handle => .ok handle := by
  cases there : registry.resolve address <;> simp only [select, found, there]

theorem select_eq_clientIndex_iff :
    select snapshot registry client = .error (.clientIndex client) ↔
      client = 0 ∨ snapshot.length < client.toNat := by
  rw [← addressAt_eq_none_iff]
  constructor
  · intro refused
    cases found : addressAt snapshot client with
    | none => rfl
    | some address =>
      rw [select_of_some found] at refused
      cases there : registry.resolve address with
      | none =>
        rw [there] at refused
        cases refused
      | some handle =>
        rw [there] at refused
        cases refused
  · exact select_of_none

/-! ## In the list of clients -/

/-- The list of clients shows a client with its number. -/
theorem lines_of_clients {addresses : List SocketAddress} {place : Nat}
    (found : addresses[place]? = some address) :
    (Output.clients addresses).lines[place]? = some s!"{place + 1}: {address.text}" := by
  cases addresses with
  | nil => cases found
  | cons first rest =>
    rw [Output.lines, List.getElem?_map, List.getElem?_zipIdx, found]
    · simp only [Option.map_some, Nat.zero_add]
    · exact nofun

/-- What a number stands for: one address, the list of clients shows it with the number, and
the handle is the one that is there when it is looked up. -/
structure Selects (shown now : Registry Handle) (client : UInt64) (address : SocketAddress) :
    Prop where
  nth : shown.IsNth client.toNat address
  only : ∀ other, shown.IsNth client.toNat other → other = address
  listed : ∀ files registry, ∃ addresses,
    plan files shown.list registry .list = .ok (.clients addresses) ∧
    addresses[client.toNat - 1]? = some address ∧
    (Output.clients addresses).lines[client.toNat - 1]? =
      some s!"{client.toNat}: {address.text}"
  found : ∀ handle, select shown.list now client = .ok handle ↔ now.resolve address = some handle
  gone : select shown.list now client = .error (.unknownClient address) ↔
    now.resolve address = none

theorem selects_of_place {shown now : Registry Handle} (listed : shown.Listed) {place : Nat}
    (number : client.toNat = place + 1) (shows : shown.list[place]? = some address) :
    Selects shown now client address := by
  have nth : shown.IsNth client.toNat address :=
    (Registry.isNth_iff listed).mpr ⟨place, number, shows⟩
  have chosen : select shown.list now client = _ :=
    select_of_some (addressAt_eq_some_iff.mpr ⟨place, number, shows⟩)
  have index : client.toNat - 1 = place := by omega
  constructor
  case nth => exact nth
  case only => exact fun other also => nth.unique listed also
  case listed =>
    intro files registry
    refine ⟨shown.list, rfl, ?_⟩
    rw [index, number]
    exact ⟨shows, lines_of_clients shows⟩
  case found =>
    intro handle
    rw [chosen]
    cases now.resolve address <;> simp
  case gone =>
    rw [chosen]
    cases now.resolve address <;> simp

/-- A number stands for no client if it is zero or beyond the list.  Otherwise it stands for
one address, and whatever happens between the two looks at the registry, it selects the
handle that is there at the second look, or nothing if there is none any more.  If nothing
happens in between there is one.  And if handles are registered at their own addresses, the
handle that is selected is one of that address. -/
theorem select_by_number (past between : List (Registry.Call Handle)) (client : UInt64) :
    let shown := Registry.after past
    let now := Registry.after (past ++ between)
    (select shown.list now client = .error (.clientIndex client) ↔
      client = 0 ∨ shown.size < client.toNat) ∧
    (client ≠ 0 → client.toNat ≤ shown.size → ∃ address, Selects shown now client address ∧
      (between = [] → ∃ handle, select shown.list now client = .ok handle) ∧
      (Registry.Own (past ++ between) → ∀ handle,
        select shown.list now client = .ok handle → handle.address = address)) := by
  have listed := Registry.listed_of_ordered (Registry.ordered_after past)
  refine ⟨?_, ?_⟩
  · rw [listed.size]
    exact select_eq_clientIndex_iff
  · intro positive within
    have some : addressAt (Registry.after past).list client ≠ none := by
      intro none
      rcases addressAt_eq_none_iff.mp none with zero | beyond
      · exact positive zero
      · rw [← listed.size] at beyond
        exact absurd within (Nat.not_le.mpr beyond)
    rcases Option.ne_none_iff_exists'.mp some with ⟨address, found⟩
    rcases addressAt_eq_some_iff.mp found with ⟨place, number, shows⟩
    have selects : ∀ now, Selects (Registry.after past) now client address :=
      fun now => selects_of_place listed number shows
    refine ⟨address, selects _, ?_, ?_⟩
    · rintro rfl
      rw [List.append_nil]
      rcases (selects (Registry.after past)).nth.registered with ⟨handle, registered⟩
      exact ⟨handle, ((selects _).found handle).mpr registered⟩
    · intro own handle selected
      exact Registry.atHome_after own address handle (((selects _).found handle).mp selected)

/-- Two clients; then the first goes, and another connection takes the place of the
second, which is now the only one in the list. -/
theorem select_by_number_moved_up :
    let past : List (Registry.Call Handle) :=
      [.register (.v4 10 1) ⟨1, .v4 10 1, 0⟩, .register (.v4 10 2) ⟨2, .v4 10 2, 1⟩]
    let between : List (Registry.Call Handle) :=
      [.unregister (.v4 10 1), .register (.v4 10 2) ⟨3, .v4 10 2, 2⟩]
    let chosen := select (Registry.after past).list (Registry.after (past ++ between))
    chosen 1 = .error (.unknownClient (.v4 10 1)) ∧ chosen 2 = .ok ⟨3, .v4 10 2, 2⟩ ∧
      chosen 3 = .error (.clientIndex 3) := by
  intro past between chosen
  have first : (Registry.after past).IsNth 1 (.v4 10 1) := ⟨⟨_, rfl⟩, by decide⟩
  have second : (Registry.after past).IsNth 2 (.v4 10 2) := ⟨⟨_, rfl⟩, by decide⟩
  refine ⟨?_, ?_, ?_⟩
  · rcases (select_by_number past between 1).2 (by decide) (by decide) with ⟨address, selects, -⟩
    cases selects.only _ first
    exact selects.gone.mpr rfl
  · rcases (select_by_number past between 2).2 (by decide) (by decide) with ⟨address, selects, -⟩
    cases selects.only _ second
    exact (selects.found _).mpr rfl
  · exact (select_by_number past between 3).1.mpr (Or.inr (by decide))

end

end Operator
end FirmwareGateway
