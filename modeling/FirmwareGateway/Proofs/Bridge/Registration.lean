import FirmwareGateway.Proofs.Bridge.Steps

namespace FirmwareGateway
namespace Bridge

/-!
# The registration of the newest connection

Connections come and go in any order, and several of them may have the same address.
What the registry holds at an address is the newest connection there, for as long as
that connection lives.  An older one that ends takes nothing away, because its number
is not the one it finds.

The invariant is `Current`.  Accepting a connection makes it the newest at its address
and leaves the others alone; an event changes one connection and at most its own entry.
-/

/-! ## What happens on a floor -/

/-- A connection is accepted, or something happens to the one at a place. -/
inductive Happening
  | accepted (id : Nat) (address : SocketAddress) (queueDepth bufferSize : Nat)
      (sink : Relay.Sink)
  | occurred (place : Nat) (event : Event)

namespace Floor

/-- The floor after something happened. -/
def happen (floor : Floor) : Happening → Floor
  | .accepted id address queueDepth bufferSize sink =>
    floor.accept { Connection.opened id address queueDepth bufferSize with sink := sink }
  | .occurred place event => (floor.step place event).1

/-- The floor after some things happened. -/
def after (happenings : List Happening) : Floor :=
  happenings.foldl happen empty

/-- The number and the address of every connection that was accepted. -/
def arrivals (happenings : List Happening) : List (Nat × SocketAddress) :=
  happenings.filterMap fun
    | .accepted id address _ _ _ => some (id, address)
    | .occurred _ _ => none

/-- The number and the address of every connection on a floor. -/
def identities (floor : Floor) : List (Nat × SocketAddress) :=
  floor.connections.map fun connection => (connection.id, connection.address)

/-- The connection at a place is the last that was accepted at its address. -/
def IsNewest (floor : Floor) (place : Nat) (connection : Connection) : Prop :=
  floor.connections[place]? = some connection ∧
    ∀ later other, place < later → floor.connections[later]? = some other →
      other.address ≠ connection.address

/-- The registry holds the newest connection at each address, if it has not ended. -/
structure Current (floor : Floor) : Prop where
  newest : ∀ place connection, floor.IsNewest place connection →
    floor.registry.resolve connection.address =
      if connection.phase = .ended then none
      else some ⟨connection.id, connection.address, place⟩
  absent : ∀ address, (∀ connection ∈ floor.connections, connection.address ≠ address) →
    floor.registry.resolve address = none

variable {floor : Floor}

/-- Some connection at an address is the newest there. -/
theorem exists_newest {connections : List Connection} {address : SocketAddress}
    (member : ∃ connection ∈ connections, connection.address = address) :
    ∃ (place : Nat) (connection : Connection), connections[place]? = some connection ∧
      connection.address = address ∧
      ∀ (later : Nat) (other : Connection), place < later → connections[later]? = some other →
        other.address ≠ address := by
  induction connections with
  | nil =>
    rcases member with ⟨connection, none, -⟩
    cases none
  | cons first rest ih =>
    by_cases behind : ∃ connection ∈ rest, connection.address = address
    · rcases ih behind with ⟨place, connection, found, same, newest⟩
      refine ⟨place + 1, connection, found, same, ?_⟩
      intro later other after present
      cases later with
      | zero => exact absurd after (Nat.not_lt_zero _)
      | succ later => exact newest later other (Nat.lt_of_succ_lt_succ after) present
    · rcases member with ⟨connection, place, same⟩
      rcases List.mem_cons.mp place with rfl | inside
      · refine ⟨0, connection, rfl, same, ?_⟩
        intro later other after present
        cases later with
        | zero => exact absurd after (Nat.lt_irrefl 0)
        | succ later =>
          intro again
          exact behind ⟨other, List.mem_of_getElem? present, again⟩
      · exact absurd ⟨connection, inside, same⟩ behind

/-- What the registry holds at an address, newest connection or none. -/
theorem Current.resolve (current : floor.Current) (address : SocketAddress) :
    (∃ place connection, floor.IsNewest place connection ∧ connection.address = address ∧
      floor.registry.resolve address =
        if connection.phase = .ended then none else some ⟨connection.id, address, place⟩) ∨
    (∀ connection ∈ floor.connections, connection.address ≠ address) ∧
      floor.registry.resolve address = none := by
  by_cases member : ∃ connection ∈ floor.connections, connection.address = address
  · rcases exists_newest member with ⟨place, connection, found, rfl, newest⟩
    left
    exact ⟨place, connection, ⟨found, newest⟩, rfl, current.newest place connection ⟨found, newest⟩⟩
  · right
    have nowhere : ∀ connection ∈ floor.connections, connection.address ≠ address := by
      intro connection present same
      exact member ⟨connection, present, same⟩
    exact ⟨nowhere, current.absent address nowhere⟩

/-! ## Accepting a connection -/

theorem Current.accept (current : floor.Current) {connection : Connection}
    (alive : connection.phase ≠ .ended) : (floor.accept connection).Current := by
  constructor
  case newest =>
    intro place newer newest
    rw [Floor.accept, Registry.resolve_register]
    rcases newest with ⟨found, last⟩
    rw [Floor.accept] at found last
    rcases Nat.lt_trichotomy place floor.connections.length with inside | rfl | outside
    · have here : floor.connections[place]? = some newer := by
        rw [← found]
        exact (List.getElem?_append_left inside).symm
      have different : connection.address ≠ newer.address :=
        last floor.connections.length connection inside (List.getElem?_concat_length)
      rw [if_neg different]
      apply current.newest place newer
      refine ⟨here, ?_⟩
      intro later other after present
      apply last later other after
      rw [← present]
      exact List.getElem?_append_left (List.getElem?_eq_some_iff.mp present).1
    · cases List.getElem?_concat_length.symm.trans found
      rw [if_pos rfl, if_neg alive]
    · have none : (floor.connections ++ [connection])[place]? = none := by
        rw [List.getElem?_eq_none_iff, List.length_append]
        exact outside
      cases none.symm.trans found
  case absent =>
    intro address nowhere
    rw [Floor.accept] at nowhere ⊢
    rw [Registry.resolve_register,
      if_neg (nowhere connection (List.mem_append_right _ List.mem_cons_self))]
    apply current.absent
    intro other present
    exact nowhere other (List.mem_append_left _ present)

/-! ## What happens to one connection -/

section
variable {place : Nat} {connection : Connection}
  (found : floor.connections[place]? = some connection)
include found

theorem step_eq (event : Event) :
    (floor.step place event).1 =
      ⟨deregister floor.registry connection (connection.step event).2,
        floor.connections.set place (connection.step event).1⟩ := by
  simp only [step, found]

theorem next_found (event : Event) :
    (floor.step place event).1.connections[place]? = some (connection.step event).1 := by
  rw [step_eq found, List.getElem?_set_self]
  exact (List.getElem?_eq_some_iff.mp found).1

theorem other_found (event : Event) {other : Nat} (different : place ≠ other) :
    (floor.step place event).1.connections[other]? = floor.connections[other]? := by
  rw [step_eq found, List.getElem?_set_ne different]

end

theorem identities_step (floor : Floor) (place : Nat) (event : Event) :
    (floor.step place event).1.identities = floor.identities := by
  cases found : floor.connections[place]? with
  | none => rw [step, found]
  | some connection =>
    apply List.ext_getElem?
    intro other
    rw [identities, identities, List.getElem?_map, List.getElem?_map]
    by_cases same : place = other
    · subst same
      rw [next_found found, found]
      have kept := connection.identity_step event
      exact congrArg some (Prod.ext kept.1 kept.2)
    · rw [other_found found event same]

/-- Floors with the same connections by number and address have their newest ones at
the same places. -/
theorem IsNewest.transfer {floor other : Floor} (same : other.identities = floor.identities)
    {place : Nat} {connection next : Connection} (newest : floor.IsNewest place connection)
    (found : other.connections[place]? = some next) : other.IsNewest place next := by
  have address : ∀ {place : Nat} {before after : Connection},
      floor.connections[place]? = some before → other.connections[place]? = some after →
      after.address = before.address := by
    intro place before after first second
    have here := congrArg (fun identities => identities[place]?) same
    simp only [identities, List.getElem?_map, first, second, Option.map_some,
      Option.some.injEq, Prod.mk.injEq] at here
    exact here.2
  refine ⟨found, ?_⟩
  intro later after behind present
  have length : other.connections.length = floor.connections.length := by
    have lengths := congrArg List.length same
    rwa [identities, identities, List.length_map, List.length_map] at lengths
  have inside : later < floor.connections.length :=
    length ▸ (List.getElem?_eq_some_iff.mp present).1
  have before := List.getElem?_eq_getElem inside
  rw [address before present, address newest.1 found]
  exact newest.2 later _ behind before

/-- Connections at different places have different numbers. -/
theorem id_ne {floor : Floor} (distinct : (floor.identities.map Prod.fst).Nodup)
    {place other : Nat} {connection rival : Connection}
    (found : floor.connections[place]? = some connection)
    (second : floor.connections[other]? = some rival) (different : place ≠ other) :
    rival.id ≠ connection.id := by
  intro same
  apply different
  have inside : place < (floor.identities.map Prod.fst).length := by
    rw [identities, List.length_map, List.length_map]
    exact (List.getElem?_eq_some_iff.mp found).1
  apply (List.getElem?_inj inside distinct).mp
  simp only [identities, List.getElem?_map, found, second, Option.map_some, same]

/-! ## What leaving takes away -/

section
variable {registry : Registry Handle} {connection : Connection} {effects : List Effect}

theorem deregister_of_stays (stays : .left ∉ effects) :
    deregister registry connection effects = registry := by
  have still : effects.contains .left = false := by
    rw [List.contains_eq_mem]
    exact decide_eq_false stays
  rw [deregister, still]
  rfl

theorem deregister_of_left (left : .left ∈ effects) :
    deregister registry connection effects =
      (registry.unregisterIf connection.address fun handle => handle.id == connection.id).2 := by
  have gone : effects.contains .left = true := by
    rw [List.contains_eq_mem]
    exact decide_eq_true left
  rw [deregister, if_pos gone]

theorem resolve_deregister_other {address : SocketAddress}
    (different : connection.address ≠ address) :
    (deregister registry connection effects).resolve address = registry.resolve address := by
  by_cases left : .left ∈ effects
  · rw [deregister_of_left left]
    exact Registry.resolve_unregisterIf_other registry _ different
  · rw [deregister_of_stays left]

theorem deregister_of_replaced
    (replaced : ∀ handle, registry.resolve connection.address = some handle →
      handle.id ≠ connection.id) :
    deregister registry connection effects = registry := by
  by_cases left : .left ∈ effects
  · rw [deregister_of_left left]
    apply Registry.unregisterIf_of_rejects
    intro handle found
    exact beq_false_of_ne (replaced handle found)
  · exact deregister_of_stays left

theorem resolve_deregister_self {handle : Handle}
    (found : registry.resolve connection.address = some handle)
    (own : handle.id = connection.id) (left : .left ∈ effects) :
    (deregister registry connection effects).resolve connection.address = none := by
  rw [deregister_of_left left]
  apply Registry.resolve_unregisterIf_self found
  rw [own]
  exact beq_self_eq_true _

end

/-! ## What happens to one connection -/

section
variable {floor : Floor} {place : Nat} {connection : Connection}

/-- The newest connection at its address keeps its entry until it ends. -/
theorem Current.resolve_own (current : floor.Current) (newest : floor.IsNewest place connection)
    (event : Event) :
    (deregister floor.registry connection (connection.step event).2).resolve connection.address =
      if (connection.step event).1.phase = .ended then none
      else some ⟨connection.id, connection.address, place⟩ := by
  have own := current.newest place connection newest
  by_cases gone : connection.phase = .ended
  · rcases Connection.step_of_ended gone event with ⟨-, -, still, stays⟩
    rw [deregister_of_stays stays, if_pos still, own, if_pos gone]
  · have persists := Connection.persists_step gone event
    rw [if_neg gone] at own
    by_cases left : .left ∈ (connection.step event).2
    · rw [if_pos (persists.left.mp left), resolve_deregister_self own rfl left]
    · rw [if_neg fun ended => left (persists.left.mpr ended), deregister_of_stays left, own]

/-- The newest connection at an address keeps its entry whatever happens to another. -/
theorem Current.resolve_rival (current : floor.Current)
    (distinct : (floor.identities.map Prod.fst).Nodup)
    (found : floor.connections[place]? = some connection) {other : Nat} {rival : Connection}
    (newest : floor.IsNewest other rival) (different : place ≠ other) (effects : List Effect) :
    (deregister floor.registry connection effects).resolve rival.address =
      floor.registry.resolve rival.address := by
  by_cases same : connection.address = rival.address
  · have replaced : ∀ handle, floor.registry.resolve connection.address = some handle →
        handle.id ≠ connection.id := by
      intro handle holds
      rw [same, current.newest other rival newest] at holds
      cases (Option.ite_none_left_eq_some.mp holds).2
      exact id_ne distinct found newest.1 different
    rw [deregister_of_replaced replaced]
  · exact resolve_deregister_other same

end

theorem Current.step {floor : Floor} (current : floor.Current)
    (distinct : (floor.identities.map Prod.fst).Nodup) (place : Nat) (event : Event) :
    (floor.step place event).1.Current := by
  have same := floor.identities_step place event
  cases found : floor.connections[place]? with
  | none =>
    have still : (floor.step place event).1 = floor := by
      rw [Floor.step, found]
    exact still.symm ▸ current
  | some connection =>
    have kept := connection.identity_step event
    constructor
    case newest =>
      intro other next newest
      by_cases here : place = other
      · subst here
        have own := newest.transfer same.symm found
        cases (next_found found event).symm.trans newest.1
        have entry := current.resolve_own own event
        rw [step_eq found, kept.1, kept.2]
        exact entry
      · have there : floor.connections[other]? = some next :=
          (other_found found event here).symm.trans newest.1
        have before := newest.transfer same.symm there
        rw [step_eq found, current.resolve_rival distinct found before here]
        exact current.newest other next before
    case absent =>
      intro address nowhere
      have different : connection.address ≠ address := by
        rw [← kept.2]
        exact nowhere _ (List.mem_of_getElem? (next_found found event))
      rw [step_eq found, resolve_deregister_other different]
      apply current.absent
      intro other member again
      have listed : (other.id, other.address) ∈ (floor.step place event).1.identities := by
        rw [same]
        exact List.mem_map_of_mem member
      rcases List.mem_map.mp listed with ⟨present, there, equal⟩
      cases Prod.mk.inj equal with
      | intro _ addresses => exact nowhere present there (addresses.trans again)

section
variable {floor : Floor} {place : Nat} {connection : Connection}

/-- A connection that ends takes its entry with it. -/
theorem Current.takes_own (current : floor.Current)
    (distinct : (floor.identities.map Prod.fst).Nodup)
    (found : floor.connections[place]? = some connection) (event : Event)
    (ended : (connection.step event).1.phase = .ended) {handle : Handle}
    (holds : (floor.step place event).1.registry.resolve connection.address = some handle) :
    handle.id ≠ connection.id := by
  have entries := current.step distinct place event
  rcases entries.resolve connection.address with ⟨other, newer, newest, -, entry⟩ | ⟨-, nothing⟩
  · by_cases here : place = other
    · subst here
      cases (next_found found event).symm.trans newest.1
      rw [holds, if_pos ended] at entry
      cases entry
    · cases (Option.ite_none_left_eq_some.mp (entry.symm.trans holds)).2
      exact id_ne distinct found ((other_found found event here).symm.trans newest.1) here
  · cases nothing.symm.trans holds

/-- An event takes nothing away unless it ends the newest connection at an address. -/
theorem Current.spares_others (current : floor.Current)
    (distinct : (floor.identities.map Prod.fst).Nodup)
    (found : floor.connections[place]? = some connection) (event : Event)
    {address : SocketAddress}
    (untouched : address = connection.address → floor.IsNewest place connection →
      (connection.step event).1.phase ≠ .ended) :
    (floor.step place event).1.registry.resolve address = floor.registry.resolve address := by
  rw [step_eq found]
  rcases current.resolve address with ⟨other, newer, newest, rfl, entry⟩ | ⟨nowhere, -⟩
  · by_cases here : place = other
    · subst here
      cases found.symm.trans newest.1
      have alive := untouched rfl newest
      have before : connection.phase ≠ .ended := by
        intro gone
        exact alive (Connection.step_of_ended gone event).2.2.1
      rw [current.resolve_own newest, if_neg alive, entry, if_neg before]
    · exact current.resolve_rival distinct found newest here _
  · exact resolve_deregister_other (nowhere connection (List.mem_of_getElem? found))

end

/-! ## Whatever happens -/

theorem identities_happenings (floor : Floor) (happenings : List Happening) :
    (happenings.foldl happen floor).identities = floor.identities ++ arrivals happenings := by
  induction happenings generalizing floor with
  | nil => exact (List.append_nil _).symm
  | cons happening later ih =>
    rw [List.foldl_cons, ih]
    cases happening with
    | accepted id address queueDepth bufferSize sink =>
      have accepted : (floor.happen (.accepted id address queueDepth bufferSize sink)).identities =
          floor.identities ++ [(id, address)] := List.map_append
      rw [accepted, List.append_assoc]
      rfl
    | occurred place event =>
      rw [happen, identities_step]
      rfl

theorem identities_after (happenings : List Happening) :
    (after happenings).identities = arrivals happenings :=
  identities_happenings empty happenings

theorem current_empty : empty.Current := by
  constructor
  case newest =>
    intro place connection newest
    cases newest.1
  case absent => exact fun _ _ => rfl

theorem current_happenings {floor : Floor} (current : floor.Current)
    {happenings : List Happening}
    (distinct : ((floor.identities ++ arrivals happenings).map Prod.fst).Nodup) :
    (happenings.foldl happen floor).Current := by
  induction happenings generalizing floor with
  | nil => exact current
  | cons happening later ih =>
    have here : (floor.identities.map Prod.fst).Nodup := by
      rw [List.map_append] at distinct
      exact (List.nodup_append.mp distinct).1
    have next : (floor.happen happening).identities ++ arrivals later =
        floor.identities ++ arrivals (happening :: later) := by
      have once := floor.identities_happenings [happening]
      rw [List.foldl_cons, List.foldl_nil] at once
      rw [once, List.append_assoc]
      cases happening <;> rfl
    rw [List.foldl_cons]
    apply ih _ (next ▸ distinct)
    cases happening with
    | accepted id address queueDepth bufferSize sink => exact current.accept nofun
    | occurred place event => exact current.step here place event

theorem current_after {happenings : List Happening}
    (distinct : ((arrivals happenings).map Prod.fst).Nodup) : (after happenings).Current :=
  current_happenings current_empty distinct

/-- Registration follows the newest connection.  Whatever happened, an address leads to
the newest connection there unless that has ended, and nowhere if none was accepted.  A
connection that ends leaves no entry of its own behind, and it takes none away unless it
is the newest at its address. -/
theorem registry_follows_newest (happenings : List Happening)
    (distinct : ((arrivals happenings).map Prod.fst).Nodup) :
    (after happenings).identities = arrivals happenings ∧
    (∀ address,
      (∃ place connection, (after happenings).IsNewest place connection ∧
        connection.address = address ∧
        (after happenings).registry.resolve address =
          if connection.phase = .ended then none else some ⟨connection.id, address, place⟩) ∨
      (∀ arrival ∈ arrivals happenings, arrival.2 ≠ address) ∧
        (after happenings).registry.resolve address = none) ∧
    (∀ place event connection, (after happenings).connections[place]? = some connection →
      ((connection.step event).1.phase = .ended →
        ∀ handle, ((after happenings).step place event).1.registry.resolve connection.address =
          some handle → handle.id ≠ connection.id) ∧
      ∀ address, (address = connection.address → (after happenings).IsNewest place connection →
          (connection.step event).1.phase ≠ .ended) →
        ((after happenings).step place event).1.registry.resolve address =
          (after happenings).registry.resolve address) := by
  have current := current_after distinct
  have listed := identities_after happenings
  rw [← listed] at distinct
  refine ⟨listed, ?_, ?_⟩
  · intro address
    rcases current.resolve address with newest | ⟨nowhere, nothing⟩
    · exact Or.inl newest
    · right
      refine ⟨?_, nothing⟩
      intro arrival member
      rw [← listed] at member
      rcases List.mem_map.mp member with ⟨connection, present, rfl⟩
      exact nowhere connection present
  · intro place event connection found
    constructor
    · intro ended handle holds
      exact current.takes_own distinct found event ended holds
    · intro address untouched
      exact current.spares_others distinct found event untouched

/-- A client comes back from the address it had.  Its old connection ends late, and the
new one is still found. -/
theorem registry_follows_newest_late_end :
    ((after [.accepted 1 (.v4 10 40000) 4 1024 .endless, .accepted 2 (.v4 11 40000) 4 1024 .endless,
        .accepted 3 (.v4 10 40000) 4 1024 .endless]).step 0 (.read (.octets []))).1.registry.resolve
      (.v4 10 40000) = some ⟨3, .v4 10 40000, 2⟩ := by
  rcases registry_follows_newest [.accepted 1 (.v4 10 40000) 4 1024 .endless,
    .accepted 2 (.v4 11 40000) 4 1024 .endless, .accepted 3 (.v4 10 40000) 4 1024 .endless]
    (by decide) with ⟨-, -, ends⟩
  rcases ends 0 (.read (.octets [])) (.opened 1 (.v4 10 40000) 4 1024) rfl with ⟨-, untouched⟩
  rw [untouched (.v4 10 40000)]
  · rfl
  · intro _ newest
    exact absurd rfl (newest.2 2 (.opened 3 (.v4 10 40000) 4 1024) (by decide) rfl)

end Floor

end Bridge
end FirmwareGateway
