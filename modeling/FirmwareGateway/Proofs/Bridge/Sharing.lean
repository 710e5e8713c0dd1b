import FirmwareGateway.Proofs.Bridge.Order

namespace FirmwareGateway
namespace Bridge
namespace Registry

/-!
# A registry shared by several callers

Callers that share a registry make their calls one at a time, in the order that each of
them has and in any order between them.  A call looks at the entry of its own address
and changes no other.  So callers that keep to addresses of their own do not notice each
other: each gets the answers it would get alone and leaves the entries it would leave
alone, and the registry they end with does not depend on how their calls fell.

`Agree` carries this through a schedule.  Two registries that agree on the addresses of a
caller answer it alike and go on agreeing, and the calls of others do not disturb that.
-/

variable {α κ : Type}

/-! ## One call and its address -/

namespace Call

/-- What a call returns where its address leads to `present`. -/
def answer (present : Option α) : Call α → Option α
  | .register _ _ | .unregister _ | .resolve _ => present
  | .unregisterIf _ accepts => present.filter accepts

/-- Whether a call changes what its address leads to. -/
def changes (present : Option α) : Call α → Bool
  | .register _ _ => true
  | .unregister _ => present.isSome
  | .unregisterIf _ accepts => present.any accepts
  | .resolve _ => false

/-- What a call that changes its address leaves there. -/
def left : Call α → Option α
  | .register _ handle => some handle
  | .unregister _ | .unregisterIf _ _ | .resolve _ => none

/-- Where the address of a call leads behind it. -/
def behind (present : Option α) (call : Call α) : Option α :=
  if call.changes present then call.left else present

end Call

theorem answer_call (registry : Registry α) (call : Call α) :
    (registry.call call).1 = call.answer (registry.resolve call.address) := by
  cases call with
  | register address handle => rfl
  | unregister address => rfl
  | resolve address => rfl
  | unregisterIf address accepts =>
    simp only [Registry.call, Call.address, Call.answer, unregisterIf]
    cases found : registry.resolve address with
    | none => rfl
    | some handle =>
      cases accepted : accepts handle with
      | false => simp only [Option.filter, accepted, Bool.false_eq_true, if_false]
      | true => simp only [Option.filter, accepted, if_true, unregister, found]

theorem resolve_unregisterIf (registry : Registry α) (address other : SocketAddress)
    (accepts : α → Bool) :
    (registry.unregisterIf address accepts).2.resolve other =
      if address = other then
        if (registry.resolve other).any accepts then none else registry.resolve other
      else registry.resolve other := by
  by_cases same : address = other
  · subst same
    rw [if_pos rfl]
    by_cases accepted : (registry.resolve address).any accepts
    · rcases (Option.any_eq_true _ _).mp accepted with ⟨handle, found, accepts⟩
      rw [if_pos accepted, resolve_unregisterIf_self found accepts]
    · have rejects : ∀ handle, registry.resolve address = some handle → accepts handle = false := by
        intro handle found
        rw [found] at accepted
        exact Bool.eq_false_iff.mpr accepted
      rw [if_neg accepted, unregisterIf_of_rejects rejects]
  · rw [if_neg same]
    exact resolve_unregisterIf_other registry accepts same

/-- Behind a call its own address leads where the call says, and every other address
where it led before. -/
theorem resolve_call (registry : Registry α) (call : Call α) (address : SocketAddress) :
    (registry.call call).2.resolve address =
      if call.address = address then call.behind (registry.resolve address)
      else registry.resolve address := by
  cases call with
  | register own handle => exact registry.resolve_register own address handle
  | resolve own => exact (ite_self _).symm
  | unregisterIf own accepts => exact registry.resolve_unregisterIf own address accepts
  | unregister own =>
    apply (registry.resolve_unregister own address).trans
    simp only [Call.address, Call.behind, Call.changes, Call.left]
    cases registry.resolve address <;> rfl

theorem calls_cons (registry : Registry α) (call : Call α) (calls : List (Call α)) :
    registry.calls (call :: calls) =
      ((registry.call call).1 :: ((registry.call call).2.calls calls).1,
        ((registry.call call).2.calls calls).2) := rfl

theorem calls_append (registry : Registry α) (first second : List (Call α)) :
    (registry.calls (first ++ second)).2 = ((registry.calls first).2.calls second).2 := by
  induction first generalizing registry with
  | nil => rfl
  | cons call first ih => exact ih (registry.call call).2

/-- The registry that some calls lead to, made one after the other on an empty one. -/
def after (calls : List (Call α)) : Registry α :=
  (empty.calls calls).2

theorem after_append (first second : List (Call α)) :
    after (first ++ second) = ((after first).calls second).2 :=
  calls_append empty first second

theorem ordered_after (calls : List (Call α)) : Ordered (after calls).entries := by
  have none : Ordered (empty : Registry α).entries := .nil
  exact ordered_calls none calls

/-! ## The last change of an address -/

/-- The calls among some, made one after the other, that change what an address leads
to. -/
def changing (registry : Registry α) (address : SocketAddress) : List (Call α) → List (Call α)
  | [] => []
  | call :: calls =>
    let others := changing (registry.call call).2 address calls
    if call.address = address ∧ call.changes (registry.resolve address) then call :: others
    else others

/-- An address leads to what the last call left that changed it. -/
theorem resolve_calls (registry : Registry α) (address : SocketAddress) (calls : List (Call α)) :
    (registry.calls calls).2.resolve address =
      ((registry.changing address calls).getLast?).elim (registry.resolve address) Call.left := by
  induction calls generalizing registry with
  | nil => rfl
  | cons call calls ih =>
    rw [calls_cons, ih, resolve_call, changing]
    by_cases changed : call.address = address ∧ call.changes (registry.resolve address)
    · rw [if_pos changed, if_pos changed.1, Call.behind, if_pos changed.2, List.getLast?_cons]
      cases ((registry.call call).2.changing address calls).getLast? <;> rfl
    · rw [if_neg changed]
      by_cases own : call.address = address
      · rw [if_pos own, Call.behind, if_neg fun changes => changed ⟨own, changes⟩]
      · rw [if_neg own]

/-! ## Registries that agree -/

/-- Two registries lead to the same from the addresses inside a set. -/
def Agree (inside : SocketAddress → Prop) (registry other : Registry α) : Prop :=
  ∀ address, inside address → registry.resolve address = other.resolve address

section
variable {inside : SocketAddress → Prop} {registry other : Registry α}

/-- A call inside is answered alike, and leaves the registries in agreement. -/
theorem Agree.call (agree : Agree inside registry other) {call : Call α}
    (own : inside call.address) :
    (registry.call call).1 = (other.call call).1 ∧
      Agree inside (registry.call call).2 (other.call call).2 := by
  constructor
  · rw [answer_call, answer_call, agree call.address own]
  · intro address member
    rw [resolve_call, resolve_call, agree address member]

/-- A call outside goes unnoticed. -/
theorem Agree.foreign (agree : Agree inside registry other) {call : Call α}
    (foreign : ¬ inside call.address) : Agree inside (registry.call call).2 other := by
  intro address member
  have different : call.address ≠ address := by
    rintro rfl
    exact foreign member
  rw [resolve_call, if_neg different]
  exact agree address member

theorem agree_calls_of_foreign (registry : Registry α) {calls : List (Call α)}
    (foreign : ∀ call ∈ calls, ¬ inside call.address) :
    Agree inside (registry.calls calls).2 registry := by
  induction calls generalizing registry with
  | nil => exact fun _ _ => rfl
  | cons call calls ih =>
    rcases List.forall_mem_cons.mp foreign with ⟨first, others⟩
    have unnoticed : Agree inside (registry.call call).2 registry :=
      Agree.foreign (fun _ _ => rfl) first
    intro address member
    exact (ih (registry.call call).2 others address member).trans (unnoticed address member)

end

/-! ## Schedules -/

/-- The calls of a schedule in the order in which they are made. -/
def made (schedule : List (κ × Call α)) : List (Call α) :=
  schedule.map Prod.snd

section
variable [DecidableEq κ]

/-- The calls that one caller makes in a schedule, in order. -/
def madeBy (caller : κ) (schedule : List (κ × Call α)) : List (Call α) :=
  (schedule.filter fun turn => turn.1 = caller).map Prod.snd

/-- What one caller gets back in a schedule, in order. -/
def returned (registry : Registry α) (caller : κ) (schedule : List (κ × Call α)) :
    List (Option α) :=
  ((schedule.zip (registry.calls (made schedule)).1).filter fun turn => turn.1.1 = caller).map
    Prod.snd

/-- A schedule in which every caller makes its own calls, in their order. -/
def Interleaves (own : κ → List (Call α)) (schedule : List (κ × Call α)) : Prop :=
  ∀ caller, madeBy caller schedule = own caller

/-- Different callers use different addresses. -/
def Apart (own : κ → List (Call α)) : Prop :=
  ∀ first second, first ≠ second → ∀ call ∈ own first, ∀ rival ∈ own second,
    call.address ≠ rival.address

theorem mem_madeBy_iff {caller : κ} {call : Call α} {schedule : List (κ × Call α)} :
    call ∈ madeBy caller schedule ↔ (caller, call) ∈ schedule := by
  simp [madeBy]

theorem madeBy_cons_self (caller : κ) (call : Call α) (schedule : List (κ × Call α)) :
    madeBy caller ((caller, call) :: schedule) = call :: madeBy caller schedule := by
  simp [madeBy]

theorem madeBy_cons_of_ne {caller rival : κ} (different : rival ≠ caller) (call : Call α)
    (schedule : List (κ × Call α)) :
    madeBy caller ((rival, call) :: schedule) = madeBy caller schedule := by
  simp [madeBy, different]

theorem returned_cons_self (registry : Registry α) (caller : κ) (call : Call α)
    (schedule : List (κ × Call α)) :
    registry.returned caller ((caller, call) :: schedule) =
      (registry.call call).1 :: (registry.call call).2.returned caller schedule := by
  simp [returned, made, calls_cons]

theorem returned_cons_of_ne (registry : Registry α) {caller rival : κ}
    (different : rival ≠ caller) (call : Call α) (schedule : List (κ × Call α)) :
    registry.returned caller ((rival, call) :: schedule) =
      (registry.call call).2.returned caller schedule := by
  simp [returned, made, calls_cons, different]

/-- In a schedule a caller gets what it gets alone, as long as its calls, and no others,
are inside the set on which two registries agree. -/
theorem Agree.schedule {inside : SocketAddress → Prop} {registry other : Registry α}
    (agree : Agree inside registry other) (caller : κ) {schedule : List (κ × Call α)}
    (own : ∀ turn ∈ schedule, inside turn.2.address ↔ turn.1 = caller) :
    registry.returned caller schedule = (other.calls (madeBy caller schedule)).1 ∧
      Agree inside (registry.calls (made schedule)).2
        (other.calls (madeBy caller schedule)).2 := by
  induction schedule generalizing registry other with
  | nil => exact ⟨rfl, agree⟩
  | cons turn schedule ih =>
    rcases turn with ⟨maker, call⟩
    rcases List.forall_mem_cons.mp own with ⟨first, others⟩
    by_cases same : maker = caller
    · subst same
      rcases agree.call (first.mpr rfl) with ⟨answer, next⟩
      rcases ih next others with ⟨answers, reached⟩
      rw [madeBy_cons_self, returned_cons_self, calls_cons, answer, answers]
      exact ⟨rfl, reached⟩
    · have unnoticed := agree.foreign fun member => same (first.mp member)
      rw [madeBy_cons_of_ne same, returned_cons_of_ne registry same]
      exact ih unnoticed others

/-! ## Callers apart -/

section
variable {own : κ → List (Call α)} {schedule : List (κ × Call α)}

/-- A caller among others that are apart from it gets the answers that it gets alone, and
its addresses lead where they lead when it is alone. -/
theorem Interleaves.alone (interleaves : Interleaves own schedule) (apart : Apart own)
    (registry : Registry α) (caller : κ) :
    registry.returned caller schedule = (registry.calls (own caller)).1 ∧
      ∀ call ∈ own caller, (registry.calls (made schedule)).2.resolve call.address =
        (registry.calls (own caller)).2.resolve call.address := by
  have listed : ∀ {maker call}, call ∈ own maker ↔ (maker, call) ∈ schedule := by
    intro maker call
    rw [← interleaves maker]
    exact mem_madeBy_iff
  have inside : ∀ turn ∈ schedule,
      (∃ call ∈ own caller, call.address = turn.2.address) ↔ turn.1 = caller := by
    rintro ⟨maker, call⟩ member
    constructor
    · rintro ⟨mine, ours, same⟩
      apply Decidable.byContradiction
      intro different
      exact apart maker caller different call (listed.mpr member) mine ours same.symm
    · rintro rfl
      exact ⟨call, listed.mpr member, rfl⟩
  have refl : Agree (fun address => ∃ call ∈ own caller, call.address = address) registry
      registry := fun _ _ => rfl
  rcases refl.schedule caller inside with ⟨answers, reached⟩
  rw [interleaves caller] at answers reached
  exact ⟨answers, fun call mine => reached call.address ⟨call, mine, rfl⟩⟩

theorem Interleaves.mem_made (interleaves : Interleaves own schedule) {call : Call α}
    (member : call ∈ made schedule) : ∃ caller, call ∈ own caller := by
  rcases List.mem_map.mp member with ⟨⟨caller, _⟩, turn, rfl⟩
  refine ⟨caller, ?_⟩
  rw [← interleaves caller]
  exact mem_madeBy_iff.mpr turn

/-- An address that no caller uses leads where it led before. -/
theorem Interleaves.untouched (interleaves : Interleaves own schedule) (registry : Registry α)
    {address : SocketAddress} (unused : ∀ caller, ∀ call ∈ own caller, call.address ≠ address) :
    (registry.calls (made schedule)).2.resolve address = registry.resolve address := by
  have foreign : ∀ call ∈ made schedule, ¬ call.address = address := by
    intro call member
    rcases interleaves.mem_made member with ⟨caller, mine⟩
    exact unused caller call mine
  have unnoticed : Agree (· = address) (registry.calls (made schedule)).2 registry :=
    registry.agree_calls_of_foreign foreign
  exact unnoticed address rfl

/-- However the calls fall, the registry that they lead to is one. -/
theorem Interleaves.calls_eq (interleaves : Interleaves own schedule) (apart : Apart own)
    {registry : Registry α} (ordered : Ordered registry.entries) {other : List (κ × Call α)}
    (also : Interleaves own other) :
    (registry.calls (made other)).2 = (registry.calls (made schedule)).2 := by
  apply eq_of_resolve_eq (ordered_calls ordered _) (ordered_calls ordered _)
  intro address
  by_cases used : ∃ caller, ∃ call ∈ own caller, call.address = address
  · rcases used with ⟨caller, call, mine, rfl⟩
    rw [(interleaves.alone apart registry caller).2 call mine]
    exact (also.alone apart registry caller).2 call mine
  · have unused : ∀ caller, ∀ call ∈ own caller, call.address ≠ address :=
      fun caller call mine same => used ⟨caller, call, mine, same⟩
    rw [interleaves.untouched registry unused, also.untouched registry unused]

end

/-- Callers that share a registry, each with addresses of its own, do not notice each
other, however their calls fall.  Each of them gets the answers that it gets alone; its
addresses lead where they lead when it is alone, those of nobody lead where they led, and
the registry is the same in the end.  In whatever state calls leave a registry, its list
holds the addresses that lead anywhere, each once and in order, and an address leads to
what the last call left that changed it. -/
theorem calls_of_interleaving {own : κ → List (Call α)} {schedule : List (κ × Call α)}
    (apart : Apart own) (interleaves : Interleaves own schedule) (past : List (Call α)) :
    (∀ caller,
      (after past).returned caller schedule = ((after past).calls (own caller)).1 ∧
      ∀ call ∈ own caller, (after (past ++ made schedule)).resolve call.address =
        (after (past ++ own caller)).resolve call.address) ∧
    (∀ address, (∀ caller, ∀ call ∈ own caller, call.address ≠ address) →
      (after (past ++ made schedule)).resolve address = (after past).resolve address) ∧
    (∀ other, Interleaves own other →
      after (past ++ made other) = after (past ++ made schedule)) ∧
    ∀ calls : List (Call α), (after calls).Listed ∧
      ∀ address, (after calls).resolve address =
        (empty.changing address calls).getLast?.bind Call.left := by
  refine ⟨?_, ?_, ?_, ?_⟩
  · intro caller
    rw [after_append, after_append]
    exact interleaves.alone apart (after past) caller
  · intro address unused
    rw [after_append]
    exact interleaves.untouched (after past) unused
  · intro other also
    rw [after_append, after_append]
    exact interleaves.calls_eq apart (ordered_after past) also
  · intro calls
    refine ⟨listed_of_ordered (ordered_after calls), ?_⟩
    intro address
    apply (empty.resolve_calls address calls).trans
    cases (empty.changing address calls).getLast? <;> rfl

/-- The calls of two clients: one is replaced, is not taken for another, and stays, and
the other comes and goes. -/
def stayingAndLeaving : Bool → List (Call Nat)
  | true => [.register (.v4 10 40000) 2, .unregisterIf (.v4 10 40000) (· == 1)]
  | false => [.register (.v6 1 40000 0 0) 7, .unregister (.v6 1 40000 0 0)]

/-- Their calls in turns. -/
def inTurns : List (Bool × Call Nat) :=
  [(true, .register (.v4 10 40000) 2), (false, .register (.v6 1 40000 0 0) 7),
    (true, .unregisterIf (.v4 10 40000) (· == 1)), (false, .unregister (.v6 1 40000 0 0))]

theorem calls_of_interleaving_in_turns :
    Apart stayingAndLeaving ∧ Interleaves stayingAndLeaving inTurns ∧
      (after [.register (.v4 10 40000) 1]).returned true inTurns = [some 1, none] ∧
      (after [.register (.v4 10 40000) 1]).returned false inTurns = [none, some 7] ∧
      (after (.register (.v4 10 40000) 1 :: made inTurns)).resolve (.v4 10 40000) = some 2 ∧
      ∀ other, Interleaves stayingAndLeaving other →
        (after (.register (.v4 10 40000) 1 :: made other)).list = [.v4 10 40000] := by
  have apart : Apart stayingAndLeaving := by
    unfold Apart
    decide
  have interleaves : Interleaves stayingAndLeaving inTurns := by
    intro caller
    cases caller <;> rfl
  rcases calls_of_interleaving apart interleaves [.register (.v4 10 40000) 1] with
    ⟨alone, -, same, -⟩
  refine ⟨apart, interleaves, (alone true).1, (alone false).1, ?_, ?_⟩
  · exact (alone true).2 _ List.mem_cons_self
  · intro other also
    exact congrArg list (same other also)

end

end Registry

end Bridge
end FirmwareGateway
