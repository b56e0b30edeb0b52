import Stillyard.System.Script

/-!
# Starts are debited and releases are agreed

The two guarantees between a coordinator and its managers.  Whenever a ticket is
consumed, the coordinator debits the allocation.  Whenever the coordinator
releases an allocation, its manager sealed it before, and from the seal on
nothing of the allocation starts any more.
-/

namespace Stillyard

open Relational

section Guarantees

variable {system : System}

/-- A Grant with a ticket whose allocation is not sealed is armed or uncertain. -/
theorem System.Sound.mayRun {ticket : InvocationTicket} (sound : System.Sound config system)
    (found : system.coordinator.store.grants.get? ticket.key = some row)
    (listed : ticket.intent ∈ row.snapshot.tickets)
    (unsealed : Manager.sealAt (system.managers ticket.key.domainId).grants ticket.key = none) :
    row.snapshot.state.mayRun = true := by
  have grant := sound.store.grants _ row found
  cases mayRun : row.snapshot.state.mayRun with
  | true => rfl
  | false =>
    by_cases released : row.snapshot.state = .released
    · rcases grant.released released with ⟨release, _, sameKey, sealed, _⟩
      rw [sound.store.keyed.grants _ row found] at sameKey
      rw [System.Sealed, Manager.Sealed, sameKey, unsealed] at sealed
      cases sealed
    · rw [grant.unused mayRun released] at listed
      cases listed

/-- Whenever a manager consumes a ticket, the coordinator holds the Grant of its
allocation in state armed or uncertain with the ticket in its list, so the
physical claims are among the active debits. -/
theorem consumed_ticket_is_debited (reached : system.Reached config storeUuid)
    {domain : ExecutionDomainId} {ticket : InvocationTicket} {next : Manager}
    (consumed : (system.managers domain).consumeTicket ticket = .ok (next, true)) :
    ∃ row, system.coordinator.store.grants.get? ticket.key = some row ∧
      (row.snapshot.state = .armed ∨ row.snapshot.state = .uncertain) ∧
      ticket.intent ∈ row.snapshot.tickets ∧
      row.physical ∈ system.coordinator.store.remoteDebits := by
  have sound := reached.sound
  rcases Manager.consumeTicket_eq_ok consumed with ⟨impossible, _⟩ | ⟨_, consumes⟩
  · cases impossible
  · rcases consumes.row with ⟨received, foundReceived, rfl, unsealed, _⟩
    rcases sound.tickets domain _ received foundReceived with
      ⟨own, sameKey, _, row, found, _, listed⟩
    rw [← own, ← sameKey] at unsealed
    have mayRun := sound.mayRun found listed unsealed
    have state : row.snapshot.state = .armed ∨ row.snapshot.state = .uncertain := by
      cases state : row.snapshot.state <;> rw [state] at mayRun <;> cases mayRun
      · exact .inl rfl
      · exact .inr rfl
    refine ⟨row, found, state, listed, MachineStore.mem_remoteDebits found ?_⟩
    rcases state with armed | uncertain
    · rw [armed]
      rfl
    · rw [uncertain]
      rfl

def demoKey : AllocationKey := ⟨3, 2, 6, 8, 40⟩

def demoCandidate : Candidate :=
  ⟨demoKey, .work ⟨8, 41⟩ ⟨8, 42⟩, 1, 0, ⟨Table.empty.set "cpu_units" 2, [], [], []⟩, demoDigest,
    none, none⟩

/-- The oldest operation is sent, answered, and its reply accepted. -/
def roundTrip : List Event := [.send 6, .exchange soloInput 0, .manager 6 (.accept 0)]

/-- The manager of domain 6 connects, recovers an empty inventory and reconciles. -/
def demoConnects : List Event :=
  [.connectBegin ⟨0, 11, .none⟩ ⟨7, 8, 9, 10⟩,
    .connectFinish ⟨0, 0, .none⟩ ⟨soloSession, 11, 10⟩, .connect 6 0, .manager 6 (.page 20)] ++
  roundTrip ++ [.manager 6 (.reconcile 30 [31, 32])] ++ roundTrip ++ roundTrip

/-- A candidate is queued and offered with Grant 50 under nonce 51. -/
def demoOffers : List Event :=
  [.manager 6 (.enqueue 33 (.candidateUpsert demoCandidate))] ++ roundTrip ++
    [.offers ⟨0, none, fun _ => ⟨50, 51⟩⟩ ⟨[], []⟩]

/-- The Offer is armed and a ticket issued. -/
def demoStarts : List Event :=
  [.manager 6 (.enqueue 34 (.arm demoKey 51))] ++ roundTrip ++
    [.manager 6 (.enqueue 35 (.authorizeInvocation demoKey 51 demoIntent))] ++ roundTrip

def demoTicket : InvocationTicket :=
  ⟨⟨1, 50⟩, demoKey, 51, demoIntent, demoDigest, 0, 0, 0, soloSession⟩

/-- Whether a call consumed its ticket. -/
def consumes (result : Except JournalError (Manager × Bool)) : Bool :=
  match result with
  | .ok (_, true) => true
  | _ => false

theorem consumes_eq_true (consumed : consumes result = true) :
    ∃ next, result = .ok (next, true) := by
  unfold consumes at consumed
  split at consumed
  · exact ⟨_, rfl⟩
  · cases consumed

theorem demoTicket_is_debited : ∃ system next row,
    System.Reached soloConfig (fun _ => 8) system ∧
      (system.managers 6).consumeTicket demoTicket = .ok (next, true) ∧
      system.coordinator.store.grants.get? demoKey = some row ∧
      demoIntent ∈ row.snapshot.tickets ∧
      row.physical ∈ system.coordinator.store.remoteDebits := by
  have ran : ((System.initial soloConfig fun _ => 8).run soloConfig
      (demoConnects ++ demoOffers ++ demoStarts)).any
      (fun system => consumes ((system.managers 6).consumeTicket demoTicket)) = true := by
    decide +kernel
  rcases (Option.any_eq_true _ _).mp ran with ⟨system, computed, consumed⟩
  rcases consumes_eq_true consumed with ⟨next, consumed⟩
  have reached := System.reached_of_run computed
  rcases consumed_ticket_is_debited reached consumed with ⟨row, found, _, listed, debited⟩
  exact ⟨system, next, row, reached, consumed, found, listed, debited⟩

/-! ## Releases -/

/-- A step that releases a Grant belongs to the coordinator and leaves the
managers alone. -/
private theorem SystemStep.releases (step : SystemStep config system next)
    (live : ∀ old, system.coordinator.store.grants.get? key = some old →
      old.snapshot.state ≠ .released) (found : next.coordinator.store.grants.get? key = some new)
    (released : new.snapshot.state = .released) : next.managers = system.managers := by
  cases step with
  | coordinator | reply | welcome => rfl
  | connect | manager | send => exact absurd released (live new found)

/-- What stays from the seal on. -/
private theorem System.Sound.sealed_run (sound : System.Sound config system)
    (sealed : system.Sealed release)
    (run : Relation.ReflTransGen (SystemStep config) system later) :
    System.Sound config later ∧ later.Sealed release ∧
      ∀ invocation row, (later.managers release.key.domainId).tickets.get? invocation = some row →
        row.key = release.key →
          ∃ old, (system.managers release.key.domainId).tickets.get? invocation = some old ∧
            old.key = release.key ∧ old.ticket = row.ticket := by
  induction run with
  | refl => exact ⟨sound, sealed, fun _ row found named => ⟨row, found, named, rfl⟩⟩
  | tail _ step ih =>
    rcases ih with ⟨middleSound, middleSealed, before⟩
    rcases middleSound.step step with ⟨nextSound, kept⟩
    refine ⟨nextSound, kept release middleSealed, ?_⟩
    intro invocation row found named
    rcases (step.managers middleSound release.key.domainId).tickets invocation row found with
      ⟨middle, foundMiddle, sameKey, same⟩ | received
    · rcases before invocation middle foundMiddle (sameKey.symm.trans named) with
        ⟨old, foundOld, oldKey, sameOld⟩
      exact ⟨old, foundOld, oldKey, sameOld.trans same.symm⟩
    · have unsealed := received.unsealed
      rw [named] at unsealed
      cases unsealed.symm.trans middleSealed

/-- Release agreement.  When the coordinator moves a Grant to Released, the
manager sealed the allocation before, with exactly one proof for each ticket of
the Grant.  From a seal on, the manager records no new ticket of the allocation
and consumes none. -/
theorem release_agreement (reached : system.Reached config storeUuid) :
    (∀ next key new, SystemStep config system next →
      (∀ old, system.coordinator.store.grants.get? key = some old →
        old.snapshot.state ≠ .released) →
      next.coordinator.store.grants.get? key = some new → new.snapshot.state = .released →
        ∃ release, new.snapshot.sealedRelease = some release ∧ release.key = key ∧
          system.Sealed release ∧ Proves release new.snapshot.tickets) ∧
      ∀ release later, system.Sealed release →
        Relation.ReflTransGen (SystemStep config) system later →
          later.Sealed release ∧
          (∀ invocation row,
            (later.managers release.key.domainId).tickets.get? invocation = some row →
              row.key = release.key →
                ∃ old, (system.managers release.key.domainId).tickets.get? invocation = some old ∧
                  old.key = release.key ∧ old.ticket = row.ticket) ∧
          ∀ domain ticket after, ticket.key = release.key →
            (later.managers domain).consumeTicket ticket ≠ .ok (after, true) := by
  have sound := reached.sound
  constructor
  · intro next key new step live found released
    have nextSound := (sound.step step).1
    have sameKey := nextSound.store.keyed.grants key new found
    rcases (nextSound.store.grants key new found).released released with
      ⟨release, stored, named, sealed, proves⟩
    refine ⟨release, stored, named.trans sameKey, ?_, proves⟩
    rw [System.Sealed, step.releases live found released] at sealed
    exact sealed
  · intro release later sealed run
    rcases sound.sealed_run sealed run with ⟨laterSound, stillSealed, old⟩
    refine ⟨stillSealed, old, ?_⟩
    intro domain ticket after named consumed
    rcases Manager.consumeTicket_eq_ok consumed with ⟨impossible, _⟩ | ⟨_, consumes⟩
    · cases impossible
    · rcases consumes.row with ⟨received, found, rfl, unsealed, _⟩
      rcases laterSound.tickets domain _ received found with ⟨own, sameKey, _, _⟩
      rw [← own, ← sameKey, named] at unsealed
      cases unsealed.symm.trans stillSealed

/-- The unused ticket is cleaned up, and the allocation sealed and sent. -/
def demoSeals : List Event :=
  [.manager 6 (.recordCleanup ⟨⟨8, 43⟩, 1, demoDigest, demoDigest, false⟩),
    .manager 6 (.sealRelease demoKey 36), .send 6]

/-- The state of the Grant of an allocation. -/
def System.stateOf (system : System) (key : AllocationKey) : Option GrantState :=
  (system.coordinator.store.grants.get? key).map fun row => row.snapshot.state

theorem demoKey_release_agreed : ∃ system next new release,
    System.Reached soloConfig (fun _ => 8) system ∧ SystemStep soloConfig system next ∧
      system.stateOf demoKey = some .armed ∧
      next.coordinator.store.grants.get? demoKey = some new ∧ new.snapshot.state = .released ∧
      new.snapshot.sealedRelease = some release ∧ system.Sealed release ∧
      Proves release new.snapshot.tickets := by
  have ran : ((System.initial soloConfig fun _ => 8).run soloConfig
      (demoConnects ++ demoOffers ++ demoStarts ++ demoSeals)).any
      (fun system => system.stateOf demoKey = some .armed &&
        (system.play soloConfig (.exchange soloInput 0)).any
          fun next => next.stateOf demoKey = some .released) = true := by
    decide +kernel
  rcases (Option.any_eq_true _ _).mp ran with ⟨system, computed, answered⟩
  rw [Bool.and_eq_true, decide_eq_true_eq] at answered
  rcases (Option.any_eq_true _ _).mp answered.2 with ⟨next, played, settled⟩
  rw [decide_eq_true_eq] at settled
  rcases Option.map_eq_some_iff.mp settled with ⟨new, found, released⟩
  have reached := System.reached_of_run computed
  have step := System.step_of_play played
  rcases (release_agreement reached).1 next demoKey new step
    (by
      intro old foundOld same
      have armed := answered.1
      rw [System.stateOf, foundOld, Option.map_some, same] at armed
      cases armed) found released with ⟨release, stored, _, sealed, proves⟩
  exact ⟨system, next, new, release, reached, step, answered.1, found, released, stored, sealed,
    proves⟩

end Guarantees

end Stillyard
