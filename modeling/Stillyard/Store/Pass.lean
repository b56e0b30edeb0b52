import Stillyard.Store.Identities
import Stillyard.Store.Offers

/-!
# What a coordinator pass can do

A pass leaves sessions, operation history and reconciliations alone, and of a
candidate it changes only the reservation and the back-off.  A Grant that the
pass touches was an Offer that expires, or had no Offer and gets one: Armed,
Uncertain and Released Grants are never touched.
-/

namespace Stillyard

open Relational Fallible

variable {store : MachineStore} {key : AllocationKey} {now : Int}
  {fresh : AllocationKey → FreshOffer} {ready : Candidate × ScheduleKey}
  {entries : List (Candidate × ScheduleKey)} {input : OfferInput} {view : NativeView}
  {result : OfferResult} {row : GrantRow}

/-- The same candidate, up to its reservation and back-off. -/
def SameCandidate (old new : CandidateRow) : Prop :=
  new = { old with
    reservationDeadlineMs := new.reservationDeadlineMs
    notBeforeMs := new.notBeforeMs }

theorem SameCandidate.refl (row : CandidateRow) : SameCandidate row row := rfl

theorem SameCandidate.trans {first second third : CandidateRow}
    (earlier : SameCandidate first second) (later : SameCandidate second third) :
    SameCandidate first third := by
  unfold SameCandidate at earlier later ⊢
  rw [later, earlier]

/-- What a pass leaves as it is. -/
structure PassFrame (before after : MachineStore) : Prop where
  queue : after.queue = before.queue
  queueSequence : after.queueSequence = before.queueSequence
  domains : after.domains = before.domains
  challenges : after.challenges = before.challenges
  operations : after.operations = before.operations
  reconciles : after.reconciles = before.reconciles
  readiness : after.readiness = before.readiness
  candidates : Table.Evolves (fun _ => SameCandidate) before.candidates after.candidates
  identities : IdentitiesGrow before.ticketIdentities after.ticketIdentities

theorem PassFrame.of_candidates (same : after = { before with
      candidates := after.candidates
      grants := after.grants
      ticketIdentities := after.ticketIdentities
      reservations := after.reservations
      scheduleMs := after.scheduleMs
      revision := after.revision })
    (candidates : Table.Evolves (fun _ => SameCandidate) before.candidates after.candidates)
    (identities : IdentitiesGrow before.ticketIdentities after.ticketIdentities) :
    PassFrame before after := by
  rw [same] at candidates identities ⊢
  exact ⟨rfl, rfl, rfl, rfl, rfl, rfl, rfl, candidates, identities⟩

theorem PassFrame.refl (store : MachineStore) : PassFrame store store :=
  .of_candidates rfl (Table.Evolves.refl (fun _ => SameCandidate.refl) _) (.refl _)

theorem PassFrame.trans (earlier : PassFrame first second) (later : PassFrame second third) :
    PassFrame first third where
  queue := later.queue.trans earlier.queue
  queueSequence := later.queueSequence.trans earlier.queueSequence
  domains := later.domains.trans earlier.domains
  challenges := later.challenges.trans earlier.challenges
  operations := later.operations.trans earlier.operations
  reconciles := later.reconciles.trans earlier.reconciles
  readiness := later.readiness.trans earlier.readiness
  candidates := earlier.candidates.trans (fun _ _ _ _ first second => first.trans second)
    later.candidates
  identities := earlier.identities.trans later.identities

/-- Every candidate is stored under its own key and domain. -/
def CandidatesKeyed (candidates : Table AllocationKey CandidateRow) : Prop :=
  ∀ key row, candidates.get? key = some row →
    row.candidate.key = key ∧ row.domainId = key.domainId

theorem CandidatesKeyed.evolve (keyed : CandidatesKeyed before)
    (evolves : Table.Evolves (fun _ => SameCandidate) before after) : CandidatesKeyed after := by
  intro key row found
  rcases evolves.origin found with ⟨old, foundOld, same⟩
  have fields := keyed key old foundOld
  rw [same]
  exact fields

theorem frame_expireReservations (store : MachineStore) (now : Int) :
    PassFrame store (expireReservations store now).1 := by
  refine .of_candidates rfl (Table.evolves_modify ?_) (.refl _)
  intro key row _
  split <;> rfl

theorem frame_dropReservation (store : MachineStore) (key : AllocationKey) :
    PassFrame store (dropReservation store key).1 :=
  .of_candidates rfl (Table.evolves_update (fun _ => SameCandidate.refl) fun _ _ => rfl)
    (.refl _)

theorem frame_deferCandidate (store : MachineStore) (key : AllocationKey) (now : Int) :
    PassFrame store (deferCandidate store key now) :=
  .of_candidates rfl (Table.evolves_update (fun _ => SameCandidate.refl) fun _ _ => rfl)
    (.refl _)

theorem frame_saveGrant (saved : saveGrant store grant physical = .ok next) :
    PassFrame store next := by
  rcases saveGrant_eq_ok saved with ⟨identities, recorded, rfl⟩
  exact .of_candidates rfl (Table.Evolves.refl (fun _ => SameCandidate.refl) _)
    (recordIdentities_eq_ok recorded).1

/-- One change of the Grant table by a pass. -/
inductive GrantsPass (config : CoordinatorConfig) (topology : ResourceTopology)
    (domains : Table ExecutionDomainId DomainRow) :
    Table AllocationKey GrantRow → Table AllocationKey GrantRow → Prop where
  | expire {row : GrantRow} (found : grants.get? row.snapshot.candidate.key = some row)
      (offered : row.snapshot.state = .offered) :
      GrantsPass config topology domains grants (writeGrant grants row.snapshot.expire none)
  | offer {now : Int} (idle : ∀ row, grants.get? candidate.key = some row →
        row.snapshot.state = .expired ∧ grantId = row.snapshot.grantId)
      (reconciled : (domains.get? candidate.key.domainId).any
        (fun row => !row.reconciliationRequired) = true)
      (computed : topology.expand candidate.key.domainId (machineClaims candidate.claims) =
        .ok expanded) (own : grantId.storeUuid = config.storeUuid) :
      GrantsPass config topology domains grants
        (writeGrant grants (offeredGrant candidate rank grantId nonce now)
          (some (physicalClaims expanded config.domains.machineScope)))

variable {config : CoordinatorConfig} {topology : ResourceTopology}

private theorem expireOffers_loop {due : List GrantSnapshot}
    (distinct : (due.map fun grant => grant.candidate.key).Nodup)
    (stored : ∀ grant ∈ due, grant.state = .offered ∧
      ∃ row, store.grants.get? grant.candidate.key = some row ∧ row.snapshot = grant)
    (folded : due.foldlM (expireOffer now) store = .ok next) :
    PassFrame store next ∧
      Relation.ReflTransGen (GrantsPass config topology domains) store.grants next.grants := by
  induction due generalizing store with
  | nil =>
    rw [List.foldlM_nil, pure_eq_ok] at folded
    subst folded
    exact ⟨PassFrame.refl _, .refl⟩
  | cons grant rest ih =>
    simp only [List.map_cons, List.nodup_cons, List.mem_map, not_exists, not_and] at distinct
    rw [List.foldlM_cons, bind_eq_ok] at folded
    rcases folded with ⟨middle, first, others⟩
    simp only [expireOffer, ok_iff] at first
    rcases first with ⟨saved, succeeded, rfl⟩
    rcases stored grant List.mem_cons_self with ⟨offered, row, found, rfl⟩
    have frame := (frame_saveGrant succeeded).trans
      (frame_deferCandidate saved row.snapshot.candidate.key now)
    rcases saveGrant_eq_ok succeeded with ⟨identities, _, rfl⟩
    have step : GrantsPass config topology domains store.grants
        (writeGrant store.grants row.snapshot.expire none) := .expire found offered
    have remaining := ih distinct.2 (by
      intro other member
      rcases stored other (List.mem_cons_of_mem _ member) with ⟨state, row', found', same⟩
      refine ⟨state, row', ?_, same⟩
      exact (get?_writeGrant store.grants row.snapshot.expire none
        (distinct.1 other member)).trans found') others
    exact ⟨frame.trans remaining.1, remaining.2.head step⟩

theorem expireOffers_eq_ok (config : CoordinatorConfig) (topology : ResourceTopology)
    (domains : Table ExecutionDomainId DomainRow) (keyed : GrantsKeyed store.grants)
    (succeeded : expireOffers store now = .ok (next, changed)) :
    PassFrame store next ∧
      Relation.ReflTransGen (GrantsPass config topology domains) store.grants next.grants := by
  simp only [expireOffers, ok_iff, Prod.mk.injEq] at succeeded
  rcases succeeded with ⟨final, folded, rfl, _⟩
  refine expireOffers_loop ?_ ?_ folded
  · apply Table.nodup_map_select
    intro key row grant found picked
    split at picked
    · cases picked
      exact keyed key row found
    · cases picked
  · intro grant member
    rcases Table.mem_select.mp member with ⟨key, row, found, picked⟩
    split at picked
    · next due =>
      cases picked
      rw [keyed key row found]
      exact ⟨due.1, row, found, rfl⟩
    · cases picked

/-- A step of the pass that does not touch the Grants. -/
def GrantsUntouched (before after : MachineStore) : Prop :=
  PassFrame before after ∧ after.grants = before.grants

theorem GrantsUntouched.trans (earlier : GrantsUntouched first second)
    (later : GrantsUntouched second third) : GrantsUntouched first third :=
  ⟨earlier.1.trans later.1, later.2.trans earlier.2⟩

theorem untouched_remoteReserved {reservations : List RemoteReservation}
    {final : MachineStore × List ReservedEntry × Bool}
    (folded : reservations.foldlM (remoteReserved config topology) start = .ok final) :
    GrantsUntouched start.1 final.1 := by
  refine foldlM_invariant
    (fun state : MachineStore × List ReservedEntry × Bool => GrantsUntouched start.1 state.1)
    ?_ ⟨PassFrame.refl _, rfl⟩ folded
  intro state reservation next _ held succeeded
  simp only [remoteReserved] at succeeded
  split at succeeded
  · rw [pure_eq_ok] at succeeded
    subst succeeded
    exact held.trans ⟨frame_dropReservation _ _, rfl⟩
  · simp only [ok_iff] at succeeded
    rcases succeeded with ⟨_, _, rfl⟩
    exact held

theorem untouched_retainReservation (topology : ResourceTopology)
    (rules : Table String (List String)) (now : Int)
    (entries : List ReservedEntry) (start : Retention) :
    GrantsUntouched start.store
      (entries.foldl (retainReservation topology rules now) start).store := by
  induction entries generalizing start with
  | nil => exact ⟨PassFrame.refl _, rfl⟩
  | cons entry rest ih =>
    rw [List.foldl_cons]
    refine GrantsUntouched.trans ?_ (ih _)
    simp only [retainReservation]
    split
    · split
      · exact ⟨PassFrame.refl _, rfl⟩
      · exact ⟨(frame_dropReservation _ _).trans (frame_deferCandidate _ _ _), rfl⟩
    · exact ⟨PassFrame.refl _, rfl⟩

/-! ## The main loop -/

theorem offerGrantId_own {fresh : FreshOffer} {grantId : EntityId}
    (identified : offerGrantId config store key fresh = .ok grantId) :
    grantId.storeUuid = config.storeUuid := by
  unfold offerGrantId at identified
  split at identified
  · simp only [ok_iff] at identified
    obtain ⟨_, own, rfl⟩ := identified
    exact of_decide_eq_true own
  · cases identified
    rfl

/-- What one round of the main loop does: nothing to the Grants, or one Offer to
the round's candidate. -/
theorem offerCandidate_eq_ok {next : OfferState}
    (succeeded : offerCandidate config topology now fresh state ready = .ok next) :
    PassFrame state.store next.store ∧
      ((next.store.grants = state.store.grants ∧ next.active = state.active) ∨
        ∃ expanded row grantId,
          topology.expand ready.1.key.domainId (machineClaims ready.1.claims) = .ok expanded ∧
          offerDecision topology now state row ready.1.key ready.2 expanded = .grant ∧
          (∀ prior, state.store.grants.get? ready.1.key = some prior →
            grantId = prior.snapshot.grantId) ∧ grantId.storeUuid = config.storeUuid ∧
          next.active = state.active ++ [expanded] ∧
          next.store.grants = writeGrant state.store.grants
            (offeredGrant ready.1 ready.2 grantId (fresh ready.1.key).nonce now)
            (some (physicalClaims expanded config.domains.machineScope))) := by
  have dropped : ∀ key, PassFrame state.store (state.dropOwn key).store := fun key =>
    frame_dropReservation state.store key
  simp only [offerCandidate] at succeeded
  split at succeeded
  · cases succeeded
    exact ⟨PassFrame.refl _, .inl ⟨rfl, rfl⟩⟩
  · split at succeeded
    · cases succeeded
      exact ⟨PassFrame.refl _, .inl ⟨rfl, rfl⟩⟩
    · next expanded computed =>
      split at succeeded
      · cases succeeded
        exact ⟨dropped _, .inl ⟨rfl, rfl⟩⟩
      · rw [bind_eq_ok] at succeeded
        rcases succeeded with ⟨row, found, succeeded⟩
        cases decision : offerDecision topology now state row ready.1.key ready.2 expanded with
        | drop =>
          simp only [decision, pure_eq_ok] at succeeded
          subst succeeded
          exact ⟨dropped _, .inl ⟨rfl, rfl⟩⟩
        | expire =>
          simp only [decision, pure_eq_ok] at succeeded
          subst succeeded
          exact ⟨(dropped _).trans (frame_deferCandidate _ _ _), .inl ⟨rfl, rfl⟩⟩
        | hold =>
          simp only [decision, pure_eq_ok] at succeeded
          subst succeeded
          exact ⟨PassFrame.refl _, .inl ⟨rfl, rfl⟩⟩
        | create =>
          simp only [decision, pure_eq_ok] at succeeded
          subst succeeded
          refine ⟨.of_candidates rfl ?_ (.refl _), .inl ⟨rfl, rfl⟩⟩
          exact Table.evolves_update (fun _ => SameCandidate.refl) fun _ _ => rfl
        | grant =>
          simp only [decision, makeOffer, ok_iff] at succeeded
          rcases succeeded with ⟨grantId, identified, stored, saved, rfl⟩
          refine ⟨(dropped _).trans (frame_saveGrant saved), .inr ?_⟩
          rcases saveGrant_eq_ok saved with ⟨identities, _, rfl⟩
          refine ⟨expanded, row, grantId, computed, decision, ?_, offerGrantId_own identified,
            rfl, rfl⟩
          intro prior foundPrior
          have present : (state.dropOwn ready.1.key).store.grants.get? ready.1.key =
            some prior := foundPrior
          simp only [offerGrantId, present, ok_iff] at identified
          rcases identified with ⟨_, _, same⟩
          exact same.symm

/-- A candidate in the ready list has a reconciled domain, and no Grant or an
expired one. -/
private theorem idle_of_ready (keyed : CandidatesKeyed store.candidates)
    (member : ready ∈ readyCandidates store now) :
    (store.domains.get? ready.1.key.domainId).any (fun row => !row.reconciliationRequired) = true ∧
      ∀ row, store.grants.get? ready.1.key = some row → row.snapshot.state = .expired := by
  rw [readyCandidates, List.mem_insertionSort] at member
  rcases Table.mem_select.mp member with ⟨key, row, found, picked⟩
  split at picked
  · next conditions =>
    rcases Option.map_eq_some_iff.mp picked with ⟨rank, _, rfl⟩
    rcases keyed key row found with ⟨sameKey, sameDomain⟩
    rcases conditions with ⟨_, _, _, reconciled, expired⟩
    rw [sameKey]
    refine ⟨sameDomain ▸ reconciled, ?_⟩
    intro grant granted
    rw [granted] at expired
    simpa using expired
  · cases picked

private theorem nodup_ready (keyed : CandidatesKeyed store.candidates) :
    ((readyCandidates store now).map fun entry => entry.1.key).Nodup := by
  unfold readyCandidates
  refine ((List.perm_insertionSort _ _).map _).nodup_iff.mpr ?_
  apply Table.nodup_map_select
  intro key row entry found picked
  split at picked
  · rcases Option.map_eq_some_iff.mp picked with ⟨rank, _, rfl⟩
    exact (keyed key row found).1
  · cases picked

/-- The main loop offers only to candidates that are still idle: each comes up
once. -/
private theorem offerLoop (domains : Table ExecutionDomainId DomainRow) {next : OfferState}
    (distinct : (entries.map fun entry => entry.1.key).Nodup) (idle : ∀ entry ∈ entries,
      (domains.get? entry.1.key.domainId).any (fun row => !row.reconciliationRequired) = true ∧
        ∀ row, state.store.grants.get? entry.1.key = some row → row.snapshot.state = .expired)
    (folded : entries.foldlM (offerCandidate config topology now fresh) state = .ok next) :
    PassFrame state.store next.store ∧
      Relation.ReflTransGen (GrantsPass config topology domains) state.store.grants
        next.store.grants := by
  induction entries generalizing state with
  | nil =>
    rw [List.foldlM_nil, pure_eq_ok] at folded
    subst folded
    exact ⟨PassFrame.refl _, .refl⟩
  | cons entry rest ih =>
    simp only [List.map_cons, List.nodup_cons, List.mem_map, not_exists, not_and] at distinct
    rw [List.foldlM_cons, bind_eq_ok] at folded
    rcases folded with ⟨middle, first, others⟩
    rcases offerCandidate_eq_ok first with ⟨frame, effect⟩
    rcases idle entry List.mem_cons_self with ⟨reconciled, expired⟩
    have restIdle : ∀ other ∈ rest,
        (domains.get? other.1.key.domainId).any (fun row => !row.reconciliationRequired) =
          true ∧
        ∀ row, middle.store.grants.get? other.1.key = some row →
          row.snapshot.state = .expired := by
      intro other member
      rcases idle other (List.mem_cons_of_mem _ member) with ⟨otherReconciled, otherExpired⟩
      refine ⟨otherReconciled, ?_⟩
      rcases effect with ⟨same, _⟩ | ⟨expanded, _, grantId, _, _, _, _, _, written⟩
      · rw [same]
        exact otherExpired
      · rw [written, get?_writeGrant _ _ _ (distinct.1 other member)]
        exact otherExpired
    have remaining := ih distinct.2 restIdle others
    refine ⟨frame.trans remaining.1, ?_⟩
    rcases effect with ⟨same, _⟩ | ⟨expanded, _, grantId, computed, _, kept, own, _, written⟩
    · rw [← same]
      exact remaining.2
    · refine remaining.2.head ?_
      rw [written]
      exact .offer (fun row found => ⟨expired row found, kept row found⟩) reconciled computed own

/-- After the due Offers expired, every Grant is as it was or expired. -/
theorem expireOffers_origin (succeeded : expireOffers store now = .ok (next, changed))
    (found : next.grants.get? key = some row) :
    ∃ old, store.grants.get? key = some old ∧ (row = old ∨ row.snapshot.state = .expired) := by
  simp only [expireOffers, ok_iff, Prod.mk.injEq] at succeeded
  obtain ⟨final, folded, rfl, _⟩ := succeeded
  have kept := foldlM_invariant (fun state : MachineStore =>
    ∀ row, state.grants.get? key = some row → ∃ old, store.grants.get? key = some old ∧
      (row = old ∨ row.snapshot.state = .expired)) ?_
        (fun row found => ⟨row, found, .inl rfl⟩) folded
  · exact kept row found
  · intro state grant after _ held round row found
    simp only [expireOffer, ok_iff] at round
    obtain ⟨saved, succeeded, rfl⟩ := round
    obtain ⟨identities, _, rfl⟩ := saveGrant_eq_ok succeeded
    obtain ⟨_, middle, present, rfl⟩ | ⟨_, found⟩ := Table.get?_update_eq_some.mp found
    · obtain ⟨old, foundOld, _⟩ := held middle present
      exact ⟨old, foundOld, .inr rfl⟩
    · exact held row found

/-- The stages of a whole pass: expired reservations and Offers leave the tables
`opened`, whose debits are `active`; the retention of reservations touches no
Grant; the main loop then tries some of the ready candidates. -/
structure PassStages (config : CoordinatorConfig) (topology : ResourceTopology) (input : OfferInput)
    (view : NativeView) (store : MachineStore) (result : OfferResult) (opened : MachineStore)
    (entered final : OfferState) (tried : List (Candidate × ScheduleKey)) : Prop where
  opens : PassFrame store opened
  expires : Relation.ReflTransGen (GrantsPass config topology store.domains) store.grants
    opened.grants
  debits : scopedDebits config topology view opened = .ok entered.active
  enters : PassFrame opened entered.store
  sameGrants : entered.store.grants = opened.grants
  ready : tried.Sublist (readyCandidates opened (max input.now store.scheduleMs))
  loop : tried.foldlM
    (offerCandidate config topology (max input.now store.scheduleMs) input.fresh) entered =
      .ok final
  frame : PassFrame final.store result.store
  grants : result.store.grants = final.store.grants

theorem passStages (keyed : GrantsKeyed store.grants)
    (succeeded : offerTransaction config topology input view store = .ok result) :
    ∃ opened entered final tried,
      PassStages config topology input view store result opened entered final tried ∧
        ∀ key row, opened.grants.get? key = some row → ∃ old, store.grants.get? key = some old ∧
          (row = old ∨ row.snapshot.state = .expired) := by
  simp only [offerTransaction, ok_iff, Prod.exists] at succeeded
  rcases succeeded with ⟨opened, offersExpired, expiredOk, nativeRank, _, active, activeOk, native,
    _, reservedStore, reserved, changed, reservedOk, final, finalOk, rfl⟩
  have first := frame_expireReservations store (max input.now store.scheduleMs)
  have unmoved : GrantsKeyed (expireReservations store (max input.now store.scheduleMs)).1.grants :=
    keyed
  have expired := expireOffers_eq_ok config topology store.domains unmoved expiredOk
  have held := untouched_remoteReserved reservedOk
  have retained := untouched_retainReservation topology config.impactIncompatibilities
    (max input.now store.scheduleMs)
    (reserved.insertionSort fun left right =>
      scheduleOrder left.rank right.rank = .lt ∨
        (scheduleOrder left.rank right.rank = .eq ∧ left.owner.le right.owner = true))
    ⟨reservedStore, [], false, []⟩
  have entered := held.trans retained
  refine ⟨opened, _, final, _, ⟨first.trans expired.1, expired.2, activeOk, entered.1, entered.2,
    List.takeWhile_sublist _, finalOk, ?_, ?_⟩, ?_⟩
  · dsimp only
    split
    · exact .of_candidates rfl (Table.Evolves.refl (fun _ => SameCandidate.refl) _) (.refl _)
    · exact PassFrame.refl _
  · dsimp only
    split <;> rfl
  · intro key row found
    have origin := expireOffers_origin expiredOk found
    exact origin

/-- The effect of a whole pass on the tables. -/
theorem offerTransaction_eq_ok (grantsKeyed : GrantsKeyed store.grants)
    (candidatesKeyed : CandidatesKeyed store.candidates)
    (succeeded : offerTransaction config topology input view store = .ok result) :
    PassFrame store result.store ∧
      Relation.ReflTransGen (GrantsPass config topology store.domains) store.grants
        result.store.grants := by
  rcases passStages grantsKeyed succeeded with ⟨opened, entered, final, tried, stages, _⟩
  have readyKeyed := candidatesKeyed.evolve stages.opens.candidates
  have loop := offerLoop store.domains ((stages.ready.map _).nodup (nodup_ready readyKeyed)) (by
    intro entry member
    have ready := idle_of_ready readyKeyed (stages.ready.mem member)
    rw [stages.opens.domains] at ready
    rw [stages.sameGrants]
    exact ready) stages.loop
  refine ⟨((stages.opens.trans stages.enters).trans loop.1).trans stages.frame, ?_⟩
  rw [stages.grants]
  refine stages.expires.trans ?_
  rw [← stages.sameGrants]
  exact loop.2

/-! ## Where Offers come from -/

/-- The main loop leaves the Grants of all other keys alone. -/
theorem offerLoop_other {next : OfferState}
    (folded : entries.foldlM (offerCandidate config topology now fresh) state = .ok next)
    (absent : ∀ entry ∈ entries, entry.1.key ≠ key) :
    next.store.grants.get? key = state.store.grants.get? key := by
  apply foldlM_invariant (fun reached : OfferState =>
    reached.store.grants.get? key = state.store.grants.get? key) _ rfl folded
  intro reached entry after member held round
  obtain ⟨_, effect⟩ := offerCandidate_eq_ok round
  obtain ⟨same, _⟩ | ⟨_, _, _, _, _, _, _, _, written⟩ := effect
  · rw [same, held]
  · rw [written, get?_writeGrant _ _ _ (absent entry member).symm, held]

/-- A Grant that is there after a pass was there before, as it is or not yet
expired, or its candidate is ready. -/
theorem grant_of_pass (grantsKeyed : GrantsKeyed store.grants)
    (keyed : CandidatesKeyed store.candidates)
    (succeeded : offerTransaction config topology input view store = .ok result)
    (found : result.store.grants.get? key = some row) :
    (∃ old, store.grants.get? key = some old ∧ (row = old ∨ row.snapshot.state = .expired)) ∨
      ∃ candidate, store.candidates.get? key = some candidate ∧ candidate.state = .ready := by
  obtain ⟨opened, entered, final, entries, stages, origin⟩ := passStages grantsKeyed succeeded
  rw [stages.grants] at found
  by_cases tried : ∃ entry ∈ entries, entry.1.key = key
  · obtain ⟨entry, listed, rfl⟩ := tried
    have ready := stages.ready.subset listed
    rw [readyCandidates, List.mem_insertionSort] at ready
    obtain ⟨stored, candidate, present, picked⟩ := Table.mem_select.mp ready
    split at picked
    · next conditions =>
      obtain ⟨_, _, rfl⟩ := Option.map_eq_some_iff.mp picked
      obtain ⟨old, foundOld, same⟩ := stages.opens.candidates.origin present
      refine .inr ⟨old, ?_, ?_⟩
      · rw [same, (keyed stored old foundOld).1]
        exact foundOld
      · rw [same] at conditions
        exact conditions.1
    · cases picked
  · rw [offerLoop_other stages.loop fun entry member same => tried ⟨entry, member, same⟩,
      stages.sameGrants] at found
    exact .inl (origin key row found)

theorem offered_of_pass (grantsKeyed : GrantsKeyed store.grants)
    (keyed : CandidatesKeyed store.candidates)
    (succeeded : offerTransaction config topology input view store = .ok result)
    (found : result.store.grants.get? key = some row) (offered : row.snapshot.state = .offered) :
    store.grants.get? key = some row ∨
      ∃ candidate, store.candidates.get? key = some candidate ∧ candidate.state = .ready := by
  obtain ⟨old, present, rfl | expired⟩ | ready := grant_of_pass grantsKeyed keyed succeeded found
  · exact .inl present
  · rw [expired] at offered
    cases offered
  · exact .inr ready

end Stillyard
