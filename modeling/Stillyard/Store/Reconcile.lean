import Stillyard.Store.Fence

/-!
# Reconciliation

A connection, or an accepted `ReconcileBegin`, closes its domain until a
`ReconcileCommit` is accepted: meanwhile the domain gets no Offer, arms none,
starts nothing and admits no candidate.  A committed snapshot names every
outstanding Grant of the domain as the coordinator has it and nothing that the
coordinator does not know, and only the allocations that it seals change.
-/

namespace Stillyard

open Relational Fallible

variable {after before : Table AllocationKey GrantRow} {released : List AllocationKey}
  {commits : List (Request × Outcome)} {endSequence : Nat} {new : GrantRow} {row : DomainRow}
  {entry : Request × Outcome}

variable {config : CoordinatorConfig} {store next : MachineStore} {request : Request} {now : Int}
  {domain : ExecutionDomainId} {key : AllocationKey}

/-- The record is of a Grant as the tables have it, or it claims no right. -/
def Recognized (grants : Table AllocationKey GrantRow) (record : ReconcileAllocation) : Prop :=
  grants.get? record.key = none ∧ record.offerNonce = 0 ∧ record.tickets = [] ∧
      record.sealedRelease = none ∨
    ∃ row, grants.get? record.key = some row ∧ record.offerNonce = row.snapshot.offerNonce ∧
      record.tickets = row.snapshot.tickets

/-- What a record does to its Grant: a seal releases it under the checks of
`Command::Release`, and without a seal it stays as it is. -/
def Settles (record : ReconcileAllocation) (now : Int)
    (before after : Table AllocationKey GrantRow) : Prop :=
  (record.sealedRelease = none → after.get? record.key = before.get? record.key) ∧
    ∀ release, record.sealedRelease = some release →
      ∃ old, before.get? record.key = some old ∧ Releasable old.snapshot release ∧
        after.get? record.key = some { old with snapshot := old.snapshot.release release now }

/-- What one record checks and changes. -/
theorem reconcileRecord_checks {state after : MachineStore × List AllocationKey}
    (succeeded : reconcileRecord session now state record = .ok after) :
    Recognized state.1.grants record ∧
      (∀ key, key ≠ record.key → after.1.grants.get? key = state.1.grants.get? key) ∧
      Settles record now state.1.grants after.1.grants ∧
      after.2 = state.2 ++ ([record].filter fun record => record.sealedRelease.isSome).map
        ReconcileAllocation.key := by
  unfold reconcileRecord at succeeded
  split at succeeded
  · next unknown =>
    simp only [ok_iff, test_iff, List.isEmpty_iff,
      Option.isNone_iff_eq_none]
      at succeeded
    obtain ⟨_, ⟨⟨nonce, tickets⟩, unsealed⟩, rfl⟩ := succeeded
    refine ⟨.inl ⟨Table.get?_eq_none.mpr unknown, nonce, tickets, unsealed⟩, fun _ _ => rfl,
      ⟨fun _ => rfl, ?_⟩, by simp [unsealed]⟩
    intro release sealed
    cases unsealed.symm.trans sealed
  · simp only [ok_iff, test_iff] at succeeded
    obtain ⟨grant, loaded, _, ⟨nonce, tickets⟩, succeeded⟩ := succeeded
    obtain ⟨row, found, rfl, _⟩ := loadGrant_eq_ok loaded
    refine ⟨.inr ⟨row, found, nonce, tickets⟩, ?_⟩
    split at succeeded
    · next unsealed =>
      rw [pure_eq_ok] at succeeded
      subst succeeded
      refine ⟨fun _ _ => rfl, ⟨fun _ => rfl, ?_⟩, by simp [unsealed]⟩
      intro release sealed
      cases unsealed.symm.trans sealed
    · next release sealed =>
      simp only [ok_iff, Prod.exists, test_iff] at succeeded
      obtain ⟨_, ⟨sameKey, _⟩, saved, released, applied, rfl⟩ := succeeded
      obtain ⟨other, identities, _, foundOther, releasable, _, _, rfl⟩ :=
        applyRelease_eq_ok applied
      rw [sameKey] at foundOther
      cases found.symm.trans foundOther
      have own : (row.snapshot.release release now).candidate.key = record.key :=
        releasable.key.trans sameKey
      refine ⟨?_, ⟨?_, ?_⟩, by simp [sealed]⟩
      · intro key different
        exact get?_writeGrant _ _ none (own ▸ different)
      · intro unsealed
        cases unsealed.symm.trans sealed
      · intro other sealedBy
        cases sealed.symm.trans sealedBy
        refine ⟨row, found, releasable, ?_⟩
        dsimp only [MachineStore.withRelease, MachineStore.withGrant]
        rw [writeGrant, own, Table.get?_update, if_pos rfl, found]
        rfl

/-- What the records of a snapshot check and change.  Each record has its own
key, so no record sees what another one changed. -/
theorem reconcileRecords_check {records : List ReconcileAllocation}
    (distinct : (records.map ReconcileAllocation.key).Nodup)
    (folded : records.foldlM (reconcileRecord session now) (store, prior) =
      .ok (middle, released)) :
    (∀ record ∈ records, Recognized store.grants record) ∧
      (∀ key, key ∉ records.map ReconcileAllocation.key →
        middle.grants.get? key = store.grants.get? key) ∧
      (∀ record ∈ records, Settles record now store.grants middle.grants) ∧
      released = prior ++ (records.filter fun record => record.sealedRelease.isSome).map
        ReconcileAllocation.key := by
  induction records generalizing store prior with
  | nil =>
    cases folded
    exact ⟨nofun, fun _ _ => rfl, nofun, by simp⟩
  | cons first rest ih =>
    rw [List.foldlM_cons, bind_eq_ok] at folded
    obtain ⟨after, once, others⟩ := folded
    rw [List.map_cons, List.nodup_cons] at distinct
    obtain ⟨recognized, untouched, changed, listed⟩ := reconcileRecord_checks once
    obtain ⟨allRecognized, allUntouched, allChanged, allListed⟩ := ih distinct.2 others
    have apart : ∀ record ∈ rest, record.key ≠ first.key := by
      intro record member same
      exact distinct.1 (same ▸ List.mem_map_of_mem member)
    refine ⟨?_, ?_, ?_, ?_⟩
    · intro record member
      obtain rfl | member := List.mem_cons.mp member
      · exact recognized
      · have known := allRecognized record member
        rw [Recognized, untouched _ (apart record member)] at known
        exact known
    · intro key absent
      rw [List.map_cons, List.mem_cons, not_or] at absent
      rw [allUntouched key absent.2, untouched key absent.1]
    · intro record member
      obtain rfl | member := List.mem_cons.mp member
      · rw [Settles, allUntouched record.key distinct.1]
        exact changed
      · have settled := allChanged record member
        rw [Settles, untouched _ (apart record member)] at settled
        exact settled
    · rw [allListed, listed, List.append_assoc, ← List.map_append, ← List.filter_append,
        List.singleton_append]

/-- Every Grant is of a stored candidate. -/
def CandidateBacked (store : MachineStore) : Prop :=
  ∀ key row, store.grants.get? key = some row → (store.candidates.get? key).isSome

theorem Applied.keepsCandidate
    (applied : Applied config request recovering authorityClosed now store next outcome)
    (present : (store.candidates.get? key).isSome) : (next.candidates.get? key).isSome := by
  cases applied with
  | acknowledge | wait | start | armAgain | arm | doubt | inspectPage | inspect | reconcileBegin
  | reconcilePage => exact present
  | release =>
    rw [MachineStore.withRelease, Table.get?_update]
    split
    · rw [Option.isSome_map]
      exact present
    · exact present
  | upsert | withdraw | withdrawOffer =>
    rw [Table.get?_set]
    split
    · rfl
    · exact present
  | reconcileCommit asked begun complete distinct covers folded =>
    dsimp only
    rw [(reconcileRecords_lookup folded).2.2 key]
    split
    · rw [Option.isSome_map]
      exact present
    · exact present

theorem Committed.keepsCandidate (committed : Committed config request outcome store next)
    (present : (store.candidates.get? key).isSome) : (next.candidates.get? key).isSome := by
  obtain ⟨row, applied, _, attempted, agrees⟩ := committed
  rw [agrees.candidates key]
  cases attempted with
  | refused base =>
    rw [← base.candidates key] at present
    exact present
  | applied base effect =>
    rw [← base.candidates key] at present
    exact effect.keepsCandidate present

theorem StoreStep.backsCandidates (keyed : Keyed store) (backed : CandidateBacked store)
    (step : StoreStep config store commits next) : CandidateBacked next := by
  cases step with
  | commit committed =>
    intro key row found
    obtain ⟨old, foundOld, _⟩ := (committed.evolves keyed.grants).origin found
    exact committed.keepsCandidate (backed key old foundOld)
  | challenge => exact backed
  | session =>
    intro key row found
    rw [installSession, Table.get?_modify, Option.isSome_map]
    exact backed key row found
  | pass made =>
    obtain ⟨frame, _⟩ := offerTransaction_eq_ok keyed.grants keyed.candidates made
    intro key row found
    have present : (store.candidates.get? key).isSome := by
      obtain ⟨old, foundOld, _⟩ | ⟨candidate, ready, _⟩ :=
        grant_of_pass keyed.grants keyed.candidates made found
      · exact backed key old foundOld
      · exact Option.isSome_of_eq_some ready
    obtain ⟨candidate, foundCandidate⟩ := Option.isSome_iff_exists.mp present
    obtain ⟨new, foundNew, _⟩ := frame.candidates.lookup foundCandidate
    exact Option.isSome_of_eq_some foundNew
  | native same =>
    intro key row found
    rw [← same.candidates key]
    exact backed key row ((same.grants key).trans found)

/-- Every begun snapshot has the identity of its manifest. -/
def ManifestsNamed (store : MachineStore) : Prop :=
  ∀ domain row, store.reconciles.get? domain = some row →
    ∃ beginSequence endSequence pageCount digest configurationSha256, row.manifest =
      .reconcileBegin row.snapshotId beginSequence endSequence pageCount digest configurationSha256

theorem Applied.manifestsNamed (named : ManifestsNamed store)
    (applied : Applied config request recovering authorityClosed now store next outcome) :
    ManifestsNamed next := by
  cases applied with
  | acknowledge | wait | start | armAgain | arm | doubt | release | withdraw | withdrawOffer
  | inspectPage | inspect => exact named
  | upsert asked queue =>
    obtain rfl | rfl := queue
    · exact named
    · unfold MachineStore.enqueueOwner
      split <;> exact named
  | reconcileBegin asked =>
    intro domain row found
    rcases Table.get?_set_eq_some.mp found with ⟨_, rfl⟩ | ⟨_, known⟩
    · exact ⟨_, _, _, _, _, asked⟩
    · exact named domain row known
  | @reconcilePage snapshotId index allocations begunRow asked begun =>
    intro domain row found
    rcases Table.get?_set_eq_some.mp found with ⟨_, rfl⟩ | ⟨_, known⟩
    · exact named _ begunRow begun
    · exact named domain row known
  | reconcileCommit asked begun complete distinct covers folded =>
    have frame := (evolves_of_reconcileRecords request (fun _ => True) (fun _ _ _ _ => trivial)
      folded).2
    intro domain row found
    rw [frame] at found
    simp only [Table.get?_erase] at found
    split at found
    · cases found
    · exact named domain row found

theorem StoreStep.manifestsNamed (keyed : Keyed store) (named : ManifestsNamed store)
    (step : StoreStep config store commits next) : ManifestsNamed next := by
  cases step with
  | commit committed =>
    obtain ⟨row, applied, _, attempted, agrees⟩ := committed
    have kept : ManifestsNamed applied := by
      cases attempted with
      | refused base =>
        rw [ManifestsNamed, base.reconciles]
        exact named
      | applied base effect =>
        refine effect.manifestsNamed ?_
        rw [ManifestsNamed, base.reconciles]
        exact named
    rw [ManifestsNamed, agrees.reconciles]
    exact kept
  | challenge => exact named
  | session =>
    intro domain row found
    simp only [installSession, Table.get?_erase] at found
    split at found
    · cases found
    · exact named domain row found
  | pass made =>
    rw [ManifestsNamed, (offerTransaction_eq_ok keyed.grants keyed.candidates made).1.reconciles]
    exact named
  | native same =>
    rw [ManifestsNamed, ← same.reconciles]
    exact named

/-- What every transaction keeps holds after a run of them. -/
theorem StoreRun.invariant {holds : MachineStore → Prop}
    (kept : ∀ store commits next, Keyed store → holds store →
      StoreStep config store commits next → holds next)
    (keyed : Keyed store) (held : holds store) (run : StoreRun config store commits next) :
    holds next := by
  induction run with
  | refl => exact held
  | step one _ ih => exact ih (one.keyed keyed) (kept _ _ _ keyed held one)

/-! ## Committed snapshots -/

/-- The request commits the snapshot `pages` of its domain and answers `released`. -/
structure Reconciles (request : Request) (pages : List (List ReconcileAllocation))
    (released : List AllocationKey) (now : Int) (store next : MachineStore) : Prop where
  /-- The accepted pages have the digest of the manifest that was begun. -/
  begun : ∃ snapshotId row beginSequence endSequence pageCount configurationSha256,
    request.command = .reconcileCommit snapshotId ∧
      store.reconciles.get? request.session.domainId = some row ∧
      row.manifest = .reconcileBegin snapshotId beginSequence endSequence pageCount pages
        configurationSha256 ∧
      row.pages.mapM id = some pages
  /-- Every outstanding Grant of the domain is listed as it is. -/
  listed : ∀ key grant, key.domainId = request.session.domainId →
    store.grants.get? key = some grant → grant.snapshot.state.outstanding = true →
      ∃ record ∈ pages.flatten, record.key = key ∧
        record.offerNonce = grant.snapshot.offerNonce ∧ record.tickets = grant.snapshot.tickets
  /-- No start right is listed that the tables do not have. -/
  recognized : ∀ record ∈ pages.flatten, Recognized store.grants record
  /-- Every Grant that is listed with a seal is released by it, under the checks of a
  `Release` command. -/
  settled : ∀ record ∈ pages.flatten, Settles record now store.grants next.grants
  /-- All other Grants stay as they are. -/
  unchanged : ∀ key, (∀ record ∈ pages.flatten, record.key = key → record.sealedRelease = none) →
    next.grants.get? key = store.grants.get? key
  /-- The answer names the released Grants. -/
  answered : ∀ key, key ∈ released ↔
    ∃ record ∈ pages.flatten, record.key = key ∧ record.sealedRelease.isSome

theorem coverGrant_eq_ok (covered : coverGrant inventory key grant = .ok ()) :
    ∃ record ∈ inventory, record.key = key ∧ record.offerNonce = grant.offerNonce ∧
      record.tickets = grant.tickets := by
  simp only [coverGrant, ok_iff, test_iff] at covered
  obtain ⟨record, found, nonce, tickets⟩ := covered
  refine ⟨record, List.mem_of_find?_eq_some found, ?_, nonce, tickets⟩
  simpa using List.find?_some found

theorem mem_outstandingGrants (keyed : CandidatesKeyed store.candidates)
    (backed : CandidateBacked store) (found : store.grants.get? key = some grant)
    (outstanding : grant.snapshot.state.outstanding = true) :
    (key, grant.snapshot) ∈ outstandingGrants store key.domainId := by
  obtain ⟨candidate, present⟩ := Option.isSome_iff_exists.mp (backed key grant found)
  refine Table.mem_select.mpr ⟨key, grant, found, ?_⟩
  rw [if_pos]
  simp [present, outstanding, (keyed key candidate present).2]

theorem Committed.reconciles (keyed : Keyed store) (backed : CandidateBacked store)
    (named : ManifestsNamed store)
    (committed : Committed config request (.reconciled endSequence released) store next) :
    ∃ pages now, Reconciles request pages released now store next := by
  obtain ⟨domainRow, applied, _, attempted, agrees⟩ := committed
  cases attempted with
  | @applied _ clock base _ _ same effect =>
    cases effect with
    | @reconcileCommit snapshotId row pages middle _ _ asked begun complete distinct covers folded
        manifest =>
        obtain ⟨rfl, first, beginSequence, pageCount, configuration, manifest⟩ := manifest
        rw [same.reconciles] at begun
        obtain ⟨_, _, _, _, _, own⟩ := named _ _ begun
        obtain rfl : first = row.snapshotId :=
          (Command.reconcileBegin.inj (manifest.symm.trans own)).1
        have baseBacked : CandidateBacked base := by
          intro key grant found
          rw [same.candidates key]
          exact backed key grant ((same.grants key).symm.trans found)
        have sorted := List.perm_insertionSort
          (fun left right : ReconcileAllocation => left.key.le right.key) pages.flatten
        obtain ⟨recognized, untouched, settled, listed⟩ := reconcileRecords_check
          ((sorted.map ReconcileAllocation.key).nodup_iff.mpr distinct) folded
        have kept : ∀ record ∈ pages.flatten, Settles record clock store.grants next.grants := by
          intro record member
          have settles := settled record (sorted.mem_iff.mpr member)
          rw [Settles, same.grants] at settles
          rw [Settles, agrees.grants]
          exact settles
        refine ⟨pages, clock, ⟨_, row, beginSequence, endSequence, pageCount, configuration, asked,
          begun, manifest, complete⟩, ?_, ?_, kept, ?_, ?_⟩
        · intro key grant named found outstanding
          have listed := mem_outstandingGrants (keyed.agrees same.symm).candidates baseBacked
            ((same.grants key).trans found) outstanding
          rw [named] at listed
          exact coverGrant_eq_ok (covers _ listed)
        · intro record member
          have known := recognized record (sorted.mem_iff.mpr member)
          rw [Recognized, same.grants record.key] at known
          exact known
        · intro key unsealed
          by_cases present : key ∈ pages.flatten.map ReconcileAllocation.key
          · obtain ⟨record, member, rfl⟩ := List.mem_map.mp present
            exact (kept record member).1 (unsealed record member rfl)
          · rw [agrees.grants key, ← same.grants key]
            refine untouched key ?_
            rw [(sorted.map ReconcileAllocation.key).mem_iff]
            exact present
        · intro key
          rw [listed, List.nil_append]
          simp only [List.mem_map, List.mem_filter, sorted.mem_iff]
          constructor
          · rintro ⟨record, ⟨member, sealed⟩, rfl⟩
            exact ⟨record, member, rfl, sealed⟩
          · rintro ⟨record, member, rfl, sealed⟩
            exact ⟨record, ⟨member, sealed⟩, rfl⟩

/-! ## A domain that reconciles -/

/-- `machine_domains.reconciliation_required`. -/
def MachineStore.Reconciling (store : MachineStore) (domain : ExecutionDomainId) : Prop :=
  ∃ row, store.domains.get? domain = some row ∧ row.reconciliationRequired = true

/-- The Grant has no Offer, arming or start right that it had not before. -/
structure GivesNothing (old new : GrantSnapshot) : Prop where
  offer : new.state = .offered → old.state = .offered ∧ new.offerNonce = old.offerNonce
  arm : new.state.mayRun = true → old.state.mayRun = true
  tickets : new.tickets = old.tickets

/-- No Grant is new, and none has a new right. -/
def Withholds (before after : Table AllocationKey GrantRow) : Prop :=
  ∀ key new, after.get? key = some new →
    ∃ old, before.get? key = some old ∧ GivesNothing old.snapshot new.snapshot

theorem GivesNothing.refl (grant : GrantSnapshot) : GivesNothing grant grant :=
  ⟨fun offered => ⟨offered, rfl⟩, id, rfl⟩

theorem GivesNothing.trans (earlier : GivesNothing first second)
    (later : GivesNothing second third) : GivesNothing first third where
  offer offered := by
    rcases later.offer offered with ⟨before, same⟩
    rcases earlier.offer before with ⟨first, equal⟩
    exact ⟨first, same.trans equal⟩
  arm runs := earlier.arm (later.arm runs)
  tickets := later.tickets.trans earlier.tickets

theorem Withholds.of_same (same : ∀ key, after.get? key = before.get? key) :
    Withholds before after :=
  fun key new found => ⟨new, (same key).symm.trans found, .refl _⟩

/-- Moves that neither arm nor start. -/
theorem GrantMove.givesNothing {old new : GrantSnapshot}
    (unarmed : ∀ key offerNonce, request.command ≠ .arm key offerNonce)
    (unstarted : request.command.authorizes = false) (move : GrantMove request carried old new) :
    GivesNothing old new := by
  cases move with
  | expire | release => exact ⟨nofun, nofun, rfl⟩
  | arm _ _ asked => exact absurd asked (unarmed _ _)
  | doubt _ armed => exact ⟨nofun, fun _ => armed, rfl⟩
  | start _ _ asked =>
    rw [asked] at unstarted
    cases unstarted

/-- While the domain reconciles or the authority is closed, a command gives no
right. -/
theorem Applied.withholds (keyed : GrantsKeyed store.grants)
    (closed : recovering = true ∨ authorityClosed = true)
    (applied : Applied config request recovering authorityClosed now store next outcome) :
    Withholds store.grants next.grants := by
  have moved : (∀ key offerNonce, request.command ≠ .arm key offerNonce) →
      request.command.authorizes = false → Withholds store.grants next.grants := by
    intro unarmed unstarted key new found
    rcases (applied.evolves keyed).origin found with ⟨old, foundOld, _, moves⟩
    refine ⟨old, foundOld, ?_⟩
    exact Transition.run_relates GivesNothing.refl
      (fun earlier last => earlier.trans (last.givesNothing unarmed unstarted)) moves
  cases applied with
  | start _ _ _ _ open_ _ _ _ _ _ _ _ _ _ unblocked | arm _ _ _ _ _ open_ _ _ _ unblocked =>
    simp [open_, unblocked] at closed
  | wait | armAgain => exact .of_same fun _ => rfl
  | withdraw asked | withdrawOffer asked =>
    rcases asked with ⟨asked, _⟩ | ⟨asked, _⟩ <;> exact moved (by simp [asked]) (by rw [asked]; rfl)
  | acknowledge asked | doubt asked | release asked | upsert asked | inspectPage asked
  | inspect asked | reconcileBegin asked | reconcilePage asked | reconcileCommit asked =>
    exact moved (by simp [asked]) (by rw [asked]; rfl)

/-- The domain got no Offer, armed none, started nothing and admitted no
candidate. -/
structure GivenNothing (domain : ExecutionDomainId) (before after : MachineStore) : Prop where
  grants : ∀ key new, key.domainId = domain → after.grants.get? key = some new →
    ∃ old, before.grants.get? key = some old ∧ GivesNothing old.snapshot new.snapshot
  candidates : ∀ key new, key.domainId = domain → after.candidates.get? key = some new →
    new.state = .ready → ∃ old, before.candidates.get? key = some old ∧ old.state = .ready ∧
      new.candidate = old.candidate

/-- The operation is an accepted `ReconcileCommit` of the domain. -/
def CommitsSnapshot (domain : ExecutionDomainId) (entry : Request × Outcome) : Prop :=
  entry.1.session.domainId = domain ∧
    ∃ endSequence released, entry.2 = .reconciled endSequence released

/-- The operation gives the domain a ticket or admits its candidate. -/
def GivesDomain (domain : ExecutionDomainId) (entry : Request × Outcome) : Prop :=
  entry.1.session.domainId = domain ∧
    ((∃ ticket, entry.2 = .ticket ticket) ∨
      ∃ candidate revision, entry.1.command = .candidateUpsert candidate ∧
        entry.2 = .accepted revision)

theorem GivenNothing.refl (domain : ExecutionDomainId) (store : MachineStore) :
    GivenNothing domain store store :=
  ⟨fun _ new _ found => ⟨new, found, .refl _⟩, fun _ new _ found ready => ⟨new, found, ready, rfl⟩⟩

theorem GivenNothing.trans (earlier : GivenNothing domain first second)
    (later : GivenNothing domain second third) : GivenNothing domain first third := by
  constructor
  · intro key new named found
    obtain ⟨middle, foundMiddle, last⟩ := later.grants key new named found
    obtain ⟨old, foundOld, start⟩ := earlier.grants key middle named foundMiddle
    exact ⟨old, foundOld, start.trans last⟩
  · intro key new named found ready
    obtain ⟨middle, foundMiddle, wasReady, same⟩ := later.candidates key new named found ready
    obtain ⟨old, foundOld, firstReady, equal⟩ :=
      earlier.candidates key middle named foundMiddle wasReady
    exact ⟨old, foundOld, firstReady, same.trans equal⟩

/-- A request moves no Grant of another domain. -/
theorem RowMoves.foreign (keyed : old.snapshot.candidate.key = key)
    (other : request.session.domainId ≠ key.domainId)
    (moves : RowMoves request sealed key old new) :
    new.snapshot = old.snapshot := by
  obtain same | ⟨_, first, _⟩ := moves.2.cases_head
  · exact same.symm
  · have owns : request.session.owns old.snapshot.candidate.key = true := by
      cases first <;> assumption
    rw [keyed] at owns
    exact absurd (owns_domainId owns).symm other

theorem MachineStore.Reconciling.evolve (evolves : Table.Evolves (fun _ (old new : DomainRow) =>
      old.reconciliationRequired = true → new.reconciliationRequired = true)
      store.domains next.domains) (reconciling : store.Reconciling domain) :
    next.Reconciling domain := by
  obtain ⟨row, found, required⟩ := reconciling
  obtain ⟨new, foundNew, kept⟩ := evolves.lookup found
  exact ⟨new, foundNew, kept required⟩

/-- Only a committed snapshot ends a reconciliation. -/
theorem Applied.reconciling (reconciling : store.Reconciling domain)
    (applied : Applied config request recovering authorityClosed now store next outcome) :
    next.Reconciling domain ∨ CommitsSnapshot domain (request, outcome) := by
  cases applied with
  | wait | start | armAgain | arm | doubt | release | withdraw | withdrawOffer | inspectPage
  | inspect | reconcilePage => exact .inl reconciling
  | acknowledge =>
    left
    apply reconciling.evolve
    apply Table.evolves_update (fun _ _ => id)
    exact fun _ _ => id
  | reconcileBegin =>
    left
    apply reconciling.evolve
    apply Table.evolves_update (fun _ _ => id)
    exact fun _ _ _ => rfl
  | upsert asked queue upserted =>
    left
    obtain rfl | rfl := queue
    · exact reconciling
    · unfold MachineStore.enqueueOwner
      split <;> exact reconciling
  | reconcileCommit asked begun complete distinct covers folded =>
    by_cases named : request.session.domainId = domain
    · exact .inr ⟨named, _, _, rfl⟩
    · left
      obtain ⟨row, found, required⟩ := reconciling
      refine ⟨row, ?_, required⟩
      have frame := (evolves_of_reconcileRecords request (fun _ => True)
        (fun _ _ _ _ => trivial) folded).2
      dsimp only
      rw [Table.get?_update, if_neg (Ne.symm named), frame]
      exact found

theorem Committed.reconciling (reconciling : store.Reconciling domain)
    (committed : Committed config request outcome store next) :
    next.Reconciling domain ∨ CommitsSnapshot domain (request, outcome) := by
  obtain ⟨row, applied, _, attempted, agrees⟩ := committed
  have effect : applied.Reconciling domain ∨ CommitsSnapshot domain (request, outcome) := by
    cases attempted with
    | refused base =>
      left
      rw [MachineStore.Reconciling, base.domains]
      exact reconciling
    | applied base effect =>
      refine effect.reconciling ?_
      rw [MachineStore.Reconciling, base.domains]
      exact reconciling
  obtain still | commits := effect
  · left
    rw [MachineStore.Reconciling, agrees.domains]
    apply still.evolve
    apply Table.evolves_update (fun _ _ => id)
    exact fun _ _ => id
  · exact .inr commits

/-- A candidate that is ready after a command was ready before, or the command
admitted it. -/
theorem Applied.ready {new : CandidateRow}
    (applied : Applied config request recovering authorityClosed now store next outcome)
    (found : next.candidates.get? key = some new) (ready : new.state = .ready) :
    (∃ old, store.candidates.get? key = some old ∧ old.state = .ready ∧
      new.candidate = old.candidate) ∨
      recovering = false ∧ request.session.domainId = key.domainId := by
  cases applied with
  | acknowledge | wait | start | armAgain | arm | doubt | inspectPage | inspect | reconcileBegin
  | reconcilePage => exact .inl ⟨new, found, ready, rfl⟩
  | release =>
    obtain ⟨_, _, _, rfl⟩ | ⟨_, found⟩ := Table.get?_update_eq_some.mp found
    · cases ready
    · exact .inl ⟨new, found, ready, rfl⟩
  | upsert asked queue upserted open_ =>
    obtain ⟨rfl, _⟩ | ⟨_, found⟩ := Table.get?_set_eq_some.mp found
    · have valid := upserted.valid
      simp only [validateCandidate, bind_eq_ok, owned_eq_ok] at valid
      obtain ⟨_, ⟨owns, _⟩, _⟩ := valid
      exact .inr ⟨open_, (owns_domainId owns).symm⟩
    · exact .inl ⟨new, found, ready, rfl⟩
  | withdraw asked | withdrawOffer asked =>
    obtain ⟨_, rfl⟩ | ⟨_, found⟩ := Table.get?_set_eq_some.mp found
    · obtain ⟨_, rfl⟩ | ⟨_, rfl⟩ := asked <;> cases ready
    · exact .inl ⟨new, found, ready, rfl⟩
  | reconcileCommit asked begun complete distinct covers folded =>
    dsimp only at found
    rw [(reconcileRecords_lookup folded).2.2 key] at found
    split at found
    · obtain ⟨_, _, rfl⟩ := Option.map_eq_some_iff.mp found
      cases ready
    · exact .inl ⟨new, found, ready, rfl⟩

/-- A command on behalf of a domain that reconciles gives neither a ticket nor a
candidate. -/
theorem Applied.gives
    (applied : Applied config request true authorityClosed now store next outcome) :
    ¬ GivesDomain domain (request, outcome) := by
  rintro ⟨_, ⟨ticket, ticketed⟩ | ⟨candidate, revision, asked, accepted⟩⟩
  · dsimp only at ticketed
    subst ticketed
    cases applied with
    | start _ _ _ _ open_ => cases open_
  · dsimp only at asked accepted
    subst accepted
    cases applied with
    | upsert _ _ _ open_ => cases open_
    | withdraw other | withdrawOffer other | reconcileBegin other | reconcilePage other =>
      simp [asked] at other

/-- An operation gives nothing to a domain that reconciles. -/
theorem Committed.givenNothing (keyed : Keyed store) (reconciling : store.Reconciling domain)
    (committed : Committed config request outcome store next) :
    GivenNothing domain store next ∧ ¬ GivesDomain domain (request, outcome) := by
  have evolves := committed.evolves keyed.grants
  obtain ⟨row, applied, inSequence, attempted, agrees⟩ := committed
  have required : request.session.domainId = domain → row.reconciliationRequired = true := by
    rintro rfl
    obtain ⟨other, found, required⟩ := reconciling
    cases inSequence.known.symm.trans found
    exact required
  refine ⟨⟨?_, ?_⟩, ?_⟩
  · intro key new named found
    by_cases own : request.session.domainId = key.domainId
    · rw [agrees.grants key] at found
      change applied.grants.get? key = some new at found
      cases attempted with
      | refused base => exact ⟨new, (base.grants key).symm.trans found, .refl _⟩
      | applied base effect =>
        obtain ⟨old, foundOld, nothing⟩ := effect.withholds (keyed.agrees base.symm).grants
          (.inl (required (own.trans named))) key new found
        exact ⟨old, (base.grants key).symm.trans foundOld, nothing⟩
    · obtain ⟨old, foundOld, moves⟩ := evolves.origin found
      have same := moves.foreign (keyed.grants key old foundOld) own
      exact ⟨old, foundOld, same ▸ .refl _⟩
  · intro key new named found ready
    rw [agrees.candidates key] at found
    change applied.candidates.get? key = some new at found
    cases attempted with
    | refused base => exact ⟨new, (base.candidates key).symm.trans found, ready, rfl⟩
    | applied base effect =>
      obtain ⟨old, foundOld, wasReady⟩ | ⟨open_, own⟩ := effect.ready found ready
      · exact ⟨old, (base.candidates key).symm.trans foundOld, wasReady⟩
      · rw [required (own.trans named)] at open_
        cases open_
  · intro gives
    cases attempted with
    | refused base =>
      obtain ⟨_, ⟨_, ticketed⟩ | ⟨_, _, _, accepted⟩⟩ := gives
      · cases ticketed
      · cases accepted
    | applied base effect =>
      rw [required gives.1] at effect
      exact effect.gives gives

/-- An admission pass gives nothing to a domain that reconciles. -/
theorem GrantsPass.givesNothing (pass : GrantsPass config topology domains before after)
    (known : domains.get? key.domainId = some row) (required : row.reconciliationRequired = true)
    (found : after.get? key = some new) :
    ∃ old, before.get? key = some old ∧ GivesNothing old.snapshot new.snapshot := by
  cases pass with
  | expire stored offered =>
    obtain ⟨same, old, foundOld, rfl⟩ | ⟨_, found⟩ := Table.get?_update_eq_some.mp found
    · rw [GrantSnapshot.expire] at same
      rw [← same, foundOld] at stored
      cases stored
      refine ⟨_, foundOld, ?_, ?_, rfl⟩
      · intro offer
        cases offer
      · intro arm
        cases arm
    · exact ⟨new, found, .refl _⟩
  | offer idle reconciled computed =>
    rw [writeGrant, Table.get?_set] at found
    split at found
    · next same =>
      have named : key.domainId = _ := congrArg AllocationKey.domainId same
      simp only [offeredGrant] at named
      rw [← named, known] at reconciled
      simp [required] at reconciled
    · exact ⟨new, found, .refl _⟩

theorem givesNothing_of_passes (known : domains.get? key.domainId = some row)
    (required : row.reconciliationRequired = true)
    (passes : Relation.ReflTransGen (GrantsPass config topology domains) before after)
    (new : GrantRow) (found : after.get? key = some new) :
    ∃ old, before.get? key = some old ∧ GivesNothing old.snapshot new.snapshot := by
  induction passes generalizing new with
  | refl => exact ⟨new, found, .refl _⟩
  | tail _ last ih =>
    obtain ⟨middle, foundMiddle, later⟩ := last.givesNothing known required found
    obtain ⟨old, foundOld, earlier⟩ := ih middle foundMiddle
    exact ⟨old, foundOld, earlier.trans later⟩

/-- A transaction other than a committed snapshot leaves the domain reconciling
and gives it nothing. -/
theorem StoreStep.reconciling (keyed : Keyed store) (reconciling : store.Reconciling domain)
    (uncommitted : ∀ entry ∈ commits, ¬ CommitsSnapshot domain entry)
    (step : StoreStep config store commits next) :
    next.Reconciling domain ∧ GivenNothing domain store next ∧
      ∀ entry ∈ commits, ¬ GivesDomain domain entry := by
  have none : ∀ entry ∈ ([] : List (Request × Outcome)), ¬ GivesDomain domain entry := by
    intro entry member
    cases member
  cases step with
  | commit committed =>
    obtain ⟨nothing, gives⟩ := committed.givenNothing keyed reconciling
    refine ⟨?_, nothing, ?_⟩
    · exact (committed.reconciling reconciling).resolve_right
        (uncommitted _ (List.mem_singleton_self _))
    · intro entry member
      rw [List.mem_singleton.mp member]
      exact gives
  | challenge => exact ⟨reconciling, ⟨(GivenNothing.refl domain store).grants,
      (GivenNothing.refl domain store).candidates⟩, none⟩
  | session =>
    refine ⟨?_, ⟨fun _ new _ found => ⟨new, found, .refl _⟩, ?_⟩, none⟩
    · apply reconciling.evolve
      apply Table.evolves_update (fun _ _ => id)
      exact fun _ _ _ => rfl
    · intro key new named found ready
      rw [installSession, Table.get?_modify] at found
      obtain ⟨old, foundOld, rfl⟩ := Option.map_eq_some_iff.mp found
      refine ⟨old, foundOld, ?_⟩
      split at ready <;> split <;> exact ⟨ready, rfl⟩
  | pass made =>
    obtain ⟨frame, moves⟩ := offerTransaction_eq_ok keyed.grants keyed.candidates made
    refine ⟨?_, ⟨?_, ?_⟩, none⟩
    · rw [MachineStore.Reconciling, frame.domains]
      exact reconciling
    · obtain ⟨row, known, required⟩ := reconciling
      intro key new named found
      subst named
      exact givesNothing_of_passes known required moves new found
    · intro key new named found ready
      obtain ⟨old, foundOld, same⟩ := frame.candidates.origin found
      rw [same] at ready ⊢
      exact ⟨old, foundOld, ready, rfl⟩
  | native same =>
    refine ⟨?_, ⟨?_, ?_⟩, none⟩
    · rw [MachineStore.Reconciling, ← same.domains]
      exact reconciling
    · exact fun key new _ found => ⟨new, (same.grants key).trans found, .refl _⟩
    · exact fun key new _ found ready =>
        ⟨new, (same.candidates key).trans found, ready, rfl⟩

theorem StoreRun.reconciling (keyed : Keyed store) (reconciling : store.Reconciling domain)
    (uncommitted : ∀ entry ∈ commits, ¬ CommitsSnapshot domain entry)
    (run : StoreRun config store commits next) :
    next.Reconciling domain ∧ GivenNothing domain store next ∧
      ∀ entry ∈ commits, ¬ GivesDomain domain entry := by
  induction run with
  | refl =>
    refine ⟨reconciling, .refl domain _, ?_⟩
    intro entry member
    cases member
  | step one _ ih =>
    obtain ⟨still, nothing, gives⟩ := one.reconciling keyed reconciling
      fun entry member => uncommitted entry (List.mem_append_left _ member)
    obtain ⟨after, later, givesLater⟩ := ih (one.keyed keyed) still
      fun entry member => uncommitted entry (List.mem_append_right _ member)
    refine ⟨after, nothing.trans later, ?_⟩
    intro entry member
    obtain first | rest := List.mem_append.mp member
    · exact gives entry first
    · exact givesLater entry rest

variable {coordinator after : Coordinator}

/-- The call part that commits the operation, with what it leaves: an exchange, or
completing the journal's intent. -/
inductive Transacts (config : CoordinatorConfig) (coordinator : Coordinator) :
    Request × Outcome → Coordinator → Prop where
  | exchanged {entry : Request × Outcome} {request : Request}
      (member : entry ∈ (exchangeRequest config input request coordinator).commits) :
      Transacts config coordinator entry
        (exchangeRequest config input request coordinator).coordinator
  | restored {entry : Request × Outcome}
      (member : entry ∈ (reconcilePending interrupted coordinator).commits) :
      Transacts config coordinator entry (reconcilePending interrupted coordinator).coordinator

theorem exchangeRequest_committed
    (member : entry ∈ (exchangeRequest config input request coordinator).commits) :
    Committed config entry.1 entry.2 coordinator.store
      (exchangeRequest config input request coordinator).coordinator.store := by
  cases admitted : admitRequest config (compactMachineRetirements coordinator) request with
  | error error =>
    simp only [exchangeRequest, admitted] at member
    cases member
  | ok row =>
    cases succeeded : exchangeTransaction config input request row
        (compactMachineRetirements coordinator) with
    | error error =>
      simp only [exchangeRequest, admitted, succeeded] at member
      cases member
    | ok prepared =>
      simp only [exchangeRequest, admitted, succeeded] at member ⊢
      obtain ⟨none, _⟩ | ⟨own, written⟩ := @commitExchange_writes request
        (compactMachineRetirements coordinator) input prepared
      · rw [none] at member
        cases member
      rw [own] at member
      rw [written, ← (compactMachineRetirements_frame coordinator).1]
      obtain replayed | ⟨applied, performed⟩ := exchangeTransaction_eq_ok admitted succeeded
      · rw [replayed.isNew] at member
        cases member
      · rw [performed.isNew] at member
        cases List.mem_singleton.mp member
        exact performed.committed

theorem reconcilePending_committed (sound : PendingSound config (fun _ => True) coordinator)
    (member : entry ∈ (reconcilePending interrupted coordinator).commits) :
    Committed config entry.1 entry.2 coordinator.store
      (reconcilePending interrupted coordinator).coordinator.store := by
  obtain ⟨intent, pending, unreset, rfl, absent⟩ := restores_of_reconcilePending member
  have unwritten : Unwritten config coordinator.store intent := by
    obtain ⟨operation, recorded⟩ | unwritten := sound.computed unreset intent pending
    · rw [absent] at recorded
      cases recorded
    · exact unwritten
  cases restored : restoreIntent coordinator.store intent with
  | error error =>
    simp only [reconcilePending, pending, unreset, restored] at member
    cases member
  | ok result =>
    cases result with
    | none =>
      simp only [reconcilePending, pending, unreset, restored] at member
      cases member
    | some store =>
      have committed := committed_of_restoreIntent unwritten absent restored
      simp only [reconcilePending, pending, unreset, restored, Bool.false_eq_true, if_false]
      split
      · exact committed
      · split <;> exact committed

theorem Transacts.committed (sound : PendingSound config (fun _ => True) coordinator)
    (transacts : Transacts config coordinator entry after) :
    Committed config entry.1 entry.2 coordinator.store after.store := by
  cases transacts with
  | exchanged member => exact exchangeRequest_committed member
  | restored member => exact reconcilePending_committed sound member

/-- An accepted `ReconcileBegin` closes its domain. -/
theorem Committed.begins
    (asked : request.command = .reconcileBegin snapshotId beginSequence endSequence pageCount
      digest configurationSha256)
    (committed : Committed config request (.accepted revision) store next) :
    next.Reconciling request.session.domainId := by
  obtain ⟨row, applied, _, attempted, agrees⟩ := committed
  rw [MachineStore.Reconciling, agrees.domains, recordOperation]
  cases attempted with
  | applied base effect =>
    cases effect with
    | upsert other | reconcilePage other => simp [other] at asked
    | withdraw other | withdrawOffer other => simp [asked] at other
    | reconcileBegin own known =>
      dsimp only
      rw [Table.get?_update, if_pos rfl, Table.get?_update, if_pos rfl, known]
      exact ⟨_, rfl, rfl⟩

/-- Steps none of which commits a snapshot of the domain. -/
def UnreconciledPath (config : CoordinatorConfig) (domain : ExecutionDomainId) :
    Coordinator → Coordinator → Prop :=
  Relation.ReflTransGen fun before after => ∃ commits, AuthorityStep config before commits after ∧
    ∀ entry ∈ commits, ¬ CommitsSnapshot domain entry

theorem Guarded.reconciling (guarded : Guarded config coordinator)
    (reconciling : coordinator.store.Reconciling domain)
    (path : UnreconciledPath config domain coordinator after) :
    Guarded config after ∧ after.store.Reconciling domain ∧
      GivenNothing domain coordinator.store after.store := by
  induction path with
  | refl => exact ⟨guarded, reconciling, .refl domain _⟩
  | tail _ last ih =>
    obtain ⟨middle, still, nothing⟩ := ih
    obtain ⟨commits, step, uncommitted⟩ := last
    obtain ⟨later, more, _⟩ :=
      (step.effect middle.sound).1.reconciling middle.keyed still uncommitted
    exact ⟨(middle.step step).1, later, nothing.trans more⟩

/-- What every transaction keeps holds in every state that calls reach. -/
theorem AuthorityPath.invariant {holds : MachineStore → Prop}
    (kept : ∀ store commits next, Keyed store → holds store →
      StoreStep config store commits next → holds next)
    (initially : holds (Coordinator.initial config).store)
    (reached : AuthorityPath config (.initial config) coordinator) : holds coordinator.store := by
  have held : Guarded config coordinator ∧ holds coordinator.store := by
    induction reached with
    | refl => exact ⟨.initial config, initially⟩
    | tail _ last ih =>
      obtain ⟨guarded, held⟩ := ih
      obtain ⟨commits, step⟩ := last
      exact ⟨(guarded.step step).1,
        (step.effect guarded.sound).1.invariant kept guarded.keyed held⟩
  exact held.2

/-- A connection and an accepted `ReconcileBegin` close their domain; until a
snapshot of it is committed the domain is given nothing; and a committed snapshot
is complete, claims nothing unknown and changes only what it seals. -/
theorem reconciliation_sound (reached : AuthorityPath config (.initial config) coordinator) :
    (∀ input challenge snapshot,
      (machineConnectFinish config input challenge coordinator).answer = .ok snapshot →
      (machineConnectFinish config input challenge coordinator).coordinator.store.Reconciling
        challenge.session.domainId) ∧
      (∀ request revision after snapshotId beginSequence endSequence pageCount digest
          configurationSha256,
        Transacts config coordinator (request, .accepted revision) after →
        request.command = .reconcileBegin snapshotId beginSequence endSequence pageCount digest
          configurationSha256 →
        after.store.Reconciling request.session.domainId) ∧
      (∀ domain later, coordinator.store.Reconciling domain →
        UnreconciledPath config domain coordinator later →
        later.store.Reconciling domain ∧
          GivenNothing domain coordinator.store later.store ∧
          ∀ commits after, AuthorityStep config later commits after →
            (∀ entry ∈ commits, ¬ CommitsSnapshot domain entry) →
            ∀ entry ∈ commits, ¬ GivesDomain domain entry) ∧
      ∀ request endSequence released after,
        Transacts config coordinator (request, .reconciled endSequence released) after →
        ∃ pages now, Reconciles request pages released now coordinator.store after.store := by
  have guarded := ((Guarded.initial config).path reached).1
  refine ⟨?_, ?_, ?_, ?_⟩
  · intro input challenge snapshot answered
    unfold machineConnectFinish CallResult.andThen at answered ⊢
    split at answered
    · cases answered
    · obtain ⟨_, journal, row, _, _, known, written⟩ := connectFinish_eq_ok answered
      dsimp only
      rw [written, MachineStore.Reconciling, installSession, Table.get?_update, if_pos rfl, known]
      exact ⟨_, rfl, rfl⟩
  · intro request revision after snapshotId beginSequence endSequence pageCount digest
      configurationSha256 transacts asked
    exact (transacts.committed guarded.sound).begins asked
  · intro domain later reconciling path
    obtain ⟨guardedLater, still, nothing⟩ := guarded.reconciling reconciling path
    refine ⟨still, nothing, ?_⟩
    intro commits after step uncommitted
    exact ((step.effect guardedLater.sound).1.reconciling guardedLater.keyed still
      uncommitted).2.2
  · intro request endSequence released after transacts
    have backed := reached.invariant (fun _ _ _ keyed backed step =>
      step.backsCandidates keyed backed) (fun _ _ found => by cases found)
    have named := reached.invariant (fun _ _ _ keyed named step =>
      step.manifestsNamed keyed named) (fun _ _ found => by cases found)
    exact (transacts.committed guarded.sound).reconciles guarded.keyed backed named

/-- Allocation 40 is armed and started. -/
def soloStarted : Coordinator :=
  [(4, Command.arm soloKey 51), (5, .authorizeInvocation soloKey 51 demoIntent)].foldl
    (fun coordinator operation => (soloServed coordinator operation).coordinator) soloOffered

/-- The manager connects again. -/
def soloAsked : CallResult ConnectChallenge :=
  machineConnectBegin soloConfig ⟨0, 12, .none⟩ ⟨7, 8, 9, 10⟩ soloStarted

def soloReturned : CallResult ParticipantSnapshot :=
  machineConnectFinish soloConfig ⟨0, 0, .none⟩ ⟨⟨3, 2, 6, 8, 9, 2⟩, 12, 10⟩ soloAsked.coordinator

/-- The allocation with its seal. -/
def soloRecord : ReconcileAllocation :=
  ⟨soloKey, 51, [demoIntent], some ⟨soloKey, 51, 1, [⟨⟨8, 43⟩, 1, demoDigest, demoDigest, true⟩]⟩⟩

/-- An operation of the second session. -/
def soloRequested (operation : Nat × Command) : Request :=
  ⟨⟨3, 2, 6, 8, 9, 2⟩, operation.1, 11 + operation.1, operation.2⟩

def soloBegun : CallResult Reply :=
  machineExchange soloConfig soloInput
    (soloRequested (6, .reconcileBegin 21 0 5 1 [[soloRecord]] demoDigest)) soloReturned.coordinator

def soloPaged : CallResult Reply :=
  machineExchange soloConfig soloInput (soloRequested (7, .reconcilePage 21 0 [soloRecord]))
    soloBegun.coordinator

def soloCommit : Request := soloRequested (8, .reconcileCommit 21)

def soloReconciled : CallResult Reply :=
  exchangeRequest soloConfig soloInput soloCommit soloPaged.coordinator

private theorem soloPath :
    AuthorityPath soloConfig (.initial soloConfig) soloAsked.coordinator := by
  have challenged : AuthorityPath soloConfig (.initial soloConfig) soloChallenged.coordinator :=
    .single ⟨_, .call (.connectBegin trivial)⟩
  have connected : AuthorityPath soloConfig (.initial soloConfig) soloConnected.coordinator :=
    challenged.tail ⟨_, .call (.connectFinish trivial)⟩
  have queued : AuthorityPath soloConfig (.initial soloConfig) soloQueued :=
    ((connected.tail ⟨_, .call (.exchange trivial trivial)⟩).tail
      ⟨_, .call (.exchange trivial trivial)⟩).tail ⟨_, .call (.exchange trivial trivial)⟩
  have offered : AuthorityPath soloConfig (.initial soloConfig) soloOffered :=
    queued.tail ⟨_, .call (soloPass_step (by decide +kernel))⟩
  have started : AuthorityPath soloConfig (.initial soloConfig) soloStarted :=
    (offered.tail ⟨_, .call (.exchange trivial trivial)⟩).tail
      ⟨_, .call (.exchange trivial trivial)⟩
  exact started.tail ⟨_, .call (.connectBegin trivial)⟩

/-- A manager that comes back reconciles one running allocation, whose processes it
has sealed. -/
theorem soloCommit_reconciles :
    soloReturned.coordinator.store.Reconciling 6 ∧
      GivenNothing 6 soloReturned.coordinator.store soloPaged.coordinator.store ∧
      ∃ pages now, Reconciles soloCommit pages [soloKey] now soloPaged.coordinator.store
        soloReconciled.coordinator.store ∧
      (soloPaged.coordinator.store.grants.get? soloKey).map (·.snapshot.state) = some .armed ∧
      (soloReconciled.coordinator.store.grants.get? soloKey).map (·.snapshot.state) =
        some .released := by
  have returned : AuthorityPath soloConfig (.initial soloConfig) soloReturned.coordinator :=
    soloPath.tail ⟨_, .call (.connectFinish trivial)⟩
  have answered : ∃ snapshot, soloReturned.answer = .ok snapshot := ⟨_, rfl⟩
  obtain ⟨snapshot, answered⟩ := answered
  have reconciling := (reconciliation_sound soloPath).1 _ _ snapshot answered
  have uncommitted {listed : List (Request × Outcome)} {revision : Nat}
      (only : listed.map Prod.snd = [.accepted revision]) :
      ∀ entry ∈ listed, ¬ CommitsSnapshot 6 entry := by
    rintro entry member ⟨_, _, _, outcome⟩
    have same : entry.2 ∈ listed.map Prod.snd := List.mem_map_of_mem member
    rw [only, List.mem_singleton, outcome] at same
    cases same
  have begun : soloBegun.commits.map Prod.snd = [.accepted 5] := by decide +kernel
  have paged : soloPaged.commits.map Prod.snd = [.accepted 0] := by decide +kernel
  have quiet : UnreconciledPath soloConfig 6 soloReturned.coordinator soloPaged.coordinator :=
    (Relation.ReflTransGen.single ⟨_, .call (.exchange trivial trivial), uncommitted begun⟩).tail
      ⟨_, .call (.exchange trivial trivial), uncommitted paged⟩
  have reached : AuthorityPath soloConfig (.initial soloConfig) soloPaged.coordinator :=
    (returned.tail ⟨_, .call (.exchange trivial trivial)⟩).tail
      ⟨_, .call (.exchange trivial trivial)⟩
  have committed : (soloCommit, .reconciled 5 [soloKey]) ∈ soloReconciled.commits := by
    decide +kernel
  obtain ⟨pages, now, reconciles⟩ := (reconciliation_sound reached).2.2.2 soloCommit 5 [soloKey] _
    (.exchanged committed)
  refine ⟨reconciling, ((reconciliation_sound returned).2.2.1 6 _ reconciling quiet).2.1, pages,
    now, reconciles, by decide +kernel, ?_⟩
  obtain ⟨record, member, own, sealed⟩ :=
    (reconciles.answered soloKey).mp (List.mem_singleton_self _)
  obtain ⟨release, sealed⟩ := Option.isSome_iff_exists.mp sealed
  obtain ⟨old, _, _, released⟩ := (reconciles.settled record member).2 release sealed
  rw [own] at released
  rw [soloReconciled, released]
  rfl

end Stillyard
