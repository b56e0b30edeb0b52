import Stillyard.Store.Commands

/-!
# What a command can do

`Applied` lists every way in which a command succeeds, with the guards it
passed and the tables it leaves behind.  Every invariant about commands is a
case analysis over it; the command definitions are not unfolded again.
-/

namespace Stillyard

open Relational Fallible

/-- The checks that `apply_release` makes on a Grant. -/
structure Releasable (grant : GrantSnapshot) (release : SealedRelease) : Prop where
  key : grant.candidate.key = release.key
  unchanged : ∀ old, grant.sealedRelease = some old → old = release
  nonce : grant.offerNonce = release.offerNonce
  sequence : release.sealedSequence ≠ 0
  state : grant.state.mayRun = true ∨ grant.state = .released
  length : release.tickets.length = grant.tickets.length
  covered : ∃ proofs, grant.tickets.foldlM (coverTicket grant release) [] = .ok proofs

/-- The tables after a saved Grant. -/
def MachineStore.withGrant (store : MachineStore) (grant : GrantSnapshot)
    (identities : Table EntityId TicketIdentity) : MachineStore :=
  { store with grants := writeGrant store.grants grant none, ticketIdentities := identities }

/-- The candidate row of a released allocation. -/
def CandidateRow.release (row : CandidateRow) : CandidateRow :=
  { row with state := .released, reservationDeadlineMs := none }

/-- The candidate row of a withdrawn or canceled allocation. -/
def CandidateRow.withdraw (row : CandidateRow) (revision : Nat) (state : CandidateState) :
    CandidateRow :=
  { row with revision, state, reservationDeadlineMs := none }

/-- A reconciliation with one more page. -/
def ReconcileRow.addPage (row : ReconcileRow) (index : Nat)
    (allocations : List ReconcileAllocation) : ReconcileRow :=
  { row with pages := row.pages.set index (some allocations) }

/-- The tables after a release. -/
def MachineStore.withRelease (store : MachineStore) (grant : GrantSnapshot)
    (identities : Table EntityId TicketIdentity) : MachineStore :=
  { store.withGrant grant identities with
    candidates := store.candidates.update grant.candidate.key CandidateRow.release }

/-- The candidate row that an accepted `CandidateUpsert` writes. -/
structure Upserted (config : CoordinatorConfig) (session : SessionIdentity) (now : Int)
    (store : MachineStore) (candidate : Candidate) (row : CandidateRow) : Prop where
  valid : validateCandidate config session candidate = .ok ()
  payload : row.candidate = candidate
  state : row.state = .ready
  revision : row.revision = candidate.revision
  expires : row.expiresMs = i64Clamp (now + candidateMillis)
  prior : match store.candidates.get? candidate.key with
    | some prior => checkRevision prior candidate = .ok () ∧ row.domainId = prior.domainId ∧
        row.queueOwner = prior.queueOwner ∧
        row.reservationDeadlineMs = prior.reservationDeadlineMs ∧
        row.notBeforeMs = prior.notBeforeMs
    | none => row.domainId = candidate.key.domainId ∧
        row.queueOwner = .remote candidate.owner.jobId ∧ row.reservationDeadlineMs = none ∧
        row.notBeforeMs = none

section

variable (config : CoordinatorConfig) (request : Request) (recovering authorityClosed : Bool)
  (now : Int) (store : MachineStore)

/-- The result of a successful command: tables and outcome. -/
inductive Applied : MachineStore → Outcome → Prop where
  | acknowledge {row : DomainRow} (asked : request.command = .acknowledge throughSequence)
      (known : store.domains.get? request.session.domainId = some row)
      (accepted : throughSequence ≤ row.acceptedSequence)
      (floor : row.retiredSequenceFloor ≤ throughSequence) :
      Applied (compactOperations store request.session.domainId throughSequence)
        (.acknowledged throughSequence)
  | wait
      {blocker : Blocker}
      (asked : request.command = .authorizeInvocation key offerNonce intent) :
      Applied { store with readiness := store.readiness.set key progress }
        (.rejected blocker.code blocker.detail)
  | start {identities : Table EntityId TicketIdentity} {ticket : InvocationTicket}
      (asked : request.command = .authorizeInvocation key offerNonce intent)
      (owns : request.session.owns key = true) (found : store.grants.get? key = some row)
      (keyed : row.snapshot.candidate.key = key) (open_ : recovering = false)
      (armed : row.snapshot.state = .armed) (named : row.snapshot.offerNonce = offerNonce)
      (valid : validateNext row.snapshot intent = .ok ())
      (recorded : (row.snapshot.start intent).tickets.foldlM (recordIdentity key)
        store.ticketIdentities = .ok identities) (grantId : ticket.grantId = row.snapshot.grantId)
      (sameKey : ticket.key = key) (sameNonce : ticket.offerNonce = offerNonce)
      (sameIntent : ticket.intent = intent) (session : ticket.session = request.session)
      (unblocked : authorityClosed = false) :
      Applied
        { store.withGrant (row.snapshot.start intent) identities with
          readiness := store.readiness.set key progress }
        (.ticket ticket)
  | armAgain {row : GrantRow} (asked : request.command = .arm key offerNonce)
      (owns : request.session.owns key = true) (found : store.grants.get? key = some row)
      (keyed : row.snapshot.candidate.key = key) (named : row.snapshot.offerNonce = offerNonce)
      (armed : row.snapshot.state.mayRun = true) : Applied store (.grant row.snapshot)
  | arm {identities : Table EntityId TicketIdentity} (asked : request.command = .arm key offerNonce)
      (owns : request.session.owns key = true) (found : store.grants.get? key = some row)
      (keyed : row.snapshot.candidate.key = key) (named : row.snapshot.offerNonce = offerNonce)
      (open_ : recovering = false) (offered : row.snapshot.state = .offered)
      (current : now < row.snapshot.offerDeadlineUnixMillis)
      (recorded : row.snapshot.tickets.foldlM (recordIdentity key) store.ticketIdentities =
        .ok identities) (unblocked : authorityClosed = false) :
      Applied (store.withGrant (row.snapshot.arm now) identities) (.grant (row.snapshot.arm now))
  | doubt {identities : Table EntityId TicketIdentity}
      (asked : request.command = .reportUncertain key offerNonce reason)
      (owns : request.session.owns key = true) (found : store.grants.get? key = some row)
      (keyed : row.snapshot.candidate.key = key) (named : row.snapshot.offerNonce = offerNonce)
      (armed : row.snapshot.state.mayRun = true)
      (recorded : row.snapshot.tickets.foldlM (recordIdentity key) store.ticketIdentities =
        .ok identities) : Applied (store.withGrant (row.snapshot.doubt reason) identities)
        (.grant (row.snapshot.doubt reason))
  | release {identities : Table EntityId TicketIdentity}
      (asked : request.command = .release release) (owns : request.session.owns release.key = true)
      (found : store.grants.get? release.key = some row)
      (releasable : Releasable row.snapshot release)
      (recorded : row.snapshot.tickets.foldlM (recordIdentity release.key)
        store.ticketIdentities = .ok identities) :
      Applied (store.withRelease (row.snapshot.release release now) identities)
        (.released row.snapshot.grantId release.sealedSequence)
  | upsert {queued : MachineStore} (asked : request.command = .candidateUpsert candidate)
      (queue : queued = store ∨
        queued = store.enqueueOwner (.remote candidate.owner.jobId) now (some candidate.priority))
      (upserted : Upserted config request.session now store candidate row)
      (open_ : recovering = false) :
      Applied { queued with candidates := store.candidates.set candidate.key row }
        (.accepted candidate.revision)
  | withdraw {row : CandidateRow}
      (asked : request.command = .withdraw key revision ∧ state = .withdrawn ∨
        request.command = .cancelCandidate key revision ∧ state = .canceled)
      (owns : request.session.owns key = true) (found : store.candidates.get? key = some row)
      (newer : row.revision < revision)
      (idle : ∀ grant, store.grants.get? key = some grant → grant.snapshot.state ≠ .offered) :
      Applied { store with candidates := store.candidates.set key (row.withdraw revision state) }
        (.accepted revision)
  | withdrawOffer {identities : Table EntityId TicketIdentity}
      (asked : request.command = .withdraw key revision ∧ state = .withdrawn ∨
        request.command = .cancelCandidate key revision ∧ state = .canceled)
      (owns : request.session.owns key = true) (found : store.candidates.get? key = some row)
      (newer : row.revision < revision) (granted : store.grants.get? key = some grant)
      (offered : grant.snapshot.state = .offered)
      (recorded : grant.snapshot.tickets.foldlM (recordIdentity grant.snapshot.candidate.key)
        store.ticketIdentities = .ok identities) :
      Applied
        { store.withGrant grant.snapshot.expire identities with
          candidates := store.candidates.set key (row.withdraw revision state) }
        (.accepted revision)
  | inspectPage {truncated : Bool} (asked : request.command = .inspectPage after limit)
      (read : inventoryPage config store request.session.domainId none after limit true =
        .ok (grants, truncated)) :
      Applied store
        (.inventoryPage grants
          (if truncated then grants.getLast?.map fun grant => grant.candidate.key else none)
          config.configSha256)
  | inspect {truncated : Bool} (asked : request.command = .inspect key)
      (read : inventoryPage config store request.session.domainId key none 256 false =
        .ok (grants, truncated)) : Applied store (.inspection grants truncated)
  | reconcileBegin {row : DomainRow}
      (asked : request.command = .reconcileBegin snapshotId beginSequence endSequence pageCount
        digest configurationSha256) (known : store.domains.get? request.session.domainId = some row)
      (ends : endSequence = row.acceptedSequence) :
      Applied
        { store with
          reconciles := store.reconciles.set request.session.domainId
            ⟨snapshotId, request.command, List.replicate pageCount none⟩
          domains := store.domains.update request.session.domainId fun row =>
            { row with reconciliationRequired := true } }
        (.accepted endSequence)
  | reconcilePage {row : ReconcileRow}
      (asked : request.command = .reconcilePage snapshotId index allocations)
      (begun : store.reconciles.get? request.session.domainId = some row)
      (owns : ∀ allocation ∈ allocations, request.session.owns allocation.key = true) :
      Applied
        { store with
          reconciles := store.reconciles.set request.session.domainId
            (row.addPage index allocations) }
        (.accepted index)
  | reconcileCommit {endSequence : Nat} {released : List AllocationKey}
      (asked : request.command = .reconcileCommit snapshotId)
      (begun : store.reconciles.get? request.session.domainId = some row)
      (complete : row.pages.mapM id = some pages)
      (distinct : (pages.flatten.map ReconcileAllocation.key).Nodup)
      (covers : ∀ grant ∈ outstandingGrants store request.session.domainId,
        coverGrant pages.flatten grant.1 grant.2 = .ok ())
      (folded : (pages.flatten.insertionSort fun left right => left.key.le right.key).foldlM
        (reconcileRecord request.session now) (store, []) = .ok (middle, released))
      (manifest : row.snapshotId = snapshotId ∧ ∃ begun beginSequence pageCount
        configurationSha256, row.manifest =
          .reconcileBegin begun beginSequence endSequence pageCount pages configurationSha256) :
      Applied
        { middle with
          domains := middle.domains.update request.session.domainId fun row =>
            { row with reconciliationRequired := false }
          reconciles := middle.reconciles.erase request.session.domainId }
        (.reconciled endSequence released)

end

/-! ## Inversion -/

section Inversion

variable {config : CoordinatorConfig} {request : Request} {recovering authorityClosed : Bool}
  {now : Int} {readiness : Readiness} {store next : MachineStore} {outcome : Outcome}
  {key : AllocationKey} {offerNonce snapshotId : Uuid}

private theorem applied_of_acknowledge (asked : request.command = .acknowledge throughSequence)
    (succeeded : applyAcknowledge request.session.domainId store throughSequence =
      .ok (next, outcome)) :
    Applied config request recovering authorityClosed now store next outcome := by
  simp only [applyAcknowledge, ok_iff, Prod.mk.injEq, test_iff] at succeeded
  rcases succeeded with ⟨row, known, _, ⟨accepted, floor⟩, rfl, rfl⟩
  exact .acknowledge asked known accepted floor

private theorem applied_of_authorize
    (asked : request.command = .authorizeInvocation key offerNonce intent)
    (succeeded : applyAuthorizeInvocation config request recovering authorityClosed readiness
      nativeDebits store key offerNonce intent = .ok (next, outcome)) :
    Applied config request recovering authorityClosed now store next outcome := by
  simp only [applyAuthorizeInvocation, ok_iff, owned_eq_ok, Bool.and_eq_true, Bool.not_eq_true',
    decide_eq_true_eq] at succeeded
  rcases succeeded with
    ⟨_, ⟨owns, _⟩, grant, loaded, _, ⟨⟨⟨⟨open_, unblocked⟩, armed⟩, named⟩, _⟩, authorized⟩
  rcases loadGrant_eq_ok loaded with ⟨row, found, rfl, keyed⟩
  simp only [authorize, ok_iff] at authorized
  rcases authorized with ⟨_, valid, _, _, _, _, sample, _, _, _, _, _, _, _, _, _, authorized⟩
  split at authorized
  · simp only [pure_eq_ok, Prod.mk.injEq] at authorized
    rcases authorized with ⟨rfl, rfl⟩
    rw [keyed]
    exact .wait asked
  · simp only [ok_iff, Prod.mk.injEq] at authorized
    rcases authorized with ⟨saved, succeeded, rfl, rfl⟩
    rcases saveGrant_eq_ok succeeded with ⟨identities, recorded, rfl⟩
    rw [keyed] at recorded ⊢
    exact .start asked owns found keyed open_ armed named valid recorded rfl rfl named rfl rfl
      unblocked

private theorem applied_of_arm (asked : request.command = .arm key offerNonce)
    (succeeded : applyArm config request.session recovering authorityClosed now store key
      offerNonce = .ok (next, outcome)) :
    Applied config request recovering authorityClosed now store next outcome := by
  simp only [applyArm, ok_iff, owned_eq_ok, decide_eq_true_eq] at succeeded
  rcases succeeded with ⟨_, ⟨owns, _⟩, grant, loaded, _, named, succeeded⟩
  rcases loadGrant_eq_ok loaded with ⟨row, found, rfl, keyed⟩
  cases state : row.snapshot.state with
  | armed | uncertain =>
    simp only [state, pure_eq_ok, Prod.mk.injEq] at succeeded
    rcases succeeded with ⟨rfl, rfl⟩
    exact .armAgain asked owns found keyed named (by rw [state]; rfl)
  | offered =>
    simp only [state, ok_iff, Prod.mk.injEq, Bool.and_eq_true, Bool.not_eq_true',
      decide_eq_true_eq] at succeeded
    rcases succeeded with
      ⟨_, ⟨⟨⟨open_, unblocked⟩, current⟩, _⟩, _, _, _, _, saved, succeeded, rfl, rfl⟩
    rcases saveGrant_eq_ok succeeded with ⟨identities, recorded, rfl⟩
    rw [keyed] at recorded
    exact .arm asked owns found keyed named open_ state current recorded unblocked
  | expired | released => simp only [state, reduceCtorEq] at succeeded

private theorem applied_of_reportUncertain
    (asked : request.command = .reportUncertain key offerNonce reason)
    (succeeded : applyReportUncertain request.session store key offerNonce reason =
      .ok (next, outcome)) :
    Applied config request recovering authorityClosed now store next outcome := by
  simp only [applyReportUncertain, ok_iff, owned_eq_ok, Prod.mk.injEq, test_iff] at succeeded
  rcases succeeded with
    ⟨_, ⟨owns, _⟩, _, _, grant, loaded, _, ⟨named, armed⟩, saved, succeeded, rfl, rfl⟩
  rcases loadGrant_eq_ok loaded with ⟨row, found, rfl, keyed⟩
  rcases saveGrant_eq_ok succeeded with ⟨identities, recorded, rfl⟩
  rw [keyed] at recorded
  exact .doubt asked owns found keyed named armed recorded

/-- What a successful `applyRelease` checked and wrote. -/
theorem applyRelease_eq_ok
    (succeeded : applyRelease session now store release = .ok (next, grant)) :
    ∃ row identities, session.owns release.key = true ∧
      store.grants.get? release.key = some row ∧ Releasable row.snapshot release ∧
      row.snapshot.tickets.foldlM (recordIdentity release.key) store.ticketIdentities =
        .ok identities ∧
      grant = row.snapshot.release release now ∧
      next = store.withRelease (row.snapshot.release release now) identities := by
  simp only [applyRelease, ok_iff, owned_eq_ok, Prod.mk.injEq, Bool.and_eq_true, Bool.or_eq_true,
    decide_eq_true_eq, Option.all_eq_true] at succeeded
  rcases succeeded with ⟨_, ⟨owns, _⟩, loadedGrant, loaded, _, unchanged, _, ⟨nonce, sequence⟩,
    _, state, _, length, proofs, covered, saved, succeeded, rfl, rfl⟩
  rcases loadGrant_eq_ok loaded with ⟨row, found, rfl, keyed⟩
  rcases saveGrant_eq_ok succeeded with ⟨identities, recorded, rfl⟩
  have releasable : Releasable row.snapshot release :=
    ⟨keyed, unchanged, nonce, sequence, state, length, proofs, covered⟩
  rw [keyed] at recorded
  refine ⟨row, identities, owns, found, releasable, recorded, rfl, ?_⟩
  simp only [MachineStore.withRelease, MachineStore.withGrant, GrantSnapshot.release, keyed]
  rfl

private theorem applied_of_release (asked : request.command = .release release)
    (succeeded : applyReleaseCommand request.session now store release = .ok (next, outcome)) :
    Applied config request recovering authorityClosed now store next outcome := by
  simp only [applyReleaseCommand, ok_iff, Prod.mk.injEq, Prod.exists] at succeeded
  rcases succeeded with ⟨saved, grant, applied, rfl, rfl⟩
  rcases applyRelease_eq_ok applied with
    ⟨row, identities, owns, found, releasable, recorded, rfl, rfl⟩
  exact .release asked owns found releasable recorded

private theorem applied_of_candidateUpsert (asked : request.command = .candidateUpsert candidate)
    (succeeded : applyCandidateUpsert config request.session recovering authorityClosed now store
      candidate = .ok (next, outcome)) :
    Applied config request recovering authorityClosed now store next outcome := by
  simp only [applyCandidateUpsert, ok_iff, Bool.and_eq_true, Bool.not_eq_true'] at succeeded
  rcases succeeded with ⟨_, valid, _, ⟨open_, _⟩, _, _, succeeded⟩
  split at succeeded
  · next prior found =>
    simp only [ok_iff, Prod.mk.injEq] at succeeded
    rcases succeeded with ⟨_, revised, rfl, rfl⟩
    refine .upsert asked (.inl (Eq.refl store)) ?_ open_
    refine ⟨valid, rfl, rfl, rfl, rfl, ?_⟩
    rw [found]
    exact ⟨revised, rfl, rfl, rfl, rfl⟩
  · next absent =>
    simp only [ok_iff, Prod.mk.injEq] at succeeded
    rcases succeeded with ⟨_, _, rfl, rfl⟩
    have untouched : (store.enqueueOwner (.remote candidate.owner.jobId) now
        (some candidate.priority)).candidates = store.candidates := by
      unfold MachineStore.enqueueOwner
      split <;> rfl
    rw [untouched]
    refine .upsert asked (.inr rfl) ?_ open_
    refine ⟨valid, rfl, rfl, rfl, rfl, ?_⟩
    rw [absent]
    exact ⟨rfl, rfl, rfl, rfl⟩

private theorem applied_of_withdrawal
    (asked : request.command = .withdraw key revision ∧ state = .withdrawn ∨
      request.command = .cancelCandidate key revision ∧ state = .canceled)
    (succeeded : applyWithdrawal request.session state store key revision =
      .ok (next, outcome)) :
    Applied config request recovering authorityClosed now store next outcome := by
  simp only [applyWithdrawal, ok_iff, owned_eq_ok, Option.filter_eq_some_iff,
    decide_eq_true_eq] at succeeded
  rcases succeeded with ⟨_, ⟨owns, _⟩, row, ⟨found, newer, _⟩, succeeded⟩
  split at succeeded
  · next grant granted =>
    simp only [Option.filter_eq_some_iff, decide_eq_true_eq] at granted
    simp only [ok_iff, Prod.mk.injEq] at succeeded
    rcases succeeded with ⟨saved, succeeded, rfl, rfl⟩
    rcases saveGrant_eq_ok succeeded with ⟨identities, recorded, rfl⟩
    exact .withdrawOffer asked owns found newer granted.1 granted.2 recorded
  · next idle =>
    simp only [Option.filter_eq_none_iff, decide_eq_true_eq] at idle
    simp only [pure_eq_ok, Prod.mk.injEq] at succeeded
    rcases succeeded with ⟨rfl, rfl⟩
    exact .withdraw asked owns found newer idle

private theorem applied_of_inspectPage (asked : request.command = .inspectPage after limit)
    (succeeded : applyInspectPage config request.session store after limit =
      .ok (next, outcome)) :
    Applied config request recovering authorityClosed now store next outcome := by
  simp only [applyInspectPage, ok_iff, Prod.mk.injEq, Prod.exists] at succeeded
  rcases succeeded with ⟨_, _, grants, truncated, read, rfl, rfl⟩
  exact .inspectPage asked read

private theorem applied_of_inspect {key : Option AllocationKey}
    (asked : request.command = .inspect key)
    (succeeded : applyInspect config request.session store key = .ok (next, outcome)) :
    Applied config request recovering authorityClosed now store next outcome := by
  simp only [applyInspect, ok_iff, Prod.mk.injEq, Prod.exists] at succeeded
  rcases succeeded with ⟨_, _, grants, truncated, read, rfl, rfl⟩
  exact .inspect asked read

private theorem applied_of_reconcileBegin
    (asked : request.command = .reconcileBegin snapshotId beginSequence endSequence pageCount
      digest configurationSha256)
    (succeeded : applyReconcileBegin config request.session.domainId store request.command
      snapshotId beginSequence endSequence pageCount configurationSha256 = .ok (next, outcome)) :
    Applied config request recovering authorityClosed now store next outcome := by
  simp only [applyReconcileBegin, ok_iff, Prod.mk.injEq, test_iff] at succeeded
  rcases succeeded with ⟨row, known, _, ⟨⟨⟨⟨⟨_, _⟩, _⟩, ends⟩, _⟩, _⟩, rfl, rfl⟩
  exact .reconcileBegin asked known ends

theorem begunReconcile_eq_ok (begun : begunReconcile store domain snapshotId = .ok row) :
    store.reconciles.get? domain = some row ∧ row.snapshotId = snapshotId := by
  simpa only [begunReconcile, orError_eq_ok, Option.filter_eq_some_iff,
    decide_eq_true_eq] using begun

private theorem applied_of_reconcilePage
    (asked : request.command = .reconcilePage snapshotId index allocations)
    (succeeded : applyReconcilePage config request.session store snapshotId index allocations =
      .ok (next, outcome)) :
    Applied config request recovering authorityClosed now store next outcome := by
  simp only [applyReconcilePage, ok_iff, Prod.mk.injEq] at succeeded
  rcases succeeded with ⟨row, begun, _, _, _, ownedAll, _, _, _, _, rfl, rfl⟩
  refine .reconcilePage asked (begunReconcile_eq_ok begun).1 ?_
  intro allocation member
  exact (owned_eq_ok.mp (of_forM ownedAll allocation member)).1

private theorem applied_of_reconcileCommit (asked : request.command = .reconcileCommit snapshotId)
    (succeeded : applyReconcileCommit request.session now store snapshotId =
      .ok (next, outcome)) :
    Applied config request recovering authorityClosed now store next outcome := by
  simp only [applyReconcileCommit, bind_eq_ok] at succeeded
  rcases succeeded with ⟨row, begun, succeeded⟩
  split at succeeded
  · next manifest =>
    simp only [ok_iff, Prod.mk.injEq, Prod.exists, decide_eq_true_eq] at succeeded
    rcases succeeded with
      ⟨pages, complete, _, rfl, _, distinct, _, covers, middle, released, folded, rfl, rfl⟩
    exact .reconcileCommit asked (begunReconcile_eq_ok begun).1 complete distinct
      (of_forM covers) folded ⟨(begunReconcile_eq_ok begun).2, _, _, _, _, manifest⟩
  · cases succeeded

/-- Every success of `applyCommand` is listed in `Applied`. -/
theorem applied_of_applyCommand
    (succeeded : applyCommand config request recovering authorityClosed now readiness nativeDebits
      store = .ok (next, outcome)) :
    Applied config request recovering authorityClosed now store next outcome := by
  unfold applyCommand at succeeded
  cases asked : request.command with
  | reportUncertain key offerNonce reason =>
    exact applied_of_reportUncertain asked (by simpa only [asked] using succeeded)
  | inspectPage after limit =>
    exact applied_of_inspectPage asked (by simpa only [asked] using succeeded)
  | acknowledge throughSequence =>
    exact applied_of_acknowledge asked (by simpa only [asked] using succeeded)
  | candidateUpsert candidate =>
    exact applied_of_candidateUpsert asked (by simpa only [asked] using succeeded)
  | withdraw key revision =>
    exact applied_of_withdrawal (.inl ⟨asked, rfl⟩) (by simpa only [asked] using succeeded)
  | arm key offerNonce => exact applied_of_arm asked (by simpa only [asked] using succeeded)
  | authorizeInvocation key offerNonce intent =>
    exact applied_of_authorize asked (by simpa only [asked] using succeeded)
  | cancelCandidate key revision =>
    exact applied_of_withdrawal (.inr ⟨asked, rfl⟩) (by simpa only [asked] using succeeded)
  | release release => exact applied_of_release asked (by simpa only [asked] using succeeded)
  | inspect key => exact applied_of_inspect asked (by simpa only [asked] using succeeded)
  | reconcileBegin snapshotId beginSequence endSequence pageCount digest configurationSha256 =>
    refine applied_of_reconcileBegin asked ?_
    simpa only [asked] using succeeded
  | reconcilePage snapshotId index allocations =>
    exact applied_of_reconcilePage asked (by simpa only [asked] using succeeded)
  | reconcileCommit snapshotId =>
    exact applied_of_reconcileCommit asked (by simpa only [asked] using succeeded)

end Inversion

end Stillyard
