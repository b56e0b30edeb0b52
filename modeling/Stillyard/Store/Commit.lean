import Stillyard.Store.Identities

/-!
# Committed operations

An operation reaches SQLite in one of two ways: in the transaction of its own
exchange, or from the intent in the authority journal after an interruption.
Both leave the same protocol tables.  `Committed` says what those tables are;
everything later argues from it and not from the two paths.
-/

namespace Stillyard

open Relational Fallible

variable {left right store next applied : MachineStore} {config : CoordinatorConfig}
  {request : Request} {row : DomainRow} {outcome : Outcome} {key : AllocationKey}
  {grant : GrantSnapshot} {records : List ReconcileAllocation} {intent : MachineCommitIntent}
  {journal : Journal}

/-- Two stores with the same protocol tables.  Quiet progress, the clock, the
queue and the ticket identities may differ. -/
structure Agrees (left right : MachineStore) : Prop where
  domains : left.domains = right.domains
  challenges : left.challenges = right.challenges
  operations : left.operations = right.operations
  reconciles : left.reconciles = right.reconciles
  candidates : ∀ key, left.candidates.get? key = right.candidates.get? key
  grants : ∀ key, left.grants.get? key = right.grants.get? key

theorem Agrees.refl (store : MachineStore) : Agrees store store :=
  ⟨rfl, rfl, rfl, rfl, fun _ => rfl, fun _ => rfl⟩

theorem Agrees.symm (agrees : Agrees left right) : Agrees right left :=
  ⟨agrees.domains.symm, agrees.challenges.symm, agrees.operations.symm, agrees.reconciles.symm,
    fun key => (agrees.candidates key).symm, fun key => (agrees.grants key).symm⟩

theorem Agrees.trans (earlier : Agrees first second) (later : Agrees second third) :
    Agrees first third :=
  ⟨earlier.domains.trans later.domains, earlier.challenges.trans later.challenges,
    earlier.operations.trans later.operations, earlier.reconciles.trans later.reconciles,
    fun key => (earlier.candidates key).trans (later.candidates key),
    fun key => (earlier.grants key).trans (later.grants key)⟩

theorem Agrees.carried (agrees : Agrees left right) (request : Request) :
    Carried request left = Carried request right := by
  funext release
  rw [Carried, Carried, agrees.reconciles]

theorem Agrees.recordOperation (agrees : Agrees left right)
    (request : Request) (outcome : Outcome) :
    Agrees (recordOperation left request outcome) (recordOperation right request outcome) where
  domains := by simp only [Stillyard.recordOperation, agrees.domains]
  challenges := agrees.challenges
  operations := by simp only [Stillyard.recordOperation, agrees.operations]
  reconciles := agrees.reconciles
  candidates := agrees.candidates
  grants := agrees.grants

/-- The session of a request is the one its domain is connected with. -/
structure Sessioned (config : CoordinatorConfig) (row : DomainRow) (request : Request) : Prop where
  valid : request.validate = true
  authorityEpoch : request.session.authorityEpoch = config.authorityEpoch
  machineId : request.session.machineId = config.domains.machineId
  connectionEpoch : row.connectionEpoch = request.session.connectionEpoch
  managerStoreUuid : row.managerStoreUuid = request.session.managerStoreUuid
  incarnation : row.executorIncarnation = some request.session.executorIncarnation

theorem admitRequest_eq_ok (admitted : admitRequest config coordinator request = .ok row) :
    coordinator.store.domains.get? request.session.domainId = some row ∧
      (∃ anchor, coordinator.journal.anchors.get? request.session.domainId = some anchor ∧
        anchor.session = some request.session) ∧
      Sessioned config row request := by
  simp only [admitRequest, ok_iff, test_iff, Option.bind_eq_some_iff]
    at admitted
  rcases admitted with ⟨_, valid, _, _, _, _, _, _, _, anchored, _, ⟨epoch, machine⟩, _, found, _,
    ⟨⟨connection, manager⟩, incarnation⟩, rfl⟩
  exact ⟨found, anchored, valid, epoch, machine, connection, manager, incarnation⟩

/-- The request is the next operation of its domain. -/
structure InSequence (config : CoordinatorConfig) (request : Request) (store : MachineStore)
    (row : DomainRow) : Prop where
  known : store.domains.get? request.session.domainId = some row
  session : Sessioned config row request
  sequence : row.acceptedSequence + 1 = request.requestSequence
  floor : row.retiredSequenceFloor < request.requestSequence
  fresh : priorOperation store request = none

/-- The effect of a new operation before it is recorded: its command was applied
or refused. -/
inductive Attempted (config : CoordinatorConfig) (request : Request) (store : MachineStore)
    (row : DomainRow) : MachineStore → Outcome → Prop where
  | applied {base next : MachineStore} {outcome : Outcome} (same : Agrees base store)
      (effect : Applied config request row.reconciliationRequired authorityClosed now base next
        outcome) : Attempted config request store row next outcome
  | refused (same : Agrees base store) :
      Attempted config request store row base (.rejected code detail)

theorem Attempted.agrees (attempted : Attempted config request store row next outcome)
    (same : Agrees store other) : Attempted config request other row next outcome := by
  cases attempted with
  | applied base effect => exact .applied (base.trans same) effect
  | refused base => exact .refused (base.trans same)

/-- A new operation was applied and recorded. -/
def Committed (config : CoordinatorConfig) (request : Request) (outcome : Outcome)
    (store next : MachineStore) : Prop :=
  ∃ row applied, InSequence config request store row ∧
    Attempted config request store row applied outcome ∧
    Agrees next (recordOperation applied request outcome)

/-- A committed operation takes every Grant along moves of its request. -/
theorem Attempted.evolves (keyed : GrantsKeyed store.grants)
    (attempted : Attempted config request store row applied outcome) :
    Table.Evolves (RowMoves request (Carried request store)) store.grants applied.grants := by
  cases attempted with
  | refused base =>
    intro key
    rw [base.grants key]
    exact Table.Evolves.refl RowMoves.refl _ key
  | applied base effect =>
    have baseKeyed : GrantsKeyed _ := fun key grant found =>
      keyed key grant ((base.grants key).symm.trans found)
    intro key
    rw [← base.grants key]
    rw [← base.carried]
    exact effect.evolves baseKeyed key

theorem Committed.evolves (keyed : GrantsKeyed store.grants)
    (committed : Committed config request outcome store next) :
    Table.Evolves (RowMoves request (Carried request store)) store.grants next.grants := by
  rcases committed with ⟨row, applied, _, attempted, agrees⟩
  intro key
  rw [agrees.grants key]
  exact attempted.evolves keyed key

/-! ## What the journal publishes -/

/-- Whether the Grants contain a release of the allocation. -/
def releasedBy (grants : List GrantSnapshot) (key : AllocationKey) : Bool :=
  grants.any fun grant => grant.candidate.key = key && grant.state = .released

/-- The published Grants and outcome determine the tables that an operation
leaves. -/
structure Published (intent : MachineCommitIntent) (store next : MachineStore) : Prop where
  stored : ∀ grant ∈ intent.grants, next.grants.get? grant.candidate.key =
    (store.grants.get? grant.candidate.key).map fun row => { row with snapshot := grant }
  others : ∀ key, key ∉ intent.grants.map (fun grant => grant.candidate.key) →
    next.grants.get? key = store.grants.get? key
  candidates : ∀ key, next.candidates.get? key =
    if releasedBy intent.grants key then (store.candidates.get? key).map CandidateRow.release
    else store.candidates.get? key
  domains : next.domains = (restoreHistory store intent).domains
  challenges : next.challenges = store.challenges
  operations : next.operations = (restoreHistory store intent).operations
  reconciles : next.reconciles = (restoreHistory store intent).reconciles

/-- Loading a Grant that was just saved. -/
private theorem loadGrant_writeGrant (succeeded : loadGrant next key = .ok loaded)
    (written : next.grants = writeGrant store.grants grant none)
    (same : grant.candidate.key = key) :
    loaded = grant := by
  rcases loadGrant_eq_ok succeeded with ⟨row, found, rfl, _⟩
  rw [written, get?_writeGrant_self _ _ same, Option.map_eq_some_iff] at found
  rcases found with ⟨_, _, rfl⟩
  rfl

/-- What a committed reconciliation releases, and what it leaves alone. -/
theorem reconcileRecords_lookup
    (folded : records.foldlM (reconcileRecord request.session now) (store, []) =
      .ok (middle, released)) :
    (∀ key, key ∉ released → middle.grants.get? key = store.grants.get? key) ∧
      (∀ key ∈ released, ∀ row, middle.grants.get? key = some row →
        row.snapshot.state = .released) ∧
      ∀ key, middle.candidates.get? key =
        if key ∈ released then (store.candidates.get? key).map CandidateRow.release
        else store.candidates.get? key := by
  refine foldlM_invariant
    (fun state : MachineStore × List AllocationKey =>
      (∀ key, key ∉ state.2 → state.1.grants.get? key = store.grants.get? key) ∧
        (∀ key ∈ state.2, ∀ row, state.1.grants.get? key = some row →
          row.snapshot.state = .released) ∧
        ∀ key, state.1.candidates.get? key =
          if key ∈ state.2 then (store.candidates.get? key).map CandidateRow.release
          else store.candidates.get? key)
    ?_ ?_ folded
  · intro state record after _ held succeeded
    rcases held with ⟨untouched, ended, candidates⟩
    rcases reconcileRecord_eq_ok succeeded with rfl | ⟨release, stored, grant, _, sameKey, applied,
      rfl⟩
    · exact ⟨untouched, ended, candidates⟩
    · rcases applyRelease_eq_ok applied with ⟨row, identities, _, found, releasable, _, _, rfl⟩
      have own : (row.snapshot.release release now).candidate.key = record.key :=
        releasable.key.trans sameKey
      refine ⟨?_, ?_, ?_⟩
      · intro key absent
        simp only [List.mem_append, List.mem_singleton, not_or] at absent
        refine (get?_writeGrant _ _ none ?_).trans (untouched key absent.1)
        rw [own]
        exact absent.2
      · intro key member
        by_cases same : key = record.key
        · subst same
          intro new foundNew
          have written := get?_writeGrant_self state.1.grants _ own
          rw [show (state.1.withRelease (row.snapshot.release release now) identities).grants =
            writeGrant state.1.grants (row.snapshot.release release now) none from rfl, written,
            Option.map_eq_some_iff] at foundNew
          rcases foundNew with ⟨_, _, rfl⟩
          rfl
        · intro new foundNew
          have earlier : key ∈ state.2 := by
            rcases List.mem_append.mp member with earlier | last
            · exact earlier
            · exact absurd (List.mem_singleton.mp last) same
          have kept := get?_writeGrant state.1.grants
            (row.snapshot.release release now) none (own ▸ same)
          exact ended key earlier new (kept ▸ foundNew)
      · intro key
        simp only [MachineStore.withRelease, own, Table.get?_update, List.mem_append,
          List.mem_singleton, candidates key]
        by_cases same : key = record.key
        · subst same
          by_cases earlier : record.key ∈ state.2
          · simp only [earlier, if_pos, or_true, Option.map_map]
            rfl
          · simp [earlier]
        · simp [same]
  · exact ⟨fun _ _ => rfl, by simp, by simp⟩

section Publication

variable {config : CoordinatorConfig} {request : Request} {authorityClosed : Bool} {now : Int}
  {store next : MachineStore} {outcome : Outcome} {grants : List GrantSnapshot}

/-- Start rights that a committed reconciliation keeps. -/
private theorem reconcileRecords_identities (identified : Identified store)
    (folded : records.foldlM (reconcileRecord request.session now) (store, []) =
      .ok (middle, released)) :
    middle.ticketIdentities = store.ticketIdentities ∧
      ∀ key row, middle.grants.get? key = some row →
        ∃ old, store.grants.get? key = some old ∧ old.snapshot.tickets = row.snapshot.tickets := by
  refine foldlM_invariant
    (fun state : MachineStore × List AllocationKey =>
      state.1.ticketIdentities = store.ticketIdentities ∧
        ∀ key row, state.1.grants.get? key = some row →
          ∃ old, store.grants.get? key = some old ∧
            old.snapshot.tickets = row.snapshot.tickets)
    ?_ ⟨rfl, fun key row found => ⟨row, found, rfl⟩⟩ folded
  intro state record after _ held succeeded
  rcases held with ⟨same, known⟩
  rcases reconcileRecord_eq_ok succeeded with rfl | ⟨release, _, _, _, _, applied, rfl⟩
  · exact ⟨same, known⟩
  · rcases applyRelease_eq_ok applied with ⟨row, identities, _, found, releasable, recorded, _, rfl⟩
    rcases known _ row found with ⟨old, foundOld, sameTickets⟩
    have unchanged := recordIdentities_of_recorded fun intent member =>
      identified release.key old intent foundOld (sameTickets ▸ member)
    rw [same, unchanged] at recorded
    refine ⟨(Except.ok.inj recorded).symm, ?_⟩
    intro key new foundNew
    by_cases own : key = release.key
    · subst own
      rw [show (state.1.withRelease (row.snapshot.release release now) identities).grants =
        writeGrant state.1.grants (row.snapshot.release release now) none from rfl,
        get?_writeGrant_self state.1.grants (row.snapshot.release release now) releasable.key,
        found, Option.map_some, Option.some.injEq] at foundNew
      rw [← foundNew]
      exact ⟨old, foundOld, sameTickets⟩
    · have kept := get?_writeGrant state.1.grants (row.snapshot.release release now)
        none (releasable.key.symm ▸ own)
      exact known key new (kept ▸ foundNew)

/-- What restoring an intent needs from the tables before it, and what the
operation leaves in the tables that other operations do not read. -/
structure Restorable (intent : MachineCommitIntent) (store next : MachineStore) : Prop where
  present : ∀ grant ∈ intent.grants, grant.candidate.key ∈ store.grants.keys
  identities : Identified store →
    recordGrants store.ticketIdentities intent.grants = .ok next.ticketIdentities
  queue : next.queue = store.queue ∧ next.queueSequence = store.queueSequence
  reservations : next.reservations = store.reservations
  revision : next.revision = store.revision

/-- A journaled operation: what it publishes, what it takes to restore it, and
the states of the Grants it publishes. -/
structure Journaled (intent : MachineCommitIntent) (store next : MachineStore) : Prop where
  published : Published intent store next
  restorable : Restorable intent store next
  shape : (∀ grant ∈ intent.grants, grant.state = .released) ∨
    ∃ grant, intent.grants = [grant] ∧ grant.state.mayRun = true

/-- An operation that writes one Grant, and its candidate if that is a release. -/
private theorem journaled_of_write {row : GrantRow} (found : store.grants.get? key = some row)
    (keyed : grant.candidate.key = key)
    (recorded : grant.tickets.foldlM (recordIdentity key) store.ticketIdentities =
      .ok next.ticketIdentities)
    (unhistoric : restoreHistory store ⟨request, outcome, [grant]⟩ = store)
    (state : grant.state.mayRun = true ∧ next.candidates = store.candidates ∨
      grant.state = .released ∧
        next.candidates = store.candidates.update grant.candidate.key CandidateRow.release)
    (same : next = { store with
      grants := writeGrant store.grants grant none
      candidates := next.candidates
      ticketIdentities := next.ticketIdentities
      readiness := next.readiness }) : Journaled ⟨request, outcome, [grant]⟩ store next := by
  rw [same]
  refine ⟨⟨?_, ?_, ?_, by rw [unhistoric], rfl, by rw [unhistoric], by rw [unhistoric]⟩,
    ⟨?_, ?_, ⟨rfl, rfl⟩, rfl, rfl⟩, ?_⟩
  · intro saved member
    rw [List.mem_singleton] at member
    subst member
    exact get?_writeGrant_self _ _ rfl
  · intro key absent
    refine get?_writeGrant _ _ none ?_
    intro same
    exact absent (by simp [same])
  · intro key
    rcases state with ⟨runs, candidates⟩ | ⟨ended, candidates⟩
    · have running : grant.state ≠ .released := by
        intro ended
        rw [ended] at runs
        cases runs
      simp [releasedBy, running, candidates]
    · simp [releasedBy, ended, candidates, eq_comm]
  · intro other member
    rw [List.mem_singleton.mp member, keyed]
    exact Table.get?_isSome.mp (by rw [found]; rfl)
  · intro _
    rw [recordGrants_singleton, keyed]
    exact recorded
  · rcases state with ⟨runs, _⟩ | ⟨ended, _⟩
    · exact .inr ⟨grant, rfl, runs⟩
    · exact .inl fun other member => List.mem_singleton.mp member ▸ ended

private theorem journaled_of_reconcile
    (folded : records.foldlM (reconcileRecord request.session now) (store, []) =
      .ok (middle, released)) (loaded : released.mapM (loadGrant middle) = .ok grants) :
    Journaled ⟨request, .reconciled endSequence released, grants⟩ store
      { middle with
        domains := middle.domains.update request.session.domainId fun row =>
          { row with reconciliationRequired := false }
        reconciles := middle.reconciles.erase request.session.domainId } := by
  rcases reconcileRecords_lookup folded with ⟨untouched, ended, candidates⟩
  rcases evolves_of_reconcileRecords request (fun _ => True) (fun _ _ _ _ => trivial) folded with
    ⟨evolves, frame⟩
  have keys : grants.map (fun grant => grant.candidate.key) = released.map id :=
    map_of_mapM (fun key _ grant found => (loadGrant_eq_ok found).choose_spec.2.2) loaded
  rw [List.map_id] at keys
  have found : ∀ grant ∈ grants, ∃ row, middle.grants.get? grant.candidate.key = some row ∧
      row.snapshot = grant ∧ grant.candidate.key ∈ released := by
    intro grant member
    rcases mem_of_mapM loaded grant member with ⟨key, present, computed⟩
    rcases loadGrant_eq_ok computed with ⟨row, stored, same, rfl⟩
    exact ⟨row, stored, same, present⟩
  refine ⟨⟨?_, ?_, ?_, ?_, ?_, ?_, ?_⟩, ⟨?_, ?_, ?_, ?_, ?_⟩, .inl ?_⟩
  · intro grant member
    rcases found grant member with ⟨row, stored, rfl, _⟩
    rcases evolves.origin stored with ⟨old, foundOld, moves⟩
    rw [foundOld, Option.map_some]
    refine stored.trans ?_
    rw [← moves.1]
  · intro key absent
    dsimp only at absent
    rw [keys] at absent
    exact untouched key absent
  · intro key
    have same : releasedBy grants key = decide (key ∈ released) := by
      rw [Bool.eq_iff_iff, decide_eq_true_eq]
      simp only [releasedBy, List.any_eq_true, test_iff]
      constructor
      · rintro ⟨grant, member, rfl, _⟩
        exact (found grant member).choose_spec.2.2
      · intro present
        rw [← keys] at present
        rcases List.mem_map.mp present with ⟨grant, member, rfl⟩
        rcases found grant member with ⟨row, stored, rfl, among⟩
        exact ⟨row.snapshot, member, rfl, ended _ among row stored⟩
    dsimp only
    rw [same, candidates key]
    simp only [decide_eq_true_eq]
  · simp only [restoreHistory]
    rw [frame]
  · dsimp only
    rw [frame]
  · simp only [restoreHistory]
    rw [frame]
  · simp only [restoreHistory]
    rw [frame]
  · intro grant member
    rcases found grant member with ⟨row, stored, rfl, _⟩
    rcases evolves.origin stored with ⟨old, foundOld, _⟩
    exact Table.get?_isSome.mp (by rw [foundOld]; rfl)
  · intro identified
    rcases reconcileRecords_identities identified folded with ⟨same, known⟩
    dsimp only
    rw [same]
    apply identified.recordGrants
    intro grant member
    rcases found grant member with ⟨row, stored, rfl, _⟩
    exact known _ row stored
  · dsimp only
    rw [frame]
    exact ⟨rfl, rfl⟩
  · dsimp only
    rw [frame]
  · dsimp only
    rw [frame]
  · intro grant member
    rcases found grant member with ⟨row, stored, rfl, among⟩
    exact ended _ among row stored

/-- Of a journaled operation, the intent determines the tables. -/
theorem Applied.journals
    (applied : Applied config request recovering authorityClosed now store next outcome)
    (loaded : commitGrants next request outcome = .ok grants)
    (prepared : journaled grants outcome = true) :
    Journaled ⟨request, outcome, grants⟩ store next := by
  cases applied with
  | acknowledge =>
    cases loaded
    exact ⟨⟨fun _ member => (nomatch member), fun _ _ => rfl, fun _ => rfl, rfl, rfl,
      rfl, rfl⟩, ⟨fun _ member => (nomatch member), fun _ => rfl, ⟨rfl, rfl⟩, rfl,
      rfl⟩, .inl fun _ member => (nomatch member)⟩
  | wait | upsert | withdraw | withdrawOffer | inspectPage | inspect | reconcileBegin
  | reconcilePage =>
    cases loaded
    cases prepared
  | start asked owns found keyed _ armed _ _ recorded _ sameKey =>
    simp only [commitGrants, ok_iff] at loaded
    rcases loaded with ⟨grant, loaded, rfl⟩
    rw [sameKey] at loaded
    cases loadGrant_writeGrant loaded rfl keyed
    exact journaled_of_write found keyed recorded rfl
      (.inl ⟨congrArg GrantState.mayRun armed, rfl⟩) rfl
  | armAgain asked owns found keyed named armed =>
    rw [commitGrants, if_pos armed] at loaded
    cases loaded
    refine ⟨⟨?_, fun _ _ => rfl, ?_, rfl, rfl, rfl, rfl⟩, ⟨?_, ?_, ⟨rfl, rfl⟩, rfl, rfl⟩,
      .inr ⟨_, rfl, armed⟩⟩
    · intro grant member
      rw [List.mem_singleton] at member
      subst member
      rw [keyed, found, Option.map_some]
    · intro key
      rw [if_neg]
      intro ended
      simp only [releasedBy, List.any_cons, List.any_nil, Bool.or_false, test_iff] at ended
      rw [ended.2] at armed
      cases armed
    · intro other member
      rw [List.mem_singleton.mp member, keyed]
      exact Table.get?_isSome.mp (by rw [found]; rfl)
    · intro identified
      apply identified.recordGrants
      intro other member
      rw [List.mem_singleton.mp member, keyed]
      exact ⟨_, found, rfl⟩
  | arm asked owns found keyed _ _ _ _ recorded | doubt asked owns found keyed _ _ recorded =>
    cases loaded
    exact journaled_of_write found keyed recorded rfl (.inl ⟨rfl, rfl⟩) rfl
  | release asked owns found releasable recorded =>
    simp only [commitGrants, asked, ok_iff] at loaded
    rcases loaded with ⟨grant, loaded, _, _, rfl⟩
    cases loadGrant_writeGrant loaded rfl releasable.key
    exact journaled_of_write found releasable.key recorded rfl (.inr ⟨rfl, rfl⟩) rfl
  | reconcileCommit asked begun complete distinct covers folded =>
    exact journaled_of_reconcile folded loaded

end Publication

/-! ## Completing an intent -/

theorem restoreGrant_eq_ok (restored : restoreGrant store grant = .ok next) :
    next.grants = writeGrant store.grants grant none ∧
      (∀ key, next.candidates.get? key =
        if grant.candidate.key = key ∧ grant.state = .released then
          (store.candidates.get? key).map CandidateRow.release
        else store.candidates.get? key) ∧
      next = { store with
        grants := next.grants
        candidates := next.candidates
        ticketIdentities := next.ticketIdentities } := by
  simp only [restoreGrant, bind_eq_ok] at restored
  rcases restored with ⟨saved, succeeded, restored⟩
  rcases saveGrant_eq_ok succeeded with ⟨identities, _, rfl⟩
  split at restored
  · next ended =>
    rw [pure_eq_ok] at restored
    subst restored
    refine ⟨rfl, ?_, rfl⟩
    intro key
    simp only [Table.get?_update, ended, and_true, eq_comm]
    rfl
  · next running =>
    rw [pure_eq_ok] at restored
    subst restored
    exact ⟨rfl, fun key => by rw [if_neg fun both => running both.2], rfl⟩

theorem restoreGrants_lookup {grants : List GrantSnapshot} {restored : MachineStore}
    {target : AllocationKey → Option GrantRow}
    (stored : ∀ grant ∈ grants, target grant.candidate.key =
      (store.grants.get? grant.candidate.key).map fun row => { row with snapshot := grant })
    (folded : grants.foldlM restoreGrant store = .ok restored) :
    (∀ key, restored.grants.get? key =
      if key ∈ grants.map (fun grant => grant.candidate.key) then target key
      else store.grants.get? key) ∧
      (∀ key, restored.candidates.get? key =
        if releasedBy grants key then (store.candidates.get? key).map CandidateRow.release
        else store.candidates.get? key) ∧
      restored = { store with
        grants := restored.grants
        candidates := restored.candidates
        ticketIdentities := restored.ticketIdentities } := by
  induction grants generalizing store with
  | nil =>
    rw [List.foldlM_nil, pure_eq_ok] at folded
    subst folded
    exact ⟨fun _ => rfl, fun _ => rfl, rfl⟩
  | cons grant rest ih =>
    rw [List.foldlM_cons, bind_eq_ok] at folded
    rcases folded with ⟨middle, first, others⟩
    rcases restoreGrant_eq_ok first with ⟨written, candidates, frame⟩
    have own := get?_writeGrant_self store.grants grant rfl
    have remaining := ih (by
      intro other member
      rw [stored other (List.mem_cons_of_mem _ member), written]
      by_cases same : other.candidate.key = grant.candidate.key
      · rw [same, own, Option.map_map]
        rfl
      · rw [get?_writeGrant _ _ none same]) others
    rcases remaining with ⟨grantsAt, candidatesAt, restFrame⟩
    refine ⟨?_, ?_, ?_⟩
    · intro key
      rw [grantsAt key, written]
      simp only [List.map_cons, List.mem_cons]
      by_cases later : key ∈ rest.map fun grant => grant.candidate.key
      · rw [if_pos later, if_pos (.inr later)]
      · rw [if_neg later]
        by_cases same : key = grant.candidate.key
        · rw [if_pos (.inl same), same, own, stored grant List.mem_cons_self]
        · rw [if_neg (not_or.mpr ⟨same, later⟩), get?_writeGrant _ _ none same]
    · intro key
      rw [candidatesAt key, candidates key]
      simp only [releasedBy, List.any_cons, Bool.or_eq_true, test_iff]
      by_cases ended : grant.candidate.key = key ∧ grant.state = .released
      · simp only [ended, and_self, if_true, true_or, Option.map_map]
        split <;> rfl
      · simp only [ended, if_false, false_or]
    · rw [restFrame, frame]

private theorem restoreHistory_frame (store : MachineStore) (intent : MachineCommitIntent)
    (grants : Table AllocationKey GrantRow) (candidates : Table AllocationKey CandidateRow)
    (ticketIdentities : Table EntityId TicketIdentity) :
    restoreHistory { store with grants, candidates, ticketIdentities } intent =
      { restoreHistory store intent with grants, candidates, ticketIdentities } := by
  unfold restoreHistory
  split <;> rfl

private theorem restoreHistory_challenges (store : MachineStore) (intent : MachineCommitIntent) :
    (restoreHistory store intent).challenges = store.challenges := by
  unfold restoreHistory
  split <;> rfl

/-- Publication is about the protocol tables only. -/
theorem Published.agrees (published : Published intent base next) (same : Agrees base store) :
    Published intent store next where
  stored grant member := by rw [← same.grants]; exact published.stored grant member
  others key absent := by rw [← same.grants]; exact published.others key absent
  candidates key := by rw [← same.candidates]; exact published.candidates key
  domains := by
    rw [published.domains]
    unfold restoreHistory
    split <;> simp only [compactOperations, same.domains]
  challenges := published.challenges.trans same.challenges
  operations := by
    rw [published.operations]
    unfold restoreHistory
    split <;> simp only [compactOperations, same.operations]
  reconciles := by
    rw [published.reconciles]
    unfold restoreHistory
    split <;> simp only [compactOperations, same.reconciles]

/-- The intent was computed from the tables it will be restored to. -/
def Unwritten (config : CoordinatorConfig) (store : MachineStore) (intent : MachineCommitIntent) :
    Prop :=
  ∃ row applied, InSequence config intent.request store row ∧
    Attempted config intent.request store row applied intent.outcome ∧
    Published intent store applied

/-- The restored Grants leave the tables of the operation. -/
theorem Published.restored {restored : MachineStore} (published : Published intent store applied)
    (folded : intent.grants.foldlM restoreGrant store = .ok restored) :
    Agrees (restoreHistory restored intent) applied := by
  rcases restoreGrants_lookup published.stored folded with ⟨grants, candidates, frame⟩
  have grantsAgree : ∀ key, restored.grants.get? key = applied.grants.get? key := by
    intro key
    rw [grants key]
    split
    · rfl
    · next absent => exact (published.others key absent).symm
  have candidatesAgree : ∀ key, restored.candidates.get? key = applied.candidates.get? key :=
    fun key => (candidates key).trans (published.candidates key).symm
  rw [frame, restoreHistory_frame]
  exact ⟨published.domains.symm, (restoreHistory_challenges _ _).trans published.challenges.symm,
    published.operations.symm, published.reconciles.symm, candidatesAgree, grantsAgree⟩

/-- Restoring an intent commits its operation. -/
theorem committed_of_restoreIntent (unwritten : Unwritten config store intent)
    (absent : store.operations.get?
      (intent.request.session.domainId, intent.request.requestSequence) = none)
    (succeeded : restoreIntent store intent = .ok (some next)) :
    Committed config intent.request intent.outcome store next := by
  rcases unwritten with ⟨row, applied, inSequence, attempted, published⟩
  rcases (restoreIntent_eq_ok.mp succeeded).2.2 with
    ⟨_, present, _⟩ | ⟨_, restored, folded, rfl⟩
  · rw [absent] at present
    cases present
  · exact ⟨row, applied, inSequence, attempted, (published.restored folded).recordOperation _ _⟩

theorem rejection_eq_ok (answered : rejection error = .ok outcome) :
    ∃ code detail, outcome = .rejected code detail := by
  cases error with
  | operationRejected code detail =>
    cases answered
    exact ⟨code, detail, rfl⟩
  | invalidSpec detail =>
    cases answered
    exact ⟨_, detail, rfl⟩
  | notFound | idempotencyConflict | rejected | blockedByAncestor | managedWaitRejected
  | invalidState | io | sqlite => cases answered

section Exchange

variable {config : CoordinatorConfig} {request : Request} {row : DomainRow}

/-- A known operation is answered from the history. -/
structure Replayed (request : Request) (store : MachineStore) (prepared : Prepared) : Prop where
  known : store.operations.get? (request.session.domainId, request.requestSequence) =
    some ⟨request.operationId, request.command, prepared.outcome⟩
  same : prepared.next = store
  grants : prepared.grants = []
  isNew : prepared.isNew = false

/-- A new operation was applied and recorded, and its intent is what the journal
needs. -/
structure Performed (config : CoordinatorConfig) (request : Request) (store : MachineStore)
    (row : DomainRow) (prepared : Prepared) (applied : MachineStore) : Prop where
  inSequence : InSequence config request store row
  attempted : Attempted config request store row applied prepared.outcome
  next : prepared.next = recordOperation applied request prepared.outcome
  loaded : commitGrants prepared.next request prepared.outcome = .ok prepared.grants
  published : journaled prepared.grants prepared.outcome = true →
    Published ⟨request, prepared.outcome, prepared.grants⟩ store applied
  identifies : Identifies store applied
  restorable : journaled prepared.grants prepared.outcome = true →
    Restorable ⟨request, prepared.outcome, prepared.grants⟩ store applied
  isNew : prepared.isNew = true

theorem Performed.committed (performed : Performed config request store row prepared applied) :
    Committed config request prepared.outcome store prepared.next :=
  ⟨row, applied, performed.inSequence, performed.attempted, by
    rw [performed.next]
    exact Agrees.refl _⟩

/-- The command of a successful savepoint. -/
theorem tryCommand_eq_ok
    (tried : tryCommand config input request row journal store = .ok (applied, answer)) :
    applyCommand config request row.reconciliationRequired
      (input.authorityClosed || journal.blocked) store.scheduleMs input.readiness
      input.nativeDebits store = .ok (applied, answer) := by
  simp only [tryCommand, bind_eq_ok, Prod.exists] at tried
  obtain ⟨next, reached, computed, _, _, grants, loaded, tried⟩ := tried
  have same : (next, reached) = (applied, answer) := by
    split at tried
    · simp only [ok_iff] at tried
      obtain ⟨_, _, _, _, same⟩ := tried
      exact same
    · exact pure_eq_ok.mp tried
  cases same
  exact computed

/-- A command takes effect, or its savepoint is rolled back. -/
theorem savepoint_cases
    (tried : savepoint config input request row journal store = .ok (applied, answer)) :
    Applied config request row.reconciliationRequired (input.authorityClosed || journal.blocked)
        store.scheduleMs store applied answer ∨
      applied = store ∧ ∃ code detail, answer = .rejected code detail := by
  unfold savepoint at tried
  split at tried
  · next result succeeded =>
    cases tried
    exact .inl (applied_of_applyCommand (tryCommand_eq_ok succeeded))
  · rw [map_eq_ok] at tried
    rcases tried with ⟨_, answered, same⟩
    cases same
    exact .inr ⟨rfl, rejection_eq_ok answered⟩

private theorem attempted_of_newOperation
    (succeeded : newOperation config input request row coordinator = .ok (next, outcome)) :
    row.acceptedSequence + 1 = request.requestSequence ∧
      row.retiredSequenceFloor < request.requestSequence ∧
      ∃ applied, Attempted config request coordinator.store row applied outcome ∧
        next = recordOperation applied request outcome ∧ Identifies coordinator.store applied ∧
        ∀ grants, commitGrants next request outcome = .ok grants →
          journaled grants outcome = true →
          Published ⟨request, outcome, grants⟩ coordinator.store applied ∧
            Restorable ⟨request, outcome, grants⟩ coordinator.store applied := by
  simp only [newOperation, admitNext, ok_iff, Prod.exists, Prod.mk.injEq, test_iff]
    at succeeded
  rcases succeeded with ⟨_, ⟨_, floor, _, ⟨sequence, _⟩, _⟩, applied, answer, tried, rfl, rfl⟩
  refine ⟨sequence, floor, applied, ?_⟩
  have begun : Agrees { coordinator.store with
      scheduleMs := max input.now coordinator.store.scheduleMs } coordinator.store :=
    ⟨rfl, rfl, rfl, rfl, fun _ => rfl, fun _ => rfl⟩
  rcases savepoint_cases tried with effect | ⟨rfl, code, detail, rfl⟩
  · refine ⟨.applied begun effect, rfl, ⟨effect.identifies.grows, effect.identifies.recorded⟩, ?_⟩
    intro grants loaded prepared
    have loadedBefore : commitGrants applied request answer = .ok grants := by
      rw [← loaded]
      rfl
    rcases effect.journals loadedBefore prepared with ⟨published, restorable, _⟩
    exact ⟨published.agrees begun, restorable.present,
      restorable.identities, restorable.queue, restorable.reservations, restorable.revision⟩
  · refine ⟨.refused begun, rfl, .of_same (fun _ => rfl) rfl, ?_⟩
    intro grants loaded prepared
    cases loaded
    cases prepared

/-- Both ways in which the transaction of an exchange succeeds. -/
theorem exchangeTransaction_eq_ok (admitted : admitRequest config coordinator request = .ok row)
    (succeeded : exchangeTransaction config input request row coordinator = .ok prepared) :
    Replayed request coordinator.store prepared ∨
      ∃ applied, Performed config request coordinator.store row prepared applied := by
  rcases admitRequest_eq_ok admitted with ⟨known, _, session⟩
  unfold exchangeTransaction at succeeded
  split at succeeded
  · next sequence operation found =>
    simp only [ok_iff, test_iff] at succeeded
    rcases succeeded with ⟨_, ⟨⟨rfl, sameId⟩, samePayload⟩, rfl⟩
    simp only [priorOperation, Option.map_eq_some_iff, Prod.mk.injEq] at found
    rcases found with ⟨⟨⟨domain, sequence⟩, other⟩, found, rfl, rfl⟩
    have member := List.mem_of_find?_eq_some found
    have chosen := List.find?_some found
    simp only [test_iff] at chosen
    refine .inl ⟨?_, rfl, rfl, rfl⟩
    rw [← chosen.1, Table.mem_rows.mp member, ← sameId, ← samePayload]
  · next fresh =>
    simp only [ok_iff, Prod.exists] at succeeded
    rcases succeeded with ⟨next, outcome, computed, grants, loaded, rfl⟩
    rcases attempted_of_newOperation computed with
      ⟨inOrder, floor, applied, attempted, rfl, identifies, published⟩
    exact .inr ⟨applied, ⟨known, session, inOrder, floor, fresh⟩, attempted, rfl, loaded,
      fun prepared => (published grants loaded prepared).1, identifies,
      fun prepared => (published grants loaded prepared).2, rfl⟩

end Exchange

end Stillyard
