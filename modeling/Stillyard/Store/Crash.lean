import Stillyard.Store.Starts

/-!
# Stops inside an exchange

An exchange that changes start rights publishes its intent in the journal,
commits in SQLite and finishes in the journal.  Reopening after a stop between
these writes completes the intent, so that the coordinator is where it was before
the call or where the whole call leads.  The exceptions are an acknowledgement
that is delivered again after later operations, whose intent looks like a lost
history, and a coordinator that already waits for a reset.
-/

namespace Stillyard

open Relational Fallible

variable {grants : List GrantSnapshot} {row : DomainRow} {journal finished : Journal}

/-- Reopening after a stop. -/
def Coordinator.recover (coordinator : Coordinator) : Coordinator :=
  (reconcilePending false coordinator).coordinator

/-- An allocation without further start rights: the journal lists it, or its
Released row makes that entry superfluous. -/
def Coordinator.Retires (coordinator : Coordinator) (key : AllocationKey) : Prop :=
  key ∈ coordinator.journal.retiredAllocations ∨
    ∃ row, coordinator.store.grants.get? key = some row ∧ row.snapshot.state = .released

/-- Two coordinators in the same state, up to quiet progress and the schedule
clock. -/
structure SameState (left right : Coordinator) : Prop where
  tables : Agrees left.store right.store
  identities : left.store.ticketIdentities = right.store.ticketIdentities
  queue : left.store.queue = right.store.queue ∧
    left.store.queueSequence = right.store.queueSequence
  reservations : left.store.reservations = right.store.reservations
  revision : left.store.revision = right.store.revision
  anchors : ∀ domain, left.journal.anchors.get? domain = right.journal.anchors.get? domain
  permissions : left.journal.permissions = right.journal.permissions
  retires : ∀ key, left.Retires key ↔ right.Retires key
  pending : left.journal.pending = right.journal.pending
  reset : left.journal.pendingReset = right.journal.pendingReset

theorem SameState.refl (coordinator : Coordinator) : SameState coordinator coordinator :=
  ⟨.refl _, rfl, ⟨rfl, rfl⟩, rfl, rfl, fun _ => rfl, rfl, fun _ => Iff.rfl, rfl, rfl⟩

/-- Compaction drops what the tables already say. -/
theorem sameState_compactMachineRetirements (coordinator : Coordinator) :
    SameState (compactMachineRetirements coordinator) coordinator := by
  unfold compactMachineRetirements
  split
  · exact .refl _
  · refine ⟨.refl _, rfl, ⟨rfl, rfl⟩, rfl, rfl, fun _ => rfl, rfl, ?_, rfl, rfl⟩
    intro key
    simp only [Coordinator.Retires, List.mem_filter, Bool.not_eq_true', Option.any_eq_false,
      decide_eq_false_iff_not]
    constructor
    · rintro (⟨listed, _⟩ | ended)
      · exact .inl listed
      · exact .inr ended
    · rintro (listed | ended)
      · by_cases ended : ∃ row, coordinator.store.grants.get? key = some row ∧
            row.snapshot.state = .released
        · exact .inr ended
        · refine .inl ⟨listed, ?_⟩
          intro row found state
          exact ended ⟨row, found, state⟩
      · exact .inr ended

theorem compactMachineRetirements_idem (coordinator : Coordinator) :
    compactMachineRetirements (compactMachineRetirements coordinator) =
      compactMachineRetirements coordinator := by
  by_cases blocked : coordinator.journal.blocked = true
  · have same : compactMachineRetirements coordinator = coordinator := if_pos blocked
    rw [same, same]
  · simp only [Journal.blocked] at blocked
    simp [compactMachineRetirements, Journal.blocked, blocked, List.filter_filter]

section Intents

variable {next : MachineStore}

theorem loadGrants_of_stored (stored : ∀ grant ∈ grants, ∃ row,
      store.grants.get? grant.candidate.key = some row ∧ row.snapshot = grant) :
    grants.mapM (fun grant => loadGrant store grant.candidate.key) = .ok grants := by
  induction grants with
  | nil => rfl
  | cons grant rest ih =>
    rcases stored grant List.mem_cons_self with ⟨row, found, same⟩
    have loaded : loadGrant store grant.candidate.key = .ok grant := by
      subst same
      simp [loadGrant, found, orError, require, bind, Except.bind, pure,
        Except.pure]
    have others := ih fun other member => stored other (List.mem_cons_of_mem _ member)
    rw [List.mapM_cons, loaded, others]
    rfl

/-- An intent whose operation is the last accepted one changes nothing. -/
theorem restoreIntent_of_recorded (recorded : store.operations.get?
      (intent.request.session.domainId, intent.request.requestSequence) =
        some ⟨intent.request.operationId, intent.request.command, intent.outcome⟩)
    (known : store.domains.get? intent.request.session.domainId = some row)
    (accepted : row.acceptedSequence = intent.request.requestSequence)
    (stored : ∀ grant ∈ intent.grants, ∃ row,
      store.grants.get? grant.candidate.key = some row ∧ row.snapshot = grant) :
    restoreIntent store intent = .ok (some store) := by
  refine restoreIntent_eq_ok.mpr ⟨by simp [inconsistentIntent, recorded, known, accepted], ?_,
    .inl ⟨_, recorded, loadGrants_of_stored stored, rfl⟩⟩
  intro grant member
  rcases stored grant member with ⟨row, found, _⟩
  exact Table.get?_isSome.mp (by rw [found]; rfl)

/-- An intent whose sequence number was passed looks like a lost history. -/
theorem restoreIntent_of_passed (recorded : store.operations.get?
      (intent.request.session.domainId, intent.request.requestSequence) = some operation)
    (known : store.domains.get? intent.request.session.domainId = some row)
    (passed : row.acceptedSequence ≠ intent.request.requestSequence) :
    restoreIntent store intent = .ok none := by
  have inconsistent : inconsistentIntent store intent = true := by
    simp [inconsistentIntent, recorded, known, passed]
  simp [restoreIntent, inconsistent, pure, Except.pure]

/-- The published Grants are the stored ones. -/
theorem Published.loads (published : Published intent store applied)
    (present : ∀ grant ∈ intent.grants, grant.candidate.key ∈ store.grants.keys) :
    ∀ grant ∈ intent.grants, ∃ row,
      applied.grants.get? grant.candidate.key = some row ∧ row.snapshot = grant := by
  intro grant member
  rcases Table.exists_of_mem_keys (present grant member) with ⟨row, found⟩
  refine ⟨{ row with snapshot := grant }, ?_, rfl⟩
  rw [published.stored grant member, found, Option.map_some]

/-- What an operation does to the row of its domain, before it is recorded. -/
theorem Published.domain (published : Published intent store applied)
    (known : store.domains.get? intent.request.session.domainId = some row) :
    ∃ new, applied.domains.get? intent.request.session.domainId = some new ∧
      new.connectionEpoch = row.connectionEpoch ∧
      new.managerStoreUuid = row.managerStoreUuid ∧
      new.executorIncarnation = row.executorIncarnation := by
  rw [published.domains]
  unfold restoreHistory
  dsimp only
  split
  · next throughSequence _ =>
    refine ⟨{ row with
      retiredSequenceFloor := max row.retiredSequenceFloor throughSequence }, ?_, rfl, rfl, rfl⟩
    rw [compactOperations, Table.get?_update, if_pos rfl, known]
    rfl
  · refine ⟨{ row with reconciliationRequired := false }, ?_, rfl, rfl, rfl⟩
    rw [Table.get?_update, if_pos rfl, known]
    rfl
  · exact ⟨row, known, rfl, rfl, rfl⟩

/-- The row of a domain after its operation was recorded. -/
theorem domain_of_recordOperation (known : applied.domains.get? request.session.domainId = some row)
    (same : next.domains = (recordOperation applied request outcome).domains) :
    next.domains.get? request.session.domainId =
      some { row with acceptedSequence := request.requestSequence } := by
  rw [same, recordOperation, Table.get?_update, if_pos rfl, known]
  rfl

/-- Completing an intent twice is completing it once. -/
theorem restoreIntent_again (published : Published intent store applied)
    (known : store.domains.get? intent.request.session.domainId = some row)
    (present : ∀ grant ∈ intent.grants, grant.candidate.key ∈ store.grants.keys)
    (agrees : Agrees next (recordOperation applied intent.request intent.outcome)) :
    restoreIntent next intent = .ok (some next) := by
  rcases published.domain known with ⟨new, foundNew, _⟩
  refine restoreIntent_of_recorded ?_ (domain_of_recordOperation foundNew agrees.domains) rfl ?_
  · rw [agrees.operations]
    exact get?_recordOperation _ _ _
  · intro grant member
    rw [agrees.grants]
    exact published.loads present grant member

/-- Restoring Grants records their start rights. -/
theorem restoreGrants_of_recordGrants
    (recorded : recordGrants store.ticketIdentities grants = .ok identities) :
    ∃ restored, grants.foldlM restoreGrant store = .ok restored ∧
      restored.ticketIdentities = identities := by
  induction grants generalizing store with
  | nil => exact ⟨store, rfl, Except.ok.inj recorded⟩
  | cons grant rest ih =>
    rw [recordGrants, List.foldlM_cons, bind_eq_ok] at recorded
    rcases recorded with ⟨middle, first, others⟩
    have one : ∃ saved, restoreGrant store grant = .ok saved ∧
        saved.ticketIdentities = middle := by
      simp only [restoreGrant, saveGrant, first, bind, Except.bind, pure, Except.pure]
      split <;> exact ⟨_, rfl, rfl⟩
    rcases one with ⟨saved, succeeded, same⟩
    rw [List.foldlM_cons, succeeded]
    exact ih (same ▸ others)

/-- What restoring does to the tables that operations do not read. -/
structure KeepsRest (before after : MachineStore) : Prop where
  queue : after.queue = before.queue ∧ after.queueSequence = before.queueSequence
  reservations : after.reservations = before.reservations
  revision : after.revision = before.revision

theorem restoreHistory_keeps (store : MachineStore) (intent : MachineCommitIntent) :
    KeepsRest store (restoreHistory store intent) ∧
      (restoreHistory store intent).ticketIdentities = store.ticketIdentities := by
  unfold restoreHistory
  dsimp only
  split <;> exact ⟨⟨⟨rfl, rfl⟩, rfl, rfl⟩, rfl⟩

/-- An intent that SQL does not have is completed to the tables of the whole
operation. -/
theorem restoreIntent_of_unwritten
    (known : store.domains.get? intent.request.session.domainId = some row)
    (sequence : row.acceptedSequence + 1 = intent.request.requestSequence)
    (absent : store.operations.get?
      (intent.request.session.domainId, intent.request.requestSequence) = none)
    (published : Published intent store applied) (restorable : Restorable intent store applied)
    (identified : Identified store) :
    ∃ next, restoreIntent store intent = .ok (some next) ∧
      Agrees next (recordOperation applied intent.request intent.outcome) ∧
      next.ticketIdentities = applied.ticketIdentities ∧
      next.queue = applied.queue ∧ next.queueSequence = applied.queueSequence ∧
      next.reservations = applied.reservations ∧ next.revision = applied.revision + 1 := by
  rcases restoreGrants_of_recordGrants (restorable.identities identified) with
    ⟨restored, folded, identities⟩
  have frame := (restoreGrants_lookup published.stored folded).2.2
  rcases restoreHistory_keeps restored intent with ⟨kept, sameIdentities⟩
  refine ⟨_, restoreIntent_eq_ok.mpr ⟨by simp [inconsistentIntent, absent, known, sequence],
      restorable.present, .inr ⟨absent, restored, folded, rfl⟩⟩,
    (published.restored folded).recordOperation _ _, sameIdentities.trans identities,
    ?_, ?_, ?_, ?_⟩
  · refine kept.queue.1.trans ?_
    rw [restorable.queue.1, frame]
  · refine kept.queue.2.trans ?_
    rw [restorable.queue.2, frame]
  · refine kept.reservations.trans ?_
    rw [restorable.reservations, frame]
  · simp only [recordOperation, Nat.add_right_cancel_iff]
    refine kept.revision.trans ?_
    rw [restorable.revision, frame]

end Intents

theorem retireGrants_frame (journal : Journal) (grants : List GrantSnapshot) :
    (retireGrants journal grants).anchors = journal.anchors ∧
      (retireGrants journal grants).pendingReset = journal.pendingReset := by
  unfold retireGrants
  induction grants generalizing journal with
  | nil => exact ⟨rfl, rfl⟩
  | cons grant rest ih =>
    rw [List.foldl_cons]
    split <;> exact ih _

theorem reset_finishMachineCommit (done : finishMachineCommit journal operationId = .ok finished) :
    finished.pendingReset = journal.pendingReset := by
  unfold finishMachineCommit at done
  split at done
  · cases done
    rfl
  · simp only [ok_iff] at done
    obtain ⟨_, _, _, _, _, _, rfl⟩ := done
    exact (retireGrants_frame _ _).2

/-- What finishing an intent leaves. -/
theorem finishMachineCommit_eq_ok (pending : journal.pending = some intent)
    (done : finishMachineCommit journal intent.request.operationId = .ok finished) :
    ∃ anchor floor, journal.anchors.get? intent.request.session.domainId = some anchor ∧
      finishedFloor intent anchor = .ok floor ∧
      finished = { retireGrants journal intent.grants with
        pending := none
        anchors := journal.anchors.set intent.request.session.domainId { anchor with
          acceptedSequence := max anchor.acceptedSequence intent.request.requestSequence
          retiredSequenceFloor := floor } } := by
  simp only [finishMachineCommit, pending, ok_iff] at done
  rcases done with ⟨_, _, anchor, anchored, floor, computed, same⟩
  exact ⟨anchor, floor, anchored, computed, same.symm⟩

/-- Finishing an intent checkpoints its sequence number too. -/
theorem sameState_checkpoint (pending : journal.pending = some intent)
    (done : finishMachineCommit journal intent.request.operationId = .ok finished) :
    SameState ⟨store, finished⟩ ⟨store, checkpointMachineSequence finished
      intent.request.session.domainId intent.request.requestSequence⟩ := by
  rcases finishMachineCommit_eq_ok pending done with ⟨anchor, floor, _, _, rfl⟩
  refine ⟨.refl _, rfl, ⟨rfl, rfl⟩, rfl, rfl, ?_, rfl, fun _ => Iff.rfl, rfl, rfl⟩
  intro domain
  simp only [checkpointMachineSequence, Table.get?_update, Table.get?_set]
  split
  · simp
  · rfl

theorem SameState.trans (earlier : SameState first second) (later : SameState second third) :
    SameState first third where
  tables := earlier.tables.trans later.tables
  identities := earlier.identities.trans later.identities
  queue := ⟨earlier.queue.1.trans later.queue.1, earlier.queue.2.trans later.queue.2⟩
  reservations := earlier.reservations.trans later.reservations
  revision := earlier.revision.trans later.revision
  anchors domain := (earlier.anchors domain).trans (later.anchors domain)
  permissions := earlier.permissions.trans later.permissions
  retires key := (earlier.retires key).trans (later.retires key)
  pending := earlier.pending.trans later.pending
  reset := earlier.reset.trans later.reset

/-- Tables that agree, beside the same journal. -/
theorem SameState.of_tables (journal : Journal) (tables : Agrees left right)
    (identities : left.ticketIdentities = right.ticketIdentities)
    (queue : left.queue = right.queue ∧ left.queueSequence = right.queueSequence)
    (reservations : left.reservations = right.reservations)
    (revision : left.revision = right.revision) : SameState ⟨left, journal⟩ ⟨right, journal⟩ := by
  refine ⟨tables, identities, queue, reservations, revision, fun _ => rfl, rfl, ?_, rfl, rfl⟩
  intro key
  simp only [Coordinator.Retires, tables.grants key]

/-! ## A prepared call -/

section Calls

variable {config : CoordinatorConfig} {input : ExchangeInput} {request : Request}
  {coordinator : Coordinator} {history : List (Request × Outcome)} {row : DomainRow}
  {prepared : Prepared} {published finished : Journal}

theorem recover_of_settled (settled : Settled coordinator.journal) :
    coordinator.recover = coordinator := by
  rw [Coordinator.recover, reconcilePending_of_settled _ settled]
  rfl

/-- Reopening completes a pending intent. -/
theorem reconcilePending_of_restored (pending : published.pending = some intent)
    (unreset : published.pendingReset = false)
    (restored : restoreIntent store intent = .ok (some next))
    (done : finishMachineCommit published intent.request.operationId = .ok finished) :
    Coordinator.recover ⟨store, published⟩ = ⟨next, finished⟩ ∧
      (reconcilePending false ⟨store, published⟩).answer = .ok () := by
  simp [Coordinator.recover, reconcilePending, pending, unreset, restored, done]

/-- The call publishes an intent: it is admitted, its transaction succeeds, and
the journal accepts what it prepared. -/
structure Preparing (config : CoordinatorConfig) (input : ExchangeInput) (request : Request)
    (coordinator : Coordinator) (row : DomainRow) (prepared : Prepared) (published : Journal) :
    Prop where
  admitted : admitRequest config (compactMachineRetirements coordinator) request = .ok row
  succeeded : exchangeTransaction config input request row
    (compactMachineRetirements coordinator) = .ok prepared
  journaled : journaled prepared.grants prepared.outcome = true
  proposed : proposedMachineCommit (compactMachineRetirements coordinator).journal
    ⟨request, prepared.outcome, prepared.grants⟩ = .ok published

variable (done : finishMachineCommit published request.operationId = .ok finished)

namespace Preparing

variable (preparing : Preparing config input request coordinator row prepared published)

include preparing

theorem pending : published.pending = some ⟨request, prepared.outcome, prepared.grants⟩ :=
  (proposedMachineCommit_eq_ok preparing.proposed).1

/-- The tables are those before the compaction. -/
theorem cases : Replayed request coordinator.store prepared ∨
    ∃ applied, Performed config request coordinator.store row prepared applied := by
  have cases := exchangeTransaction_eq_ok preparing.admitted preparing.succeeded
  rw [(compactMachineRetirements_frame coordinator).1] at cases
  exact cases

include done in
/-- What a call leaves, wherever it stops. -/
theorem exchange (fault : Fault) :
    (exchangeRequest config { input with fault } request coordinator).coordinator =
      match fault with
      | .beforeJournal => compactMachineRetirements coordinator
      | .afterJournal => ⟨coordinator.store, published⟩
      | .afterSql => ⟨prepared.next, published⟩
      | .afterFinish => ⟨prepared.next, finished⟩
      | .none | .inRecovery => ⟨prepared.next, checkpointMachineSequence finished
          request.session.domainId request.requestSequence⟩ := by
  have succeeded : exchangeTransaction config { input with fault } request row
      (compactMachineRetirements coordinator) = .ok prepared := preparing.succeeded
  have store := (compactMachineRetirements_frame coordinator).1
  simp only [exchangeRequest, preparing.admitted, succeeded, commitExchange, preparing.journaled,
    preparing.proposed, done, store]
  cases fault <;> rfl

include done in
theorem answers :
    ∃ reply, (exchangeRequest config { input with fault := .none } request coordinator).answer =
      .ok reply ∧ reply.outcome = prepared.outcome := by
  have succeeded : exchangeTransaction config { input with fault := .none } request row
      (compactMachineRetirements coordinator) = .ok prepared := preparing.succeeded
  simp only [exchangeRequest, preparing.admitted, succeeded, commitExchange, preparing.journaled,
    preparing.proposed, done]
  exact ⟨_, rfl, rfl⟩

theorem finishes (recorded : Recorded coordinator.store history) :
    ∃ finished, finishMachineCommit published request.operationId = .ok finished ∧
      finished.pending = none := by
  rw [← (compactMachineRetirements_frame coordinator).1] at recorded
  rcases proposedMachineCommit_eq_ok preparing.proposed with ⟨pending, anchor, anchored⟩
  exact finishMachineCommit_of_pending published _ pending anchored
    (exchangeTransaction_acknowledged recorded preparing.admitted preparing.succeeded)

/-- Stopped before or after its transaction, an operation that is new or the
last accepted one is completed to the tables of the whole call. -/
theorem restores (identified : Identified coordinator.store)
    (current : coordinator.store.operations.get?
        (request.session.domainId, request.requestSequence) = none ∨
      coordinator.store.accepted request.session.domainId = request.requestSequence) :
    (∃ next, restoreIntent coordinator.store ⟨request, prepared.outcome, prepared.grants⟩ =
        .ok (some next) ∧ ∀ journal, SameState ⟨next, journal⟩ ⟨prepared.next, journal⟩) ∧
      restoreIntent prepared.next ⟨request, prepared.outcome, prepared.grants⟩ =
        .ok (some prepared.next) := by
  have known := (admitRequest_eq_ok preparing.admitted).1
  rw [(compactMachineRetirements_frame coordinator).1] at known
  rcases preparing.cases with replayed | ⟨applied, performed⟩
  · have accepted : row.acceptedSequence = request.requestSequence := by
      rcases current with absent | accepted
      · rw [replayed.known] at absent
        cases absent
      · rw [← accepted, MachineStore.accepted, known]
        rfl
    have restored : restoreIntent coordinator.store
        ⟨request, prepared.outcome, prepared.grants⟩ = .ok (some coordinator.store) := by
      refine restoreIntent_of_recorded replayed.known known accepted ?_
      intro grant member
      rw [replayed.grants] at member
      cases member
    rw [replayed.same]
    exact ⟨⟨_, restored, fun _ => .refl _⟩, restored⟩
  · have absent : coordinator.store.operations.get?
        (request.session.domainId, request.requestSequence) = none := by
      cases found : coordinator.store.operations.get?
          (request.session.domainId, request.requestSequence) with
      | none => rfl
      | some operation =>
        exact absurd rfl (fresh_of_priorOperation performed.inSequence.fresh found).1
    have publication := performed.published preparing.journaled
    have restorable := performed.restorable preparing.journaled
    rcases restoreIntent_of_unwritten performed.inSequence.known performed.inSequence.sequence
      absent publication restorable identified with
      ⟨next, restored, agrees, identities, queue, queueSequence, reservations, revision⟩
    rw [performed.next]
    constructor
    · refine ⟨next, restored, fun journal => ?_⟩
      exact .of_tables journal agrees identities ⟨queue, queueSequence⟩ reservations revision
    · exact restoreIntent_again publication performed.inSequence.known restorable.present
        (.refl _)

end Preparing

/-- When a stop inside the call can be completed.  Without a pending reset, the
request is new or the last accepted operation.  While a reset is pending, the
request asks again for the operation whose intent waits. -/
def Recoverable (request : Request) (coordinator : Coordinator) : Prop :=
  let known := coordinator.store.operations.get?
    (request.session.domainId, request.requestSequence)
  if coordinator.journal.pendingReset then coordinator.journal.pending ≠ none ∧ known ≠ none
  else known = none ∨
    coordinator.store.accepted request.session.domainId = request.requestSequence

/-- The admission of a request depends on its session only. -/
theorem admitRequest_of_session (admitted : admitRequest config coordinator request = .ok row)
    (session : (other.journal.anchors.get? request.session.domainId).bind
        ParticipantAnchor.session =
      (coordinator.journal.anchors.get? request.session.domainId).bind ParticipantAnchor.session)
    (known : other.store.domains.get? request.session.domainId = some new)
    (connectionEpoch : new.connectionEpoch = row.connectionEpoch)
    (managerStoreUuid : new.managerStoreUuid = row.managerStoreUuid)
    (incarnation : new.executorIncarnation = row.executorIncarnation) :
    admitRequest config other request = .ok new := by
  simp only [admitRequest, ok_iff, test_iff] at admitted ⊢
  rcases admitted with ⟨_, valid, _, bytes, registration, found, _, role, _, anchored, _, machine,
    _, _, _, connected, rfl⟩
  exact ⟨(), valid, (), bytes, registration, found, (), role, (), session.trans anchored, (),
    machine, new, known, (), by
      rw [connectionEpoch, managerStoreUuid, incarnation]
      exact connected, rfl⟩

namespace Preparing

theorem settled_compacted (settled : Settled coordinator.journal) :
    Settled (compactMachineRetirements coordinator).journal := by
  unfold compactMachineRetirements
  split <;> exact settled

variable (preparing : Preparing config input request coordinator row prepared published)

include preparing

theorem reset_published :
    published.pendingReset = coordinator.journal.pendingReset := by
  have same := (sameState_compactMachineRetirements coordinator).reset
  rcases (proposedMachineCommit_cases preparing.proposed).2 with ⟨_, rfl⟩ | ⟨_, _, _, rfl⟩ <;>
    exact same

/-- A retained operation is answered from the history. -/
theorem replayed (known : coordinator.store.operations.get?
      (request.session.domainId, request.requestSequence) ≠ none) :
    Replayed request coordinator.store prepared := by
  rcases preparing.cases with replayed | ⟨applied, performed⟩
  · exact replayed
  · rcases Option.ne_none_iff_exists'.mp known with ⟨operation, found⟩
    exact absurd rfl (fresh_of_priorOperation performed.inSequence.fresh found).1

/-- An intent that waits for a reset is published again without a change. -/
theorem published_of_pending (pending : coordinator.journal.pending ≠ none) :
    published = (compactMachineRetirements coordinator).journal := by
  rcases (proposedMachineCommit_cases preparing.proposed).2 with ⟨_, same⟩ | ⟨none, _⟩
  · exact same
  · rw [(compactMachineRetirements_frame coordinator).2.1] at none
    exact absurd none pending

/-- Stopped after the publication, before or after the commit. -/
theorem stopped_published (identified : Identified coordinator.store)
    (settled : Settled coordinator.journal) (recoverable : Recoverable request coordinator)
    (done : finishMachineCommit published request.operationId = .ok finished)
    (stopped : store = coordinator.store ∨ store = prepared.next) :
    Coordinator.recover ⟨store, published⟩ = compactMachineRetirements coordinator ∨
      SameState (Coordinator.recover ⟨store, published⟩) ⟨prepared.next, finished⟩ := by
  have pending := preparing.pending
  simp only [Recoverable] at recoverable
  split at recoverable
  · next reset =>
    -- Reopening leaves a pending reset alone, and the answer changes no table.
    have sameJournal := preparing.published_of_pending recoverable.1
    have sameStore : store = (compactMachineRetirements coordinator).store := by
      rw [(compactMachineRetirements_frame coordinator).1]
      exact stopped.elim id fun same => same.trans (preparing.replayed recoverable.2).same
    left
    rw [sameJournal, sameStore]
    exact recover_of_settled (settled_compacted settled)
  · next unreset =>
    have open_ := preparing.reset_published.trans (Bool.eq_false_iff.mpr unreset)
    rcases preparing.restores identified recoverable with ⟨⟨next, restored, same⟩, again⟩
    right
    rcases stopped with rfl | rfl
    · rw [(reconcilePending_of_restored pending open_ restored done).1]
      exact same finished
    · rw [(reconcilePending_of_restored pending open_ again done).1]
      exact .refl _

/-- A stopped and reopened call never ran, or ran to its end. -/
theorem stopped (identified : Identified coordinator.store) (settled : Settled coordinator.journal)
    (recoverable : Recoverable request coordinator)
    (done : finishMachineCommit published request.operationId = .ok finished) (fault : Fault) :
    (exchangeRequest config { input with fault } request coordinator).coordinator.recover =
        compactMachineRetirements coordinator ∨
      SameState
        (exchangeRequest config { input with fault } request coordinator).coordinator.recover
        (exchangeRequest config { input with fault := .none } request
          coordinator).coordinator := by
  have pending := preparing.pending
  have cleared := pending_finishMachineCommit done
  have checkpointed : SameState ⟨prepared.next, finished⟩ _ := sameState_checkpoint pending done
  have published : ∀ store, store = coordinator.store ∨ store = prepared.next → _ :=
    fun store => preparing.stopped_published identified settled recoverable done
  rw [preparing.exchange done, preparing.exchange done]
  cases fault with
  | beforeJournal => exact .inl (recover_of_settled (settled_compacted settled))
  | afterJournal =>
    exact (published _ (.inl rfl)).imp id fun same => same.trans checkpointed
  | afterSql =>
    exact (published _ (.inr rfl)).imp id fun same => same.trans checkpointed
  | afterFinish =>
    right
    rw [recover_of_settled (.inl cleared)]
    exact checkpointed
  | none | inRecovery =>
    right
    rw [recover_of_settled (.inl cleared)]
    exact .refl _

/-- The recorded operation and the row of its domain. -/
theorem recorded_next :
    prepared.next.operations.get? (request.session.domainId, request.requestSequence) =
        some ⟨request.operationId, request.command, prepared.outcome⟩ ∧
      ∃ new, prepared.next.domains.get? request.session.domainId = some new ∧
        new.connectionEpoch = row.connectionEpoch ∧
        new.managerStoreUuid = row.managerStoreUuid ∧
        new.executorIncarnation = row.executorIncarnation := by
  have known := (admitRequest_eq_ok preparing.admitted).1
  rcases exchangeTransaction_eq_ok preparing.admitted preparing.succeeded with
    replayed | ⟨applied, performed⟩
  · rw [replayed.same]
    exact ⟨replayed.known, row, known, rfl, rfl, rfl⟩
  · rcases (performed.published preparing.journaled).domain known with ⟨new, found, same⟩
    rw [performed.next]
    exact ⟨get?_recordOperation _ _ _, _, domain_of_recordOperation found rfl, same⟩

include done in
/-- After the whole call, the request is answered from the history. -/
theorem answers_again (recorded : Recorded recovered.store history) (same : SameState recovered
      (exchangeRequest config { input with fault := .none } request coordinator).coordinator)
    (later : ExchangeInput) :
    ∃ reply, (machineExchange config { later with fault := .none } request recovered).answer =
      .ok reply ∧ reply.outcome = prepared.outcome := by
  rw [preparing.exchange done] at same
  have pending := preparing.pending
  have finishedPending := pending_finishMachineCommit done
  have cleared : recovered.journal.pending = none := same.pending.trans finishedPending
  rcases preparing.recorded_next with ⟨retained, new, known, connected⟩
  have anchors : (recovered.journal.anchors.get? request.session.domainId).bind
        ParticipantAnchor.session =
      ((compactMachineRetirements coordinator).journal.anchors.get?
        request.session.domainId).bind ParticipantAnchor.session := by
    have begun : published.anchors = (compactMachineRetirements coordinator).journal.anchors := by
      rcases (proposedMachineCommit_cases preparing.proposed).2 with ⟨_, rfl⟩ | ⟨_, _, _, rfl⟩ <;>
        rfl
    have checkpointed : SameState ⟨prepared.next, finished⟩ _ := sameState_checkpoint pending done
    rw [same.anchors, ← checkpointed.anchors, ← begun]
    rcases finishMachineCommit_eq_ok pending done with ⟨anchor, floor, anchored, _, rfl⟩
    rw [anchored, Table.get?_set, if_pos rfl]
    rfl
  rw [machineExchange_of_settled (.inl cleared)]
  refine exchangeRequest_replays recorded ?_ rfl cleared
    (admitRequest_of_session preparing.admitted anchors ?_ connected.1 connected.2.1 connected.2.2)
  · rw [same.tables.operations]
    exact retained
  · rw [same.tables.domains]
    exact known

/-- Reopening takes an intent that was passed for a lost history. -/
theorem recover_of_passed (unreset : coordinator.journal.pendingReset = false)
    (known : coordinator.store.operations.get?
      (request.session.domainId, request.requestSequence) ≠ none)
    (passed : coordinator.store.accepted request.session.domainId ≠ request.requestSequence) :
    (Coordinator.recover ⟨coordinator.store, published⟩).journal.pendingReset = true := by
  have pending := preparing.pending
  have open_ := preparing.reset_published.trans unreset
  have domain := (admitRequest_eq_ok preparing.admitted).1
  rw [(compactMachineRetirements_frame coordinator).1] at domain
  rw [MachineStore.accepted, domain] at passed
  have lost : restoreIntent coordinator.store ⟨request, prepared.outcome, prepared.grants⟩ =
      .ok none :=
    restoreIntent_of_passed (preparing.replayed known).known domain passed
  simp [Coordinator.recover, reconcilePending, pending, open_, lost, CallResult.without]

/-- Otherwise some stop leaves a third state. -/
theorem unrecoverable (unrecoverable : ¬Recoverable request coordinator)
    (done : finishMachineCommit published request.operationId = .ok finished) :
    ∃ fault, fault ≠ .inRecovery ∧
      ¬SameState
        (exchangeRequest config { input with fault } request coordinator).coordinator.recover
        coordinator ∧
      ¬SameState
        (exchangeRequest config { input with fault } request coordinator).coordinator.recover
        (exchangeRequest config { input with fault := .none } request
          coordinator).coordinator := by
  have pending := preparing.pending
  have cleared := pending_finishMachineCommit done
  have reset := preparing.reset_published
  have finishedReset := reset_finishMachineCommit done
  simp only [Recoverable] at unrecoverable
  split at unrecoverable
  · next closed =>
    -- While a reset is pending, reopening completes nothing.
    have waits : ∀ store, Coordinator.recover ⟨store, published⟩ = ⟨store, published⟩ :=
      fun store => recover_of_settled (.inr (reset.trans closed))
    rw [not_and_or, not_not, not_not] at unrecoverable
    rcases unrecoverable with idle | absent
    · refine ⟨.afterJournal, by decide, ?_⟩
      rw [preparing.exchange done, preparing.exchange done]
      dsimp only
      rw [waits]
      constructor
      · intro same
        cases pending.symm.trans (same.pending.trans idle)
      · intro same
        cases pending.symm.trans (same.pending.trans cleared)
    · refine ⟨.afterSql, by decide, ?_⟩
      rw [preparing.exchange done, preparing.exchange done]
      dsimp only
      rw [waits]
      constructor
      · intro same
        have recorded := preparing.recorded_next.1
        rw [same.tables.operations, absent] at recorded
        cases recorded
      · intro same
        cases pending.symm.trans (same.pending.trans cleared)
  · next opened =>
    have unreset := Bool.eq_false_iff.mpr opened
    rw [not_or] at unrecoverable
    have lost := preparing.recover_of_passed unreset unrecoverable.1 unrecoverable.2
    refine ⟨.afterJournal, by decide, ?_⟩
    rw [preparing.exchange done, preparing.exchange done]
    dsimp only
    constructor
    · intro same
      cases lost.symm.trans (same.reset.trans unreset)
    · intro same
      cases lost.symm.trans (same.reset.trans (finishedReset.trans (reset.trans unreset)))

end Preparing

end Calls

/-! ## Every stop of a call -/

/-- The call publishes an intent once the coordinator completed what an earlier
stop left. -/
def Prepares (config : CoordinatorConfig) (input : ExchangeInput) (request : Request)
    (coordinator : Coordinator) : Prop :=
  (reconcilePending false coordinator).answer = .ok () ∧
    ∃ row prepared published,
      Preparing config input request coordinator.recover row prepared published

/-- The coordinator after a stop inside the call and reopening. -/
def stopped (config : CoordinatorConfig) (input : ExchangeInput) (request : Request)
    (coordinator : Coordinator) (fault : Fault) : Coordinator :=
  (machineExchange config { input with fault } request coordinator).coordinator.recover

/-- The call without a stop. -/
def wholeCall (config : CoordinatorConfig) (input : ExchangeInput) (request : Request)
    (coordinator : Coordinator) : CallResult Reply :=
  machineExchange config { input with fault := .none } request coordinator

/-- Wherever the call stops, the reopened coordinator is in the state before it
or after it.  It answers the request like the call without a stop, also if the
request comes again with another input; a call that left nothing behind is then
answered as if it came for the first time. -/
structure Refines (config : CoordinatorConfig) (input : ExchangeInput) (request : Request)
    (coordinator : Coordinator) : Prop where
  state : ∀ fault,
    SameState (stopped config input request coordinator fault) coordinator.recover ∨
      SameState (stopped config input request coordinator fault)
        (wholeCall config input request coordinator).coordinator
  answer : ∀ fault, ∃ reply again,
    (wholeCall config input request coordinator).answer = .ok reply ∧
      (wholeCall config input request (stopped config input request coordinator fault)).answer =
        .ok again ∧
      again.outcome = reply.outcome
  again : ∀ fault later,
    (wholeCall config later request (stopped config input request coordinator fault)).answer =
        (wholeCall config later request coordinator).answer ∨
      ∃ reply again, (wholeCall config input request coordinator).answer = .ok reply ∧
        (wholeCall config later request (stopped config input request coordinator fault)).answer =
          .ok again ∧
        again.outcome = reply.outcome

section Stops

variable {config : CoordinatorConfig} {sent : Request → Prop} {input : ExchangeInput}
  {request : Request} {coordinator : Coordinator} {history : List (Request × Outcome)}

/-- A call goes on from the reopened coordinator. -/
theorem machineExchange_of_recovered
    (answered : (reconcilePending false coordinator).answer = .ok ())
    (outside : fault ≠ .inRecovery) :
    (machineExchange config { input with fault } request coordinator).coordinator =
        (exchangeRequest config { input with fault } request coordinator.recover).coordinator ∧
      (machineExchange config { input with fault } request coordinator).answer =
        (exchangeRequest config { input with fault } request coordinator.recover).answer := by
  have begun : decide (fault = .inRecovery) = false := decide_eq_false outside
  simp only [machineExchange, begun, CallResult.andThen, answered, Coordinator.recover, and_self]

/-- An intent that was completed once is completed again without a change. -/
theorem restoreIntent_restored (sound : PendingSound config sent coordinator)
    (unreset : coordinator.journal.pendingReset = false)
    (pending : coordinator.journal.pending = some intent)
    (restored : restoreIntent coordinator.store intent = .ok (some next)) :
    restoreIntent next intent = .ok (some next) := by
  rcases restoreIntent_eq_ok.mp restored with
    ⟨_, present, ⟨_, _, _, rfl⟩ | ⟨recorded, middle, folded, rfl⟩⟩
  · exact restored
  · rcases sound.computed unreset intent pending with ⟨operation, written⟩ | unwritten
    · rw [recorded] at written
      cases written
    · rcases unwritten with ⟨row, applied, inSequence, _, published⟩
      exact restoreIntent_again published inSequence.known present
        ((published.restored folded).recordOperation _ _)

section Interrupted

variable (sound : PendingSound config sent coordinator)
  (answered : (reconcilePending false coordinator).answer = .ok ())

include sound answered

/-- A stop while an intent is completed leaves it to be completed again. -/
theorem reconcilePending_interrupted :
    reconcilePending true coordinator = reconcilePending false coordinator ∨
      (∃ error, (reconcilePending true coordinator).answer = .error error) ∧
        (reconcilePending true coordinator).coordinator.recover = coordinator.recover ∧
        (reconcilePending false (reconcilePending true coordinator).coordinator).answer =
          .ok () := by
  cases pending : coordinator.journal.pending with
  | none =>
    left
    rw [reconcilePending_of_settled _ (.inl pending), reconcilePending_of_settled _ (.inl pending)]
  | some intent =>
    cases reset : coordinator.journal.pendingReset with
    | true =>
      left
      rw [reconcilePending_of_settled _ (.inr reset), reconcilePending_of_settled _ (.inr reset)]
    | false =>
      cases restored : restoreIntent coordinator.store intent with
      | error error =>
        simp [reconcilePending, pending, reset, restored, CallResult.without] at answered
      | ok result =>
        cases result with
        | none =>
          left
          simp only [reconcilePending, pending, reset, restored]
        | some next =>
          right
          have again := restoreIntent_restored sound reset pending restored
          simp only [reconcilePending, pending, reset, restored, again,
            Bool.false_eq_true, if_false, if_true, Coordinator.recover] at answered ⊢
          refine ⟨⟨_, rfl⟩, ?_⟩
          cases finished : finishMachineCommit coordinator.journal
              intent.request.operationId with
          | error error =>
            rw [finished] at answered
            cases answered
          | ok journal => exact ⟨rfl, rfl⟩

/-- Stopped while it completes an intent, a call has not begun. -/
theorem machineExchange_in_recovery :
    (machineExchange config { input with fault := .inRecovery } request
        coordinator).coordinator =
      (exchangeRequest config { input with fault := .inRecovery } request
        coordinator.recover).coordinator ∨
    (machineExchange config { input with fault := .inRecovery } request
        coordinator).coordinator.recover = coordinator.recover := by
  simp only [machineExchange, decide_true, CallResult.andThen]
  rcases reconcilePending_interrupted sound answered with same | ⟨⟨error, failed⟩, again, _⟩
  · left
    simp only [same, answered, Coordinator.recover]
  · right
    simp only [failed]
    exact again

/-- A stop is one inside the call proper, or the call has not begun. -/
theorem stopped_cases (fault : Fault) :
    stopped config input request coordinator fault =
        (exchangeRequest config { input with fault } request
          coordinator.recover).coordinator.recover ∨
      stopped config input request coordinator fault = coordinator.recover := by
  by_cases inside : fault = .inRecovery
  · subst inside
    exact (machineExchange_in_recovery sound answered).imp (congrArg Coordinator.recover) id
  · exact .inl (congrArg Coordinator.recover (machineExchange_of_recovered answered inside).1)

end Interrupted

theorem exchangeRequest_compacted :
    exchangeRequest config input request (compactMachineRetirements coordinator) =
      exchangeRequest config input request coordinator := by
  simp only [exchangeRequest, compactMachineRetirements_idem]

end Stops

/-- Stops inside a call that publishes an intent, exactly: reopening leads to the
state before the call or after the whole call, and to the same answer, if and only
if the request is recoverable. -/
theorem exchange_stops_refine {config : CoordinatorConfig} {input : ExchangeInput}
    {request : Request} {coordinator : Coordinator} {history : List (Request × Outcome)}
    (run : CoordinatorRun config (fun _ => True) (fun _ => True) coordinator history)
    (prepares : Prepares config input request coordinator) :
    Refines config input request coordinator ↔ Recoverable request coordinator.recover := by
  rcases prepares with ⟨answered, row, prepared, published, preparing⟩
  have reopened : CoordinatorRun config (fun _ => True) (fun _ => True) coordinator.recover _ :=
    .step run (.reopen fun _ => trivial)
  have settled : Settled coordinator.recover.journal :=
    (reconcilePending_effect false run.sound).2 () answered
  rcases preparing.finishes reopened.recorded.2 with ⟨finished, done, _⟩
  rcases preparing.answers done with ⟨reply, replied, outcome⟩
  have whole : (wholeCall config input request coordinator).coordinator = _ ∧
      (wholeCall config input request coordinator).answer = _ :=
    machineExchange_of_recovered answered (by decide)
  constructor
  · intro refines
    by_contra unrecoverable
    rcases preparing.unrecoverable unrecoverable done with ⟨fault, outside, before, after⟩
    have state := refines.state fault
    rw [stopped, (machineExchange_of_recovered answered outside).1, whole.1] at state
    exact state.elim before after
  · intro recoverable
    have cases : ∀ fault, (stopped config input request coordinator fault =
        compactMachineRetirements coordinator.recover ∨
        stopped config input request coordinator fault = coordinator.recover) ∨
        SameState (stopped config input request coordinator fault)
          (wholeCall config input request coordinator).coordinator := by
      intro fault
      rw [whole.1]
      rcases stopped_cases run.sound answered fault with same | same
      · rw [same]
        exact (preparing.stopped reopened.identified settled recoverable done fault).imp .inl id
      · exact .inl (.inr same)
    have again : ∀ fault later,
        (wholeCall config later request (stopped config input request coordinator fault)).answer =
            (wholeCall config later request coordinator).answer ∨
          ∃ reply again, (wholeCall config input request coordinator).answer = .ok reply ∧
            (wholeCall config later request
              (stopped config input request coordinator fault)).answer = .ok again ∧
            again.outcome = reply.outcome := by
      intro fault later
      have anew : (wholeCall config later request coordinator).answer = _ :=
        (machineExchange_of_recovered answered (by decide)).2
      rcases cases fault with (same | same) | same
      · left
        rw [same, anew, wholeCall,
          machineExchange_of_settled (Preparing.settled_compacted settled),
          exchangeRequest_compacted]
      · left
        rw [same, anew, wholeCall, machineExchange_of_settled settled]
      · right
        have again : CoordinatorRun config (fun _ => True) (fun _ => True)
            (stopped config input request coordinator fault) _ :=
          .step (.step run (.exchange trivial trivial)) (.reopen fun _ => trivial)
        rw [whole.1] at same
        rcases preparing.answers_again done again.recorded.2 same later with
          ⟨second, answers, equal⟩
        exact ⟨reply, second, whole.2.trans replied, answers, equal.trans outcome.symm⟩
    refine ⟨?_, fun fault => ?_, again⟩
    · intro fault
      rcases cases fault with (same | same) | same
      · rw [same]
        exact .inl (sameState_compactMachineRetirements _)
      · rw [same]
        exact .inl (.refl _)
      · exact .inr same
    · rcases again fault input with same | answered
      · exact ⟨reply, reply, whole.2.trans replied, same.trans (whole.2.trans replied), rfl⟩
      · exact answered

/-- The manager acknowledges its first operation. -/
def soloAcknowledge : Request := ⟨soloSession, 2, 13, .acknowledge 1⟩

def soloAcknowledged : CallResult Reply :=
  machineExchange soloConfig soloInput soloAcknowledge soloApplied.coordinator

/-- The manager goes on. -/
def soloLater : Request := ⟨soloSession, 3, 14, .inspect none⟩

def soloContinued : CallResult Reply :=
  machineExchange soloConfig soloInput soloLater soloAcknowledged.coordinator

private theorem soloApplied_run : ∃ history, CoordinatorRun soloConfig (fun _ => True)
    (fun _ => True) soloApplied.coordinator history := by
  have challenged : CoordinatorRun soloConfig (fun _ => True) (fun _ => True)
      soloChallenged.coordinator _ := .step .start (.connectBegin trivial)
  have connected : CoordinatorRun soloConfig (fun _ => True) (fun _ => True)
      soloConnected.coordinator _ := .step challenged (.connectFinish trivial)
  exact ⟨_, .step connected (.exchange trivial trivial)⟩

private theorem soloContinued_run : ∃ history, CoordinatorRun soloConfig (fun _ => True)
    (fun _ => True) soloContinued.coordinator history := by
  rcases soloApplied_run with ⟨history, applied⟩
  have acknowledged : CoordinatorRun soloConfig (fun _ => True) (fun _ => True)
      soloAcknowledged.coordinator _ := .step applied (.exchange trivial trivial)
  exact ⟨_, .step acknowledged (.exchange trivial trivial)⟩

private theorem soloApplied_prepares :
    Prepares soloConfig soloInput soloAcknowledge soloApplied.coordinator :=
  ⟨rfl, _, _, _, rfl, rfl, rfl, rfl⟩

/-- The first delivery of the acknowledgement can stop anywhere. -/
theorem soloAcknowledge_stops_refine :
    Prepares soloConfig soloInput soloAcknowledge soloApplied.coordinator ∧
      Refines soloConfig soloInput soloAcknowledge soloApplied.coordinator := by
  rcases soloApplied_run with ⟨history, run⟩
  exact ⟨soloApplied_prepares,
    (exchange_stops_refine run soloApplied_prepares).mpr (.inl rfl)⟩

/-- Delivered once more after a later operation, the acknowledgement is published
again.  A stop after the publication makes reopening record a reset. -/
theorem soloAcknowledge_again_resets :
    ∃ history, CoordinatorRun soloConfig (fun _ => True) (fun _ => True)
        soloContinued.coordinator history ∧
      Prepares soloConfig soloInput soloAcknowledge soloContinued.coordinator ∧
      ¬Refines soloConfig soloInput soloAcknowledge soloContinued.coordinator := by
  rcases soloContinued_run with ⟨history, run⟩
  refine ⟨history, run, ⟨rfl, _, _, _, rfl, rfl, rfl, rfl⟩, ?_⟩
  intro refines
  have stoppedReset : (stopped soloConfig soloInput soloAcknowledge soloContinued.coordinator
      .afterJournal).journal.pendingReset = true := by decide +kernel
  have beforeReset : soloContinued.coordinator.recover.journal.pendingReset = false := by
    decide +kernel
  have afterReset : (wholeCall soloConfig soloInput soloAcknowledge
      soloContinued.coordinator).coordinator.journal.pendingReset = false := by decide +kernel
  rcases refines.state .afterJournal with same | same
  · cases stoppedReset.symm.trans (same.reset.trans beforeReset)
  · cases stoppedReset.symm.trans (same.reset.trans afterReset)

end Stillyard
