import Stillyard.Store.History

/-!
# Sessions and sequence numbers of the coordinator

A session is installed under a higher connection epoch than every one before, and
an operation is accepted only in the newest session.  The last part says when a
request is refused for its number.
-/

namespace Stillyard

open Relational Fallible

variable {session : SessionIdentity} {participant : ParticipantSnapshot}

/-- `machine_domains.connection_epoch`; 0 for an unknown domain. -/
def MachineStore.epoch (store : MachineStore) (domain : ExecutionDomainId) : Nat :=
  ((store.domains.get? domain).map DomainRow.connectionEpoch).getD 0

/-- A domain row with the same session. -/
def KeepsSession (_ : ExecutionDomainId) (old new : DomainRow) : Prop :=
  new.connectionEpoch = old.connectionEpoch ∧ new.executorIncarnation = old.executorIncarnation

theorem KeepsSession.refl (domain : ExecutionDomainId) (row : DomainRow) :
    KeepsSession domain row row := ⟨rfl, rfl⟩

section Sessions

variable {config : CoordinatorConfig} {request : Request} {store next : MachineStore}

theorem epoch_of_evolves (evolves : Table.Evolves KeepsSession store.domains next.domains)
    (domain : ExecutionDomainId) : next.epoch domain = store.epoch domain := by
  unfold MachineStore.epoch
  cases found : store.domains.get? domain with
  | none => rw [evolves.get?_eq_none.mpr found]
  | some row =>
    rcases evolves.lookup found with ⟨new, foundNew, same⟩
    rw [foundNew, Option.map_some, Option.map_some, same.1]

/-- A command opens no session. -/
theorem Applied.sessions
    (applied : Applied config request recovering authorityClosed now store next outcome) :
    Table.Evolves KeepsSession store.domains next.domains ∧
      next.challenges = store.challenges := by
  cases applied with
  | wait | start | armAgain | arm | doubt | release | withdraw | withdrawOffer | inspectPage
  | inspect | reconcilePage => exact ⟨.refl KeepsSession.refl _, rfl⟩
  | acknowledge | reconcileBegin =>
    refine ⟨Table.evolves_update KeepsSession.refl ?_, rfl⟩
    intro row _
    exact ⟨rfl, rfl⟩
  | upsert asked queue upserted =>
    rcases queue with rfl | rfl
    · exact ⟨.refl KeepsSession.refl _, rfl⟩
    · unfold MachineStore.enqueueOwner
      split <;> exact ⟨.refl KeepsSession.refl _, rfl⟩
  | reconcileCommit asked begun complete distinct covers folded =>
    have frame := (evolves_of_reconcileRecords request (fun _ => True) (fun _ _ _ _ => trivial)
      folded).2
    dsimp only
    rw [frame]
    refine ⟨Table.evolves_update KeepsSession.refl ?_, rfl⟩
    intro row _
    exact ⟨rfl, rfl⟩

variable (committed : Committed config request outcome store next)

include committed in
theorem Committed.sessions :
    Table.Evolves KeepsSession store.domains next.domains ∧
      next.challenges = store.challenges := by
  rcases committed with ⟨row, applied, _, attempted, agrees⟩
  have before : Table.Evolves KeepsSession store.domains applied.domains ∧
      applied.challenges = store.challenges := by
    cases attempted with
    | refused base =>
      rw [base.domains]
      exact ⟨.refl KeepsSession.refl _, base.challenges⟩
    | applied base effect =>
      rw [← base.domains, ← base.challenges]
      exact effect.sessions
  have record : Table.Evolves KeepsSession applied.domains next.domains := by
    rw [agrees.domains]
    refine Table.evolves_update KeepsSession.refl ?_
    intro row _
    exact ⟨rfl, rfl⟩
  exact ⟨before.1.trans (fun _ _ _ _ first second =>
    ⟨second.1.trans first.1, second.2.trans first.2⟩) record, agrees.challenges.trans before.2⟩

include committed in
theorem Committed.epoch (domain : ExecutionDomainId) : next.epoch domain = store.epoch domain :=
  epoch_of_evolves committed.sessions.1 domain

theorem epoch_installSession (store : MachineStore) (session : SessionIdentity)
    (domain : ExecutionDomainId) : (installSession store session).epoch domain =
      if domain = session.domainId ∧ (store.domains.get? domain).isSome then
        session.connectionEpoch
      else store.epoch domain := by
  simp only [MachineStore.epoch, installSession, Table.get?_update]
  by_cases named : domain = session.domainId
  · subst named
    rw [if_pos rfl]
    cases store.domains.get? session.domainId <;> simp
  · rw [if_neg named, if_neg fun both => named both.1]

theorem StoreStep.epoch (keyed : Keyed store) (step : StoreStep config store commits next)
    (domain : ExecutionDomainId) : store.epoch domain ≤ next.epoch domain := by
  have same : next.domains = store.domains → store.epoch domain ≤ next.epoch domain := by
    intro domains
    rw [MachineStore.epoch, MachineStore.epoch, domains]
  cases step with
  | commit committed => exact Nat.le_of_eq (committed.epoch domain).symm
  | challenge => exact Nat.le_refl _
  | @session row session _ known newer manager =>
    rw [epoch_installSession]
    split
    · next named =>
      rw [named.1, MachineStore.epoch, known]
      exact Nat.le_of_lt newer
    · exact Nat.le_refl _
  | pass made => exact same (offerTransaction_eq_ok keyed.grants keyed.candidates made).1.domains
  | native agrees => exact same agrees.domains.symm

include committed in
/-- The request of a committed operation is of the newest session. -/
theorem Committed.current :
    request.session.connectionEpoch = store.epoch request.session.domainId := by
  rcases committed with ⟨row, _, inSequence, _, _⟩
  rw [MachineStore.epoch, inSequence.known, Option.map_some, Option.getD_some]
  exact inSequence.session.connectionEpoch.symm

/-- Only an acknowledgement moves the retired floor. -/
theorem Applied.floor
    (applied : Applied config request recovering authorityClosed now store next outcome) :
    KeepsHistory store next ∨ ∃ throughSequence row,
      request.command = .acknowledge throughSequence ∧
        next = compactOperations store request.session.domainId throughSequence ∧
        store.domains.get? request.session.domainId = some row ∧
        row.retiredSequenceFloor ≤ throughSequence := by
  rcases applied.history with ⟨kept, _⟩ | ⟨through, row, answered, same, known, _, raised⟩
  · exact .inl kept
  · refine .inr ⟨through, row, ?_, same, known, raised⟩
    cases applied with
    | acknowledge asked =>
      cases answered
      exact asked
    | _ => cases answered

include committed in
theorem Committed.floor (domain : ExecutionDomainId) :
    next.retiredFloor domain = store.retiredFloor domain ∨
      (domain = request.session.domainId ∧
        request.command = .acknowledge (next.retiredFloor domain)) := by
  rcases committed with ⟨row, applied, inSequence, attempted, agrees⟩
  have recorded : next.retiredFloor domain = applied.retiredFloor domain := by
    simp only [MachineStore.retiredFloor, agrees.domains, recordOperation, Table.get?_update]
    split
    · cases applied.domains.get? domain <;> rfl
    · rfl
  have effect : KeepsHistory store applied ∨ ∃ through,
      request.command = .acknowledge through ∧ row.retiredSequenceFloor ≤ through ∧
        applied.domains = (compactOperations store request.session.domainId through).domains := by
    cases attempted with
    | refused base => exact .inl (.of_same base.operations base.domains)
    | applied base effect =>
      rcases effect.floor with kept | ⟨through, found, asked, rfl, known, raised⟩
      · refine .inl ⟨kept.operations.trans base.operations, ?_⟩
        rw [← base.domains]
        exact kept.domains
      · rw [base.domains, inSequence.known] at known
        cases known
        refine .inr ⟨through, asked, raised, ?_⟩
        simp only [compactOperations, base.domains]
  rcases effect with kept | ⟨through, asked, raised, domains⟩
  · exact .inl (recorded.trans (kept.marks domain).2)
  · by_cases named : domain = request.session.domainId
    · subst named
      refine .inr ⟨rfl, ?_⟩
      rw [recorded, MachineStore.retiredFloor, domains, compactOperations, Table.get?_update,
        if_pos rfl, inSequence.known]
      simp only [Option.map_some, Option.getD_some, Nat.max_eq_right raised]
      exact asked
    · refine .inl (recorded.trans ?_)
      rw [MachineStore.retiredFloor, MachineStore.retiredFloor, domains, compactOperations,
        Table.get?_update, if_neg named]

/-- A finished handshake: the session it installs, and the watermarks it
reports. -/
structure Welcomed (session : SessionIdentity) (participant : ParticipantSnapshot)
    (store next : MachineStore) : Prop where
  known : (store.domains.get? session.domainId).isSome
  newer : store.epoch session.domainId < session.connectionEpoch
  installed : next = installSession store session
  accepted : participant.acceptedSequence = store.accepted session.domainId
  retired : participant.retiredSequenceFloor = store.retiredFloor session.domainId

theorem Welcomed.history (welcomed : Welcomed session participant store next) :
    KeepsHistory store next := by
  rw [welcomed.installed]
  refine ⟨rfl, Table.evolves_update KeepsMarks.refl ?_⟩
  exact fun _ _ => ⟨rfl, rfl⟩

theorem Welcomed.epoch (welcomed : Welcomed session participant store next) :
    next.epoch session.domainId = session.connectionEpoch ∧
      ∀ domain, store.epoch domain ≤ next.epoch domain := by
  rw [welcomed.installed]
  constructor
  · rw [epoch_installSession, if_pos ⟨rfl, welcomed.known⟩]
  · intro domain
    rw [epoch_installSession]
    split
    · next named =>
      rw [named.1]
      exact Nat.le_of_lt welcomed.newer
    · exact Nat.le_refl _

theorem machineConnectFinish_welcome (input : ConnectInput)
    (sound : PendingSound config sent coordinator)
    (answered : (machineConnectFinish config input challenge coordinator).answer =
      .ok participant) :
    ∃ middle commits, StoreRun config coordinator.store commits middle ∧
      (∀ entry ∈ commits, sent entry.1) ∧
      Welcomed challenge.session participant middle
        (machineConnectFinish config input challenge coordinator).coordinator.store := by
  have recovery := (reconcilePending_effect (decide (input.fault = .inRecovery)) sound).1
  unfold machineConnectFinish CallResult.andThen at answered ⊢
  split at answered
  · cases answered
  · refine ⟨_, _, recovery.run, recovery.asked, ?_⟩
    generalize (reconcilePending _ coordinator).coordinator = reconciled at answered ⊢
    rcases connectFinish_cases config input challenge reconciled with
      ⟨_, same⟩ | ⟨_, _, _, _, ⟨_, same⟩ | ⟨row, known, newer, _, same⟩⟩
    · rw [same] at answered
      cases answered
    · rw [same] at answered
      cases answered
    · rw [same] at answered ⊢
      simp only [CallResult.without, machineParticipant, installSession, Table.get?_update, if_pos,
        known, Option.map_some, ok_iff, Option.some.injEq] at answered
      rcases answered with ⟨_, rfl, rfl⟩
      refine ⟨by rw [known]; rfl, ?_, rfl, ?_, ?_⟩
      · rw [MachineStore.epoch, known]
        exact newer
      · rw [MachineStore.accepted, known]
        rfl
      · rw [MachineStore.retiredFloor, known]
        rfl

end Sessions

/-! ## Refusals for a number -/

/-- The refusals of `machine_exchange` for the number of a request. -/
def Misnumbered (error : StoreError) : Prop :=
  error = rejected "history_unknown" "operation is below the retired sequence floor" ∨
    error = rejected "stale" "request sequence is not the next durable operation"

/-- A request that is neither retained nor next in its domain. -/
def OutOfSequence (store : MachineStore) (request : Request) : Prop :=
  priorOperation store request = none ∧
    ∃ row, store.domains.get? request.session.domainId = some row ∧
      ¬(row.retiredSequenceFloor < request.requestSequence ∧
        row.acceptedSequence + 1 = request.requestSequence ∧ request.requestSequence ≤ i64Max)

section Refusals

variable {config : CoordinatorConfig} {input : ExchangeInput} {request : Request}
  {coordinator : Coordinator}

private theorem not_misnumbered_io (detail : String) : ¬Misnumbered (.io detail) := by
  simp [Misnumbered, rejected]

private theorem not_misnumbered_invalidState (detail : String) :
    ¬Misnumbered (.invalidState detail) := by
  simp [Misnumbered, rejected]

private theorem loadGrant_fails (store : MachineStore) (key : AllocationKey) :
    FailsOnly (¬Misnumbered ·) (loadGrant store key) := by
  refine .bind (.orError ?_) fun _ _ => .bind (.require ?_) fun _ _ => .ok _
  · simp [Misnumbered, rejected]
  · exact not_misnumbered_invalidState _

private theorem saveGrant_fails (store : MachineStore) (grant : GrantSnapshot)
    (physical : Option ResolvedClaims) :
    FailsOnly (¬Misnumbered ·) (saveGrant store grant physical) := by
  refine .bind (.foldlM ?_) fun _ _ => .ok _
  intro identities intent
  unfold recordIdentity
  extract_lets row next
  split
  · exact .ok _
  · refine .error ?_
    simp [Misnumbered, rejected]

private theorem proposedMachineCommit_fails (journal : Journal) (intent : MachineCommitIntent) :
    FailsOnly (¬Misnumbered ·) (proposedMachineCommit journal intent) := by
  refine .bind (.orError (not_misnumbered_io _)) fun _ _ =>
    .bind (.require (not_misnumbered_io _)) fun _ _ => ?_
  split
  · exact .bind (.require (not_misnumbered_io _)) fun _ _ => .ok _
  · refine .bind (.foldlM ?_) fun _ _ => .ok _
    intro permissions grant
    unfold proposePermission
    split
    · exact .ok _
    · split
      · exact .error (not_misnumbered_io _)
      · split
        · exact .error (not_misnumbered_io _)
        · exact .ok _

private theorem finishMachineCommit_fails (journal : Journal) (operationId : Uuid) :
    FailsOnly (¬Misnumbered ·) (finishMachineCommit journal operationId) := by
  unfold finishMachineCommit
  split
  · exact .ok _
  · refine .bind (.require (not_misnumbered_io _)) fun _ _ =>
      .bind (.orError (not_misnumbered_io _)) fun _ _ => .bind ?_ fun _ _ => .ok _
    unfold finishedFloor
    split
    · split
      · exact .ok _
      · exact .error (not_misnumbered_io _)
    · exact .ok _

private theorem restoreIntent_fails (store : MachineStore) (intent : MachineCommitIntent) :
    FailsOnly (¬Misnumbered ·) (restoreIntent store intent) := by
  unfold restoreIntent
  dsimp only
  split
  · exact .ok _
  · split
    · exact .ok _
    · split
      · exact .bind (.mapM fun _ _ => loadGrant_fails _ _) fun _ _ => .ok _
      · refine .bind (.foldlM ?_) fun _ _ => .ok _
        intro restored grant
        refine .bind (saveGrant_fails _ _ _) fun _ _ => ?_
        split <;> exact .ok _

private theorem reconcilePending_fails (interrupted : Bool) (coordinator : Coordinator) :
    FailsOnly (¬Misnumbered ·) (reconcilePending interrupted coordinator).answer := by
  unfold reconcilePending
  split
  · exact .ok ()
  · split
    · exact .ok ()
    · split
      · next error failed => exact .error (restoreIntent_fails _ _ error failed)
      · exact .ok ()
      · dsimp only
        split
        · exact .error (not_misnumbered_io _)
        · split
          · next error failed => exact .error (finishMachineCommit_fails _ _ error failed)
          · exact .ok ()

private theorem commitGrants_fails (store : MachineStore) (request : Request)
    (outcome : Outcome) : FailsOnly (¬Misnumbered ·) (commitGrants store request outcome) := by
  unfold commitGrants
  split
  · exact .ok _
  · split
    · exact .bind (loadGrant_fails _ _) fun _ _ =>
        .bind (.require (not_misnumbered_invalidState _)) fun _ _ => .ok _
    · exact .error (not_misnumbered_invalidState _)
  · exact .bind (loadGrant_fails _ _) fun _ _ => .ok _
  · exact .mapM fun _ _ => loadGrant_fails _ _
  · exact .ok _

private theorem savepoint_fails {participant : DomainRow} (journal : Journal)
    (store : MachineStore) :
    FailsOnly (¬Misnumbered ·) (savepoint config input request participant journal store) := by
  unfold savepoint
  split
  · exact .ok _
  · next error _ =>
    -- A refusal of the command is its answer.
    cases error with
    | operationRejected code detail | invalidSpec detail => exact .ok _
    | invalidState detail => exact .error (not_misnumbered_invalidState _)
    | io detail => exact .error (not_misnumbered_io _)
    | notFound | idempotencyConflict | rejected | blockedByAncestor | managedWaitRejected
    | sqlite =>
      apply FailsOnly.error
      simp [Misnumbered, rejected]

private theorem admitRequest_fails :
    FailsOnly (¬Misnumbered ·) (admitRequest config coordinator request) := by
  unfold admitRequest
  refine .bind (.require (not_misnumbered_io _)) fun _ _ =>
    .bind (.require (not_misnumbered_io _)) fun _ _ => .bind (.orError ?_) fun _ _ =>
    .bind (.require ?_) fun _ _ => .bind (.require ?_) fun _ _ => .bind (.require ?_) fun _ _ =>
    .bind (.orError ?_) fun _ _ => .bind (.require ?_) fun _ _ => .ok _
  all_goals simp [Misnumbered, rejected]

private theorem commitExchange_fails (prepared : Prepared) :
    FailsOnly (¬Misnumbered ·) (commitExchange input request coordinator prepared).answer := by
  unfold commitExchange
  dsimp only
  split
  · exact .error (not_misnumbered_io _)
  · split
    · split
      · next error failed => exact .error (proposedMachineCommit_fails _ _ error failed)
      · split
        · exact .error (not_misnumbered_io _)
        · split
          · exact .error (not_misnumbered_io _)
          · split
            · next error failed => exact .error (finishMachineCommit_fails _ _ error failed)
            · split
              · exact .error (not_misnumbered_io _)
              · exact .ok _
    · split
      · exact .ok _
      · exact .error (not_misnumbered_io _)

/-- A transaction refuses a request for its number only out of sequence. -/
private theorem exchangeTransaction_fails {participant : DomainRow}
    (known : coordinator.store.domains.get? request.session.domainId = some participant) :
    FailsOnly (fun error => Misnumbered error → OutOfSequence coordinator.store request)
      (exchangeTransaction config input request participant coordinator) := by
  have other : ∀ {α : Type} {computation : StoreResult α},
      FailsOnly (¬Misnumbered ·) computation →
        FailsOnly (fun error => Misnumbered error → OutOfSequence coordinator.store request)
          computation :=
    fun fails error failed misnumbered => absurd misnumbered (fails error failed)
  unfold exchangeTransaction
  split
  · refine other (.bind (.require ?_) fun _ _ => .ok _)
    simp [Misnumbered, rejected]
  · next fresh =>
    refine .bind (.bind ?_ fun _ _ => .bind (other (savepoint_fails _ _)) fun _ _ => .ok _)
      fun _ _ => .bind (other (commitGrants_fails _ _ _)) fun _ _ => .ok _
    by_cases inSequence : participant.retiredSequenceFloor < request.requestSequence ∧
        participant.acceptedSequence + 1 = request.requestSequence ∧
        request.requestSequence ≤ i64Max
    · unfold admitNext
      rw [require, if_pos (by simp only [decide_eq_true_eq]; exact inSequence.1), require,
        if_pos (by simp only [test_iff]; exact inSequence.2)]
      refine other (.bind (.ok _) fun _ _ => .bind (.ok _) fun _ _ => .require ?_)
      simp [Misnumbered, rejected]
    · exact fun _ _ _ => ⟨fresh, participant, known, inSequence⟩

/-- An exchange refuses a request for its number only if it is out of sequence
once the pending commit was completed. -/
theorem machineExchange_fails :
    FailsOnly (fun error => Misnumbered error → OutOfSequence
      (reconcilePending (input.fault = .inRecovery) coordinator).coordinator.store request)
      (machineExchange config input request coordinator).answer := by
  unfold machineExchange CallResult.andThen
  split
  · next error failed =>
    exact .error fun misnumbered => absurd misnumbered (reconcilePending_fails _ _ error failed)
  · dsimp only
    unfold exchangeRequest
    dsimp only
    split
    · next error failed =>
      exact .error fun misnumbered => absurd misnumbered (admitRequest_fails error failed)
    · next participant admitted =>
      have known := (admitRequest_eq_ok admitted).1
      split
      · next error failed =>
        rw [← (compactMachineRetirements_frame _).1]
        exact .error (exchangeTransaction_fails known error failed)
      · exact fun error failed misnumbered =>
          absurd misnumbered (commitExchange_fails _ error failed)

end Refusals

end Stillyard
