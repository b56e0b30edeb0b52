import Stillyard.Store.Calls
import Stillyard.Machine.Json

/-!
# Operation history

Every domain numbers its operations 1, 2, 3, …; the coordinator accepts only the
next one, keeps its outcome until a later operation acknowledges it, and answers
a repeated delivery from what it kept.  `Recorded` relates the tables to the list
of operations committed so far.
-/

namespace Stillyard

open Relational Fallible

variable {before after store next : MachineStore} {config : CoordinatorConfig} {row : DomainRow}
  {domain : ExecutionDomainId} {floor : Nat} {request : Request} {outcome : Outcome}
  {prepared : Prepared}

/-- `machine_domains.accepted_sequence`; 0 for an unknown domain. -/
def MachineStore.accepted (store : MachineStore) (domain : ExecutionDomainId) : Nat :=
  ((store.domains.get? domain).map DomainRow.acceptedSequence).getD 0

/-- `machine_domains.retired_sequence_floor`; 0 for an unknown domain. -/
def MachineStore.retiredFloor (store : MachineStore) (domain : ExecutionDomainId) : Nat :=
  ((store.domains.get? domain).map DomainRow.retiredSequenceFloor).getD 0

/-- The record of an operation in `machine_operations`. -/
def operationRow (entry : Request × Outcome) : OperationRow :=
  ⟨entry.1.operationId, entry.1.command, entry.2⟩

/-- A domain row with the same watermarks. -/
def KeepsMarks (_ : ExecutionDomainId) (old new : DomainRow) : Prop :=
  new.acceptedSequence = old.acceptedSequence ∧
    new.retiredSequenceFloor = old.retiredSequenceFloor

theorem KeepsMarks.refl (domain : ExecutionDomainId) (row : DomainRow) :
    KeepsMarks domain row row := ⟨rfl, rfl⟩

/-- A step that neither accepts nor retires operations. -/
structure KeepsHistory (before after : MachineStore) : Prop where
  operations : after.operations = before.operations
  domains : Table.Evolves KeepsMarks before.domains after.domains

theorem KeepsHistory.of_same (operations : after.operations = before.operations)
    (domains : after.domains = before.domains) : KeepsHistory before after :=
  ⟨operations, domains ▸ Table.Evolves.refl KeepsMarks.refl _⟩

theorem KeepsHistory.marks (kept : KeepsHistory before after) (domain : ExecutionDomainId) :
    after.accepted domain = before.accepted domain ∧
      after.retiredFloor domain = before.retiredFloor domain := by
  unfold MachineStore.accepted MachineStore.retiredFloor
  cases found : before.domains.get? domain with
  | none =>
    rw [kept.domains.get?_eq_none.mpr found]
    exact ⟨rfl, rfl⟩
  | some row =>
    rcases kept.domains.lookup found with ⟨new, foundNew, marks⟩
    rw [foundNew]
    exact marks

/-- A transaction commits one operation or keeps the history. -/
theorem StoreStep.history (keyed : Keyed store) (step : StoreStep config store commits next) :
    (commits = [] ∧ KeepsHistory store next) ∨
      ∃ request outcome, commits = [(request, outcome)] ∧
        Committed config request outcome store next := by
  cases step with
  | commit committed => exact .inr ⟨_, _, rfl, committed⟩
  | challenge => exact .inl ⟨rfl, .of_same rfl rfl⟩
  | session =>
    refine .inl ⟨rfl, rfl, Table.evolves_update KeepsMarks.refl ?_⟩
    intro row _
    exact ⟨rfl, rfl⟩
  | pass made =>
    have frame := (offerTransaction_eq_ok keyed.grants keyed.candidates made).1
    exact .inl ⟨rfl, .of_same frame.operations frame.domains⟩
  | native same => exact .inl ⟨rfl, .of_same same.operations.symm same.domains.symm⟩

/-- What a committed operation does to the history of its domain: it is appended,
and everything up to `floor` is retired. -/
structure Advances (request : Request) (outcome : Outcome) (store next : MachineStore)
    (floor : Nat) : Prop where
  sequence : store.accepted request.session.domainId + 1 = request.requestSequence
  fresh : ∀ sequence row,
    store.operations.get? (request.session.domainId, sequence) = some row →
      row.operationId ≠ request.operationId
  raised : store.retiredFloor request.session.domainId ≤ floor
  below : floor ≤ store.accepted request.session.domainId
  accepted : ∀ domain, next.accepted domain =
    if domain = request.session.domainId then request.requestSequence else store.accepted domain
  retired : ∀ domain, next.retiredFloor domain =
    if domain = request.session.domainId then floor else store.retiredFloor domain
  operations : ∀ domain sequence, next.operations.get? (domain, sequence) =
    if domain = request.session.domainId ∧ sequence = request.requestSequence then
      some (operationRow (request, outcome))
    else if domain = request.session.domainId ∧ sequence ≤ floor then none
    else store.operations.get? (domain, sequence)
  acknowledged : ∀ throughSequence, outcome = .acknowledged throughSequence →
    throughSequence < request.requestSequence ∧ throughSequence = floor
  unacknowledged : (∀ throughSequence, outcome ≠ .acknowledged throughSequence) →
    floor = store.retiredFloor request.session.domainId

section Advances

variable {config : CoordinatorConfig} {request : Request} {recovering authorityClosed : Bool}
  {now : Int} {store next : MachineStore} {outcome : Outcome}

/-- A command keeps the history, except an acknowledgement, which compacts it. -/
theorem Applied.history
    (applied : Applied config request recovering authorityClosed now store next outcome) :
    (KeepsHistory store next ∧ ∀ throughSequence, outcome ≠ .acknowledged throughSequence) ∨
      ∃ throughSequence row, outcome = .acknowledged throughSequence ∧
        next = compactOperations store request.session.domainId throughSequence ∧
        store.domains.get? request.session.domainId = some row ∧
        throughSequence ≤ row.acceptedSequence ∧ row.retiredSequenceFloor ≤ throughSequence := by
  cases applied with
  | acknowledge asked known accepted floor =>
    exact .inr ⟨_, _, rfl, rfl, known, accepted, floor⟩
  | wait | armAgain | inspectPage | inspect | withdraw | reconcilePage | start | arm | doubt
  | release | withdrawOffer =>
    exact .inl ⟨.of_same rfl rfl, fun _ same => nomatch same⟩
  | upsert asked queue upserted =>
    refine .inl ⟨?_, fun _ same => nomatch same⟩
    rcases queue with rfl | rfl
    · exact .of_same rfl rfl
    · unfold MachineStore.enqueueOwner
      split <;> exact .of_same rfl rfl
  | reconcileBegin =>
    refine .inl ⟨⟨rfl, Table.evolves_update KeepsMarks.refl ?_⟩, fun _ same => nomatch same⟩
    intro row _
    exact ⟨rfl, rfl⟩
  | reconcileCommit asked begun complete distinct covers folded =>
    have frame := (evolves_of_reconcileRecords request (fun _ => True) (fun _ _ _ _ => trivial)
      folded).2
    refine .inl ⟨⟨?_, ?_⟩, fun _ same => nomatch same⟩
    · dsimp only
      rw [frame]
    · dsimp only
      rw [frame]
      refine Table.evolves_update KeepsMarks.refl ?_
      intro row _
      exact ⟨rfl, rfl⟩

private theorem marks_recordOperation (request : Request) (outcome : Outcome)
    (known : store.domains.get? request.session.domainId = some row) (domain : ExecutionDomainId) :
    (recordOperation store request outcome).accepted domain =
        (if domain = request.session.domainId then request.requestSequence
        else store.accepted domain) ∧
      (recordOperation store request outcome).retiredFloor domain = store.retiredFloor domain := by
  simp only [MachineStore.accepted, MachineStore.retiredFloor, recordOperation, Table.get?_update]
  split
  · next same =>
    subst same
    rw [known]
    exact ⟨rfl, rfl⟩
  · exact ⟨rfl, rfl⟩

private theorem marks_compactOperations (known : store.domains.get? domain = some row)
    (raised : row.retiredSequenceFloor ≤ floor) (other : ExecutionDomainId) :
    (compactOperations store domain floor).accepted other = store.accepted other ∧
      (compactOperations store domain floor).retiredFloor other =
        if other = domain then floor else store.retiredFloor other := by
  simp only [MachineStore.accepted, MachineStore.retiredFloor, compactOperations,
    Table.get?_update]
  split
  · next same =>
    subst same
    rw [known]
    exact ⟨rfl, Nat.max_eq_right raised⟩
  · exact ⟨rfl, rfl⟩

theorem fresh_of_priorOperation {sequence : Nat} (fresh : priorOperation store request = none)
    {row : OperationRow}
    (found : store.operations.get? (request.session.domainId, sequence) = some row) :
    sequence ≠ request.requestSequence ∧ row.operationId ≠ request.operationId := by
  simp only [priorOperation, Option.map_eq_none_iff, List.find?_eq_none, Bool.and_eq_true,
    Bool.or_eq_true, decide_eq_true_eq, not_and, not_or] at fresh
  exact fresh _ (Table.mem_rows.mpr found) rfl

/-- A committed operation is the next one, and is recorded. -/
theorem Committed.advances
    (retained : ∀ domain sequence row, store.operations.get? (domain, sequence) = some row →
      store.retiredFloor domain < sequence)
    (ordered : ∀ domain, store.retiredFloor domain ≤ store.accepted domain)
    (committed : Committed config request outcome store next) :
    ∃ floor, Advances request outcome store next floor := by
  rcases committed with ⟨row, applied, inSequence, attempted, agrees⟩
  have acceptedAt : store.accepted request.session.domainId = row.acceptedSequence := by
    rw [MachineStore.accepted, inSequence.known]
    rfl
  have floorAt : store.retiredFloor request.session.domainId = row.retiredSequenceFloor := by
    rw [MachineStore.retiredFloor, inSequence.known]
    rfl
  have sequence : store.accepted request.session.domainId + 1 = request.requestSequence :=
    acceptedAt ▸ inSequence.sequence
  have fresh : ∀ number operation,
      store.operations.get? (request.session.domainId, number) = some operation →
        operation.operationId ≠ request.operationId := fun _ _ found =>
    (fresh_of_priorOperation inSequence.fresh found).2
  -- Before it is recorded, the operation kept the history or compacted it.
  have effect : (KeepsHistory store applied ∧ ∀ through, outcome ≠ .acknowledged through) ∨
      ∃ through, outcome = .acknowledged through ∧ through ≤ row.acceptedSequence ∧
        row.retiredSequenceFloor ≤ through ∧
        applied.operations =
          (compactOperations store request.session.domainId through).operations ∧
        applied.domains = (compactOperations store request.session.domainId through).domains := by
    cases attempted with
    | refused base =>
      exact .inl ⟨.of_same base.operations base.domains, fun _ same => nomatch same⟩
    | applied base effect =>
      rcases effect.history with ⟨kept, other⟩ | ⟨through, known, rfl, rfl, found, bound, raised⟩
      · refine .inl ⟨⟨kept.operations.trans base.operations, ?_⟩, other⟩
        rw [← base.domains]
        exact kept.domains
      · rw [base.domains, inSequence.known] at found
        cases found
        refine .inr ⟨through, rfl, bound, raised, ?_, ?_⟩
        · simp only [compactOperations, base.operations]
        · simp only [compactOperations, base.domains]
  have nextAccepted : ∀ domain, next.accepted domain =
      (recordOperation applied request outcome).accepted domain := fun domain => by
    rw [MachineStore.accepted, MachineStore.accepted, agrees.domains]
  have nextFloor : ∀ domain, next.retiredFloor domain =
      (recordOperation applied request outcome).retiredFloor domain := fun domain => by
    rw [MachineStore.retiredFloor, MachineStore.retiredFloor, agrees.domains]
  rcases effect with ⟨kept, other⟩ | ⟨through, rfl, bound, raised, operations, domains⟩
  · rcases kept.domains.lookup inSequence.known with ⟨new, known, _⟩
    refine ⟨store.retiredFloor request.session.domainId, sequence, fresh, Nat.le_refl _,
      ordered _, ?_, ?_, ?_, fun through same => absurd same (other through), fun _ => rfl⟩
    · intro domain
      rw [nextAccepted, (marks_recordOperation request outcome known domain).1,
        (kept.marks domain).1]
    · intro domain
      rw [nextFloor, (marks_recordOperation request outcome known domain).2, (kept.marks domain).2]
      split
      · next same => rw [same]
      · rfl
    · intro domain number
      rw [agrees.operations, recordOperation, Table.get?_set, kept.operations]
      simp only [Prod.mk.injEq]
      split
      · rfl
      · split
        · next retiredAt =>
          cases found : store.operations.get? (domain, number) with
          | none => rfl
          | some kept =>
            have above := retained domain number kept found
            rw [retiredAt.1] at above
            exact absurd retiredAt.2 (Nat.not_le_of_lt above)
        · rfl
  · have compacted := fun domain =>
      marks_compactOperations inSequence.known raised domain
    have appliedMarks : ∀ domain,
        applied.accepted domain = store.accepted domain ∧
          applied.retiredFloor domain =
            if domain = request.session.domainId then through else store.retiredFloor domain := by
      intro domain
      rw [← (compacted domain).1, ← (compacted domain).2]
      simp only [MachineStore.accepted, MachineStore.retiredFloor, domains, and_self]
    have known : applied.domains.get? request.session.domainId =
        some { row with retiredSequenceFloor := max row.retiredSequenceFloor through } := by
      rw [domains, compactOperations, Table.get?_update, if_pos rfl, inSequence.known]
      rfl
    refine ⟨through, sequence, fresh, floorAt ▸ raised, acceptedAt ▸ bound, ?_, ?_, ?_, ?_,
      fun other => absurd rfl (other through)⟩
    · intro domain
      rw [nextAccepted, (marks_recordOperation request _ known domain).1, (appliedMarks domain).1]
    · intro domain
      rw [nextFloor, (marks_recordOperation request _ known domain).2, (appliedMarks domain).2]
    · intro domain number
      rw [agrees.operations, recordOperation, Table.get?_set, operations, compactOperations,
        Table.get?_filter]
      simp only [Prod.mk.injEq]
      split
      · rfl
      · split
        · next retiredAt =>
          rw [Option.filter_eq_none_iff]
          intro operation _
          simp [retiredAt]
        · next above =>
          cases store.operations.get? (domain, number) with
          | none => rfl
          | some operation =>
            rw [Option.filter_some, if_pos]
            simpa [imp_iff_not_or] using above
    · intro throughSequence same
      cases same
      rw [← sequence, acceptedAt]
      exact ⟨Nat.lt_succ_of_le bound, rfl⟩

end Advances

/-! ## The history of a run -/

/-- The operations of one domain. -/
def operationsOf (history : List (Request × Outcome)) (domain : ExecutionDomainId) :
    List (Request × Outcome) :=
  history.filter fun entry => entry.1.session.domainId = domain

/-- The tables are those after the operations of `history`. -/
structure Recorded (store : MachineStore) (history : List (Request × Outcome)) : Prop where
  sequences : ∀ domain, (operationsOf history domain).map (fun entry => entry.1.requestSequence) =
    List.range' 1 (store.accepted domain)
  retained : ∀ domain sequence row, store.operations.get? (domain, sequence) = some row ↔
    store.retiredFloor domain < sequence ∧
      ∃ entry ∈ operationsOf history domain, entry.1.requestSequence = sequence ∧
        operationRow entry = row
  unique : ∀ domain left right leftRow rightRow,
    store.operations.get? (domain, left) = some leftRow →
    store.operations.get? (domain, right) = some rightRow →
    leftRow.operationId = rightRow.operationId → left = right
  ordered : ∀ domain, store.retiredFloor domain ≤ store.accepted domain
  acknowledged : ∀ entry ∈ history, ∀ throughSequence, entry.2 = .acknowledged throughSequence →
    throughSequence < entry.1.requestSequence ∧
      throughSequence ≤ store.retiredFloor entry.1.session.domainId

theorem Recorded.keep (recorded : Recorded before history) (kept : KeepsHistory before after) :
    Recorded after history where
  sequences domain := by
    rw [(kept.marks domain).1]
    exact recorded.sequences domain
  retained domain sequence row := by
    rw [kept.operations, (kept.marks domain).2]
    exact recorded.retained domain sequence row
  unique := by
    rw [kept.operations]
    exact recorded.unique
  ordered domain := by
    rw [(kept.marks domain).1, (kept.marks domain).2]
    exact recorded.ordered domain
  acknowledged entry member throughSequence answered := by
    rw [(kept.marks _).2]
    exact recorded.acknowledged entry member throughSequence answered

private theorem operationsOf_append (history : List (Request × Outcome))
    (entry : Request × Outcome) (domain : ExecutionDomainId) :
    operationsOf (history ++ [entry]) domain =
      operationsOf history domain ++
        if entry.1.session.domainId = domain then [entry] else [] := by
  simp only [operationsOf, List.filter_append, List.filter_cons, List.filter_nil,
    decide_eq_true_eq]

/-- A committed sequence number is at most the accepted one. -/
theorem Recorded.sequence_le (recorded : Recorded store history)
    (member : entry ∈ operationsOf history domain) :
    entry.1.requestSequence ≤ store.accepted domain := by
  have listed : entry.1.requestSequence ∈ List.range' 1 (store.accepted domain) := by
    rw [← recorded.sequences domain]
    exact List.mem_map_of_mem member
  rw [List.mem_range'_1] at listed
  omega

/-- The retained operations of the advancing domain. -/
private theorem Advances.retained_iff (advances : Advances request outcome store next floor)
    (recorded : Recorded store history) (sequence : Nat) (row : OperationRow) :
    next.operations.get? (request.session.domainId, sequence) = some row ↔
      floor < sequence ∧
        ∃ entry ∈ operationsOf history request.session.domainId ++ [(request, outcome)],
          entry.1.requestSequence = sequence ∧ operationRow entry = row := by
  have inOrder := advances.sequence
  have below := advances.below
  rw [advances.operations]
  simp only [true_and, List.mem_append, List.mem_singleton]
  by_cases last : sequence = request.requestSequence
  · subst last
    rw [if_pos rfl, Option.some.injEq]
    constructor
    · intro same
      exact ⟨by omega, (request, outcome), .inr rfl, rfl, same⟩
    · rintro ⟨_, entry, earlier | rfl, number, same⟩
      · have bound := recorded.sequence_le earlier
        omega
      · exact same
  · rw [if_neg last]
    split
    · next retiredAt =>
      refine iff_of_false (fun found => nomatch found) ?_
      rintro ⟨above, _⟩
      omega
    · next kept =>
      rw [recorded.retained]
      constructor
      · rintro ⟨_, entry, member, number, same⟩
        exact ⟨by omega, entry, .inl member, number, same⟩
      · rintro ⟨above, entry, earlier | rfl, number, same⟩
        · have raised := advances.raised
          exact ⟨by omega, entry, earlier, number, same⟩
        · exact absurd number.symm last

theorem Recorded.advance (recorded : Recorded store history)
    (advances : Advances request outcome store next floor) :
    Recorded next (history ++ [(request, outcome)]) where
  sequences domain := by
    rw [operationsOf_append, List.map_append, recorded.sequences, advances.accepted]
    by_cases same : domain = request.session.domainId
    · subst same
      rw [if_pos rfl, if_pos rfl, ← advances.sequence, List.range'_1_concat, Nat.add_comm 1]
      simp only [List.map_cons, List.map_nil, ← advances.sequence]
    · rw [if_neg (Ne.symm same), if_neg same, List.map_nil, List.append_nil]
  retained domain sequence row := by
    rw [operationsOf_append, advances.retired]
    by_cases same : domain = request.session.domainId
    · subst same
      rw [if_pos rfl, if_pos rfl]
      exact advances.retained_iff recorded sequence row
    · rw [if_neg same, if_neg (Ne.symm same), List.append_nil, advances.operations,
        if_neg fun both => same both.1, if_neg fun both => same both.1]
      exact recorded.retained domain sequence row
  unique := by
    intro domain left right leftRow rightRow foundLeft foundRight sameId
    by_cases same : domain = request.session.domainId
    · subst same
      have origin : ∀ {number row}, next.operations.get? (request.session.domainId, number) =
          some row → number = request.requestSequence ∧ row.operationId = request.operationId ∨
            number ≠ request.requestSequence ∧
              store.operations.get? (request.session.domainId, number) = some row := by
        intro number row found
        rw [advances.operations] at found
        simp only [true_and] at found
        split at found
        · next last =>
          cases found
          exact .inl ⟨last, rfl⟩
        · next earlier =>
          split at found
          · cases found
          · exact .inr ⟨earlier, found⟩
      rcases origin foundLeft with ⟨rfl, leftId⟩ | ⟨_, oldLeft⟩
      · rcases origin foundRight with ⟨rfl, _⟩ | ⟨_, oldRight⟩
        · rfl
        · exact absurd (sameId.symm.trans leftId) (advances.fresh _ _ oldRight)
      · rcases origin foundRight with ⟨rfl, rightId⟩ | ⟨_, oldRight⟩
        · exact absurd (sameId.trans rightId) (advances.fresh _ _ oldLeft)
        · exact recorded.unique _ _ _ _ _ oldLeft oldRight sameId
    · rw [advances.operations, if_neg fun both => same both.1,
        if_neg fun both => same both.1] at foundLeft foundRight
      exact recorded.unique _ _ _ _ _ foundLeft foundRight sameId
  ordered domain := by
    rw [advances.accepted, advances.retired]
    split
    · have below := advances.below
      have inOrder := advances.sequence
      omega
    · exact recorded.ordered domain
  acknowledged := by
    intro entry member throughSequence answered
    rw [advances.retired]
    rcases List.mem_append.mp member with earlier | last
    · rcases recorded.acknowledged entry earlier throughSequence answered with ⟨below, covered⟩
      refine ⟨below, ?_⟩
      split
      · next same =>
        rw [same] at covered
        exact covered.trans advances.raised
      · exact covered
    · cases List.mem_singleton.mp last
      rcases advances.acknowledged throughSequence answered with ⟨below, same⟩
      refine ⟨below, ?_⟩
      rw [if_pos rfl]
      exact Nat.le_of_eq same

theorem StoreRun.recorded (keyed : Keyed store) (recorded : Recorded store history)
    (run : StoreRun config store commits next) : Recorded next (history ++ commits) := by
  induction run generalizing history with
  | refl => rwa [List.append_nil]
  | step one others ih =>
    rw [← List.append_assoc]
    refine ih (one.keyed keyed) ?_
    rcases one.history keyed with ⟨rfl, kept⟩ | ⟨request, outcome, rfl, committed⟩
    · rw [List.append_nil]
      exact recorded.keep kept
    · rcases committed.advances (fun domain sequence row found =>
        ((recorded.retained domain sequence row).mp found).1) recorded.ordered with
        ⟨floor, advances⟩
      exact recorded.advance advances

private theorem recorded_initial (config : CoordinatorConfig) :
    Recorded (MachineStore.initial config) [] := by
  have marks : ∀ domain, (MachineStore.initial config).accepted domain = 0 ∧
      (MachineStore.initial config).retiredFloor domain = 0 := by
    intro domain
    simp only [MachineStore.accepted, MachineStore.retiredFloor, MachineStore.initial]
    cases found : (tableOf config.participants DomainRow.paired).get? domain with
    | none => exact ⟨rfl, rfl⟩
    | some row =>
      rcases get?_tableOf found with ⟨registration, _, _, rfl⟩
      exact ⟨rfl, rfl⟩
  refine ⟨?_, ?_, ?_, ?_, ?_⟩
  · intro domain
    rw [(marks domain).1]
    rfl
  · intro domain sequence row
    refine iff_of_false (fun found => nomatch found) ?_
    rintro ⟨_, entry, member, _⟩
    cases member
  · intro domain left right leftRow rightRow found
    cases found
  · intro domain
    rw [(marks domain).1, (marks domain).2]
  · intro entry member
    cases member

theorem CoordinatorRun.recorded (run : CoordinatorRun config allowed sent coordinator history) :
    Keyed coordinator.store ∧ Recorded coordinator.store history := by
  induction run with
  | start => exact ⟨Keyed.initial config, recorded_initial config⟩
  | step earlier one ih =>
    have transactions := (one.effect earlier.sound).1
    exact ⟨transactions.keyed ih.1, transactions.recorded ih.1 ih.2⟩

section Whole

variable {config : CoordinatorConfig} {request : Request} {coordinator : Coordinator}
  {history : List (Request × Outcome)}

theorem finishMachineCommit_of_pending (journal : Journal) (intent : MachineCommitIntent)
    (pending : journal.pending = some intent)
    (anchored : journal.anchors.get? intent.request.session.domainId = some anchor)
    (acknowledged : ∀ throughSequence, intent.outcome = .acknowledged throughSequence →
      throughSequence < intent.request.requestSequence) :
    ∃ finished, finishMachineCommit journal intent.request.operationId = .ok finished ∧
      finished.pending = none := by
  have floor : ∃ floor, finishedFloor intent anchor = .ok floor := by
    unfold finishedFloor
    split
    · next throughSequence same => exact ⟨_, if_pos (acknowledged throughSequence same)⟩
    · exact ⟨_, rfl⟩
  rcases floor with ⟨floor, computed⟩
  rw [finishMachineCommit, pending]
  simp only [ok_iff]
  exact ⟨_, ⟨(), rfl, anchor, anchored, floor, computed, rfl⟩, rfl⟩

/-- A call that is not interrupted leaves nothing pending. -/
private theorem commitExchange_settles (whole : input.fault = .none)
    (settled : coordinator.journal.pending = none)
    (acknowledged : ∀ throughSequence, prepared.outcome = .acknowledged throughSequence →
      throughSequence < request.requestSequence) :
    (commitExchange input request coordinator prepared).coordinator.journal.pending = none := by
  unfold commitExchange
  dsimp only
  rw [if_neg (by rw [whole]; decide)]
  split
  · split
    · exact settled
    · next published proposed =>
      rcases proposedMachineCommit_eq_ok proposed with ⟨pending, anchor, anchored⟩
      rcases finishMachineCommit_of_pending published _ pending anchored acknowledged with
        ⟨finished, done, cleared⟩
      rw [if_neg (by rw [whole]; decide), if_neg (by rw [whole]; decide), done]
      dsimp only
      rw [if_neg (by rw [whole]; decide)]
      exact cleared
  · exact settled

theorem reconcilePending_of_settled (interrupted : Bool) (settled : Settled coordinator.journal) :
    reconcilePending interrupted coordinator = .without coordinator (.ok ()) := by
  unfold reconcilePending
  split
  · rfl
  · next intent pending =>
    rcases settled with none | reset
    · rw [none] at pending
      cases pending
    · rw [if_pos reset]

/-- With nothing to complete, an exchange is its own transaction. -/
theorem machineExchange_of_settled (settled : Settled coordinator.journal) :
    machineExchange config input request coordinator =
      exchangeRequest config input request coordinator := by
  rw [machineExchange, reconcilePending_of_settled _ settled]
  rfl

variable (recorded : Recorded coordinator.store history)

include recorded in
/-- A prepared acknowledgement is about earlier operations. -/
theorem exchangeTransaction_acknowledged
    (admitted : admitRequest config coordinator request = .ok row)
    (succeeded : exchangeTransaction config input request row coordinator = .ok prepared)
    (throughSequence : Nat) (acknowledges : prepared.outcome = .acknowledged throughSequence) :
    throughSequence < request.requestSequence := by
  rcases exchangeTransaction_eq_ok admitted succeeded with replayed | ⟨applied, performed⟩
  · rcases (recorded.retained _ _ _).mp replayed.known with ⟨_, entry, member, number, same⟩
    rw [← number]
    refine (recorded.acknowledged entry (List.mem_filter.mp member).1 throughSequence ?_).1
    rw [← acknowledges]
    exact congrArg OperationRow.response same
  · rcases performed.committed.advances (fun domain sequence row found =>
      ((recorded.retained domain sequence row).mp found).1) recorded.ordered with
      ⟨floor, advances⟩
    exact (advances.acknowledged throughSequence acknowledges).1

include recorded in
private theorem exchangeRequest_settles (whole : input.fault = .none)
    (settled : coordinator.journal.pending = none) :
    (exchangeRequest config input request coordinator).coordinator.journal.pending = none := by
  rcases compactMachineRetirements_frame coordinator with ⟨sameStore, samePending, _⟩
  have compacted := samePending.trans settled
  unfold exchangeRequest
  dsimp only
  split
  · exact compacted
  · next row admitted =>
    split
    · exact compacted
    · next prepared succeeded =>
      refine commitExchange_settles whole compacted ?_
      rw [← sameStore] at recorded
      exact exchangeTransaction_acknowledged recorded admitted succeeded

/-- Without interruptions inside calls, nothing is ever left pending. -/
theorem CoordinatorRun.settled
    (run : CoordinatorRun config (· = Fault.none) sent coordinator history) :
    coordinator.journal.pending = none := by
  induction run with
  | start => rfl
  | step earlier one ih =>
    cases one with
    | exchange fault delivered =>
      rw [machineExchange_of_settled (.inl ih)]
      exact exchangeRequest_settles earlier.recorded.2 fault ih
    | connectBegin fault =>
      rw [machineConnectBegin, reconcilePending_of_settled _ (.inl ih)]
      exact (pending_connectBegin _ _ _ _).trans ih
    | connectFinish fault =>
      rw [machineConnectFinish, reconcilePending_of_settled _ (.inl ih)]
      exact (pending_connectFinish _ _ _ _).trans ih
    | reopen fault =>
      rw [reconcilePending_of_settled _ (.inl ih)]
      exact ih
    | offers | native => exact ih

/-- A delivery of an operation that was committed before. -/
structure Redelivers (delivery request : Request) : Prop where
  domain : delivery.session.domainId = request.session.domainId
  sequence : delivery.requestSequence = request.requestSequence
  operationId : delivery.operationId = request.operationId
  command : delivery.command = request.command

/-- Wherever the call is interrupted, it wrote the prepared tables or nothing. -/
theorem commitExchange_writes (input : ExchangeInput) (prepared : Prepared) :
    ((commitExchange input request coordinator prepared).commits = [] ∧
      (commitExchange input request coordinator prepared).coordinator.store =
        coordinator.store) ∨
      (commitExchange input request coordinator prepared).commits =
          (if prepared.isNew then [(request, prepared.outcome)] else []) ∧
        (commitExchange input request coordinator prepared).coordinator.store = prepared.next := by
  unfold commitExchange
  dsimp only
  split
  · exact .inl ⟨rfl, rfl⟩
  · split
    · split
      · exact .inl ⟨rfl, rfl⟩
      · split
        · exact .inl ⟨rfl, rfl⟩
        · split
          · exact .inr ⟨rfl, rfl⟩
          · split
            · exact .inr ⟨rfl, rfl⟩
            · split <;> exact .inr ⟨rfl, rfl⟩
    · split <;> exact .inr ⟨rfl, rfl⟩

/-- An exchange whose transaction cannot apply a new operation changes no
table. -/
private theorem exchangeRequest_store
    (old : ∀ row prepared, admitRequest config (compactMachineRetirements coordinator) request =
        .ok row →
      exchangeTransaction config input request row (compactMachineRetirements coordinator) =
        .ok prepared →
      prepared.next = (compactMachineRetirements coordinator).store) :
    (exchangeRequest config input request coordinator).coordinator.store = coordinator.store := by
  have frame := (compactMachineRetirements_frame coordinator).1
  unfold exchangeRequest
  dsimp only
  split
  · exact frame
  · next row admitted =>
    split
    · exact frame
    · next prepared succeeded =>
      obtain ⟨_, written⟩ | ⟨_, written⟩ := commitExchange_writes input prepared
      · exact written.trans frame
      · exact written.trans ((old row prepared admitted succeeded).trans frame)

/-- An exchange whose transaction cannot succeed is refused and changes no
table. -/
private theorem exchangeRequest_refuses (impossible : ∀ row prepared,
      admitRequest config (compactMachineRetirements coordinator) request = .ok row →
      exchangeTransaction config input request row (compactMachineRetirements coordinator) ≠
        .ok prepared) :
    (exchangeRequest config input request coordinator).coordinator.store = coordinator.store ∧
      ∃ error, (exchangeRequest config input request coordinator).answer = .error error := by
  refine ⟨exchangeRequest_store fun row prepared admitted succeeded =>
    absurd succeeded (impossible row prepared admitted), ?_⟩
  unfold exchangeRequest
  dsimp only
  split
  · exact ⟨_, rfl⟩
  · next row admitted =>
    split
    · exact ⟨_, rfl⟩
    · next prepared succeeded => exact absurd succeeded (impossible row prepared admitted)

variable {delivery : Request} {outcome : Outcome}

include recorded in
/-- A committed operation is answered from the history or not at all. -/
private theorem replayed_of_redelivery (member : (request, outcome) ∈ history)
    (again : Redelivers delivery request)
    (admitted : admitRequest config coordinator delivery = .ok row)
    (succeeded : exchangeTransaction config input delivery row coordinator = .ok prepared) :
    Replayed delivery coordinator.store prepared := by
  rcases exchangeTransaction_eq_ok admitted succeeded with replayed | ⟨applied, performed⟩
  · exact replayed
  · have listed : (request, outcome) ∈ operationsOf history delivery.session.domainId :=
      List.mem_filter.mpr ⟨member, decide_eq_true again.domain.symm⟩
    have bound := recorded.sequence_le listed
    have inOrder := performed.inSequence.sequence
    have accepted : coordinator.store.accepted delivery.session.domainId =
        row.acceptedSequence := by
      rw [MachineStore.accepted, performed.inSequence.known]
      rfl
    have sameSequence := again.sequence
    dsimp only at bound
    omega

include recorded in
/-- A retained operation is found by its delivery. -/
theorem priorOperation_of_retained (retained : coordinator.store.operations.get?
      (delivery.session.domainId, delivery.requestSequence) = some operation)
    (sameId : operation.operationId = delivery.operationId) :
    priorOperation coordinator.store delivery = some (delivery.requestSequence, operation) := by
  have present : (coordinator.store.operations.rows.find? fun row =>
      row.1.1 = delivery.session.domainId &&
        (row.1.2 = delivery.requestSequence || row.2.operationId = delivery.operationId)).isSome :=
    List.find?_isSome.mpr ⟨_, Table.mem_rows.mpr retained, by simp⟩
  rcases Option.isSome_iff_exists.mp present with ⟨⟨⟨domain, sequence⟩, row⟩, found⟩
  have chosen := List.find?_some found
  have member := Table.mem_rows.mp (List.mem_of_find?_eq_some found)
  simp only [Bool.and_eq_true, Bool.or_eq_true, decide_eq_true_eq] at chosen
  rcases chosen with ⟨rfl, sameRow⟩
  have sameSequence : sequence = delivery.requestSequence := by
    rcases sameRow with sameSequence | ofId
    · exact sameSequence
    · exact recorded.unique _ _ _ _ _ member retained (ofId.trans sameId.symm)
  subst sameSequence
  cases member.symm.trans retained
  rw [priorOperation, found]
  rfl

theorem admitRequest_compacted :
    admitRequest config (compactMachineRetirements coordinator) request =
      admitRequest config coordinator request := by
  unfold compactMachineRetirements
  split <;> rfl

theorem proposedMachineCommit_of_settled (settled : journal.pending = none)
    (anchored : journal.anchors.get? request.session.domainId = some anchor)
    (session : anchor.session = some request.session) (outcome : Outcome) :
    proposedMachineCommit journal ⟨request, outcome, []⟩ =
      .ok { journal with pending := some ⟨request, outcome, []⟩ } := by
  simp [proposedMachineCommit, anchored, session, settled, orError, require,
    bind, Except.bind, pure, Except.pure]

/-- An answer from the history is delivered. -/
private theorem commitExchange_answers (whole : input.fault = .none)
    (settled : coordinator.journal.pending = none)
    (anchored : coordinator.journal.anchors.get? request.session.domainId = some anchor)
    (session : anchor.session = some request.session) (grants : prepared.grants = [])
    (acknowledged : ∀ throughSequence, prepared.outcome = .acknowledged throughSequence →
      throughSequence < request.requestSequence) :
    ∃ reply, (commitExchange input request coordinator prepared).answer = .ok reply ∧
      reply.outcome = prepared.outcome := by
  unfold commitExchange
  dsimp only
  rw [if_neg (by rw [whole]; decide)]
  split
  · rw [grants, proposedMachineCommit_of_settled settled anchored session]
    dsimp only
    let intent : MachineCommitIntent := ⟨request, prepared.outcome, []⟩
    rcases finishMachineCommit_of_pending { coordinator.journal with pending := some intent }
      intent rfl anchored acknowledged with ⟨finished, done, _⟩
    rw [if_neg (by rw [whole]; decide), if_neg (by rw [whole]; decide), done]
    dsimp only
    rw [if_neg (by rw [whole]; decide)]
    exact ⟨_, rfl, rfl⟩
  · exact ⟨_, rfl, rfl⟩

include recorded in
/-- A delivery of a retained operation gets the recorded outcome. -/
theorem exchangeRequest_replays (retained : coordinator.store.operations.get?
      (delivery.session.domainId, delivery.requestSequence) =
        some ⟨delivery.operationId, delivery.command, outcome⟩) (whole : input.fault = .none)
    (settled : coordinator.journal.pending = none)
    (admitted : admitRequest config coordinator delivery = .ok row) :
    ∃ reply, (exchangeRequest config input delivery coordinator).answer = .ok reply ∧
      reply.outcome = outcome := by
  have prior := priorOperation_of_retained recorded retained rfl
  rcases compactMachineRetirements_frame coordinator with ⟨sameStore, samePending, sameAnchors, _⟩
  rcases (admitRequest_eq_ok admitted).2.1 with ⟨anchor, anchored, session⟩
  have prepared : exchangeTransaction config input delivery row
      (compactMachineRetirements coordinator) =
        .ok ⟨coordinator.store, outcome, [], false⟩ := by
    rw [exchangeTransaction, sameStore, prior]
    simp [require, bind, Except.bind, pure, Except.pure]
  rw [exchangeRequest, admitRequest_compacted, admitted]
  dsimp only
  rw [prepared]
  refine commitExchange_answers whole (samePending.trans settled) (sameAnchors ▸ anchored) session
    rfl ?_
  rcases (recorded.retained _ _ _).mp retained with ⟨_, entry, member, number, same⟩
  intro throughSequence acknowledges
  rw [← number]
  refine (recorded.acknowledged entry (List.mem_filter.mp member).1 throughSequence ?_).1
  rw [← acknowledges]
  exact congrArg OperationRow.response same

end Whole

/-- Every operation is applied exactly once.  In each domain the committed
operations are numbered 1, 2, 3, … in the order of their commits.  A repeated
delivery changes no table, and gets the recorded outcome, or a refusal once the
operation was retired.  A delivery that reuses a retained sequence number or
operation identity for another command is refused and changes no table. -/
theorem operations_applied_exactly_once {config : CoordinatorConfig} {sent : Request → Prop}
    {coordinator : Coordinator} {history : List (Request × Outcome)}
    (run : CoordinatorRun config (· = Fault.none) sent coordinator history) :
    (∀ domain, ∃ count, (operationsOf history domain).map (fun entry => entry.1.requestSequence) =
        List.range' 1 count) ∧
      (∀ request outcome delivery input, (request, outcome) ∈ history →
        Redelivers delivery request →
        (machineExchange config input delivery coordinator).coordinator.store =
            coordinator.store ∧
          (coordinator.store.retiredFloor delivery.session.domainId < delivery.requestSequence →
            input.fault = .none →
            ∀ row, admitRequest config coordinator delivery = .ok row →
            ∃ reply, (machineExchange config input delivery coordinator).answer = .ok reply ∧
              reply.outcome = outcome) ∧
          (delivery.requestSequence ≤ coordinator.store.retiredFloor delivery.session.domainId →
            ∃ error, (machineExchange config input delivery coordinator).answer =
              .error error)) ∧
      (∀ delivery input sequence operation,
        coordinator.store.operations.get? (delivery.session.domainId, sequence) =
          some operation →
        sequence = delivery.requestSequence ∨ operation.operationId = delivery.operationId →
        operation.payload ≠ delivery.command →
        (machineExchange config input delivery coordinator).coordinator.store =
            coordinator.store ∧
          ∃ error, (machineExchange config input delivery coordinator).answer =
            .error error) := by
  have recorded := run.recorded.2
  have settled := run.settled
  have sameStore := (compactMachineRetirements_frame coordinator).1
  refine ⟨fun domain => ⟨_, recorded.sequences domain⟩, ?_, ?_⟩
  · intro request outcome delivery input member again
    rw [machineExchange_of_settled (.inl settled)]
    have replayed : ∀ row prepared,
        admitRequest config (compactMachineRetirements coordinator) delivery = .ok row →
        exchangeTransaction config input delivery row (compactMachineRetirements coordinator) =
          .ok prepared →
        Replayed delivery coordinator.store prepared := by
      intro row prepared admitted succeeded
      have compacted : Recorded (compactMachineRetirements coordinator).store history :=
        sameStore ▸ recorded
      rw [← sameStore]
      exact replayed_of_redelivery compacted member again admitted succeeded
    refine ⟨?_, ?_, ?_⟩
    · refine exchangeRequest_store ?_
      intro row prepared admitted succeeded
      rw [sameStore]
      exact (replayed row prepared admitted succeeded).same
    · intro kept whole row admitted
      refine exchangeRequest_replays recorded ?_ whole settled admitted
      refine (recorded.retained _ _ _).mpr ⟨kept, (request, outcome),
        List.mem_filter.mpr ⟨member, decide_eq_true again.domain.symm⟩, again.sequence.symm, ?_⟩
      rw [operationRow, again.operationId, again.command]
    · intro retired
      refine (exchangeRequest_refuses ?_).2
      intro row prepared admitted succeeded
      have known := (replayed row prepared admitted succeeded).known
      have kept := ((recorded.retained _ _ _).mp known).1
      omega
  · intro delivery input sequence operation retained reuses differs
    rw [machineExchange_of_settled (.inl settled)]
    refine exchangeRequest_refuses ?_
    intro row prepared admitted succeeded
    rcases exchangeTransaction_eq_ok admitted succeeded with replayed | ⟨applied, performed⟩
    · have known := replayed.known
      rw [sameStore] at known
      have sameSequence : sequence = delivery.requestSequence := by
        rcases reuses with same | sameId
        · exact same
        · exact recorded.unique _ _ _ _ _ retained known sameId
      subst sameSequence
      cases retained.symm.trans known
      exact differs rfl
    · have fresh := performed.inSequence.fresh
      rw [← sameStore] at retained
      rcases fresh_of_priorOperation fresh retained with ⟨otherSequence, otherId⟩
      rcases reuses with same | sameId
      · exact otherSequence same
      · exact otherId sameId

/-! ## A coordinator with one manager -/

/-- 64 hexadecimal digits. -/
def demoDigest : String := "aaaaaaaaaaaaaaaaaaaaaaaaaaaaaaaaaaaaaaaaaaaaaaaaaaaaaaaaaaaaaaaa"

/-- Machine scope 4 with the native domain 5 and one paired domain 6. -/
def soloConfig : CoordinatorConfig where
  storeUuid := 1
  authorityEpoch := 2
  domains := ⟨3, 4, 5⟩
  participants := [⟨6, 7, .executor, 8, 4, .empty, .empty⟩]
  capacities := ⟨8, 1024, 1, 0, .empty⟩
  impactIncompatibilities := .empty
  configSha256 := demoDigest
  quietMaxSampleGapMillis := 0
  observedValid _ := true
  quietValid _ := true
  encoding := Json.encoding

/-- A call at time 0 with a fresh host sample and an idle host, which is not
interrupted. -/
def soloInput : ExchangeInput :=
  ⟨0, false, ⟨some ⟨0, 0, 0⟩, 0, 0, fun _ _ _ _ => ⟨0, 0, [], [], true⟩⟩, [], .ok (), .none⟩

def demoIntent : InvocationIntent :=
  ⟨⟨8, 43⟩, ⟨8, 44⟩, .primary, 0, 1, demoDigest, demoDigest, 45, none⟩

def soloSession : SessionIdentity := ⟨3, 2, 6, 8, 9, 1⟩

/-- The manager of domain 6 connects. -/
def soloChallenged : CallResult ConnectChallenge :=
  machineConnectBegin soloConfig ⟨0, 11, .none⟩ ⟨7, 8, 9, 10⟩ (.initial soloConfig)

def soloConnected : CallResult ParticipantSnapshot :=
  machineConnectFinish soloConfig ⟨0, 0, .none⟩ ⟨soloSession, 11, 10⟩ soloChallenged.coordinator

/-- The manager's first operation, and its exchange. -/
def soloRequest : Request := ⟨soloSession, 1, 12, .inspect none⟩

def soloApplied : CallResult Reply :=
  machineExchange soloConfig soloInput soloRequest soloConnected.coordinator

private theorem soloRun : CoordinatorRun soloConfig (· = Fault.none) (fun _ => True)
    soloApplied.coordinator
    ([] ++ soloChallenged.commits ++ soloConnected.commits ++ soloApplied.commits) := by
  have challenged : CoordinatorRun soloConfig (· = Fault.none) (fun _ => True)
      soloChallenged.coordinator ([] ++ soloChallenged.commits) :=
    .step .start (.connectBegin (by rfl))
  have connected : CoordinatorRun soloConfig (· = Fault.none) (fun _ => True)
      soloConnected.coordinator ([] ++ soloChallenged.commits ++ soloConnected.commits) :=
    .step challenged (.connectFinish (by rfl))
  exact .step connected (.exchange (by rfl) trivial)

theorem soloRequest_applied_exactly_once :
    soloApplied.commits = [(soloRequest, .inspection [] false)] ∧
      (machineExchange soloConfig soloInput soloRequest soloApplied.coordinator).coordinator.store =
        soloApplied.coordinator.store ∧
      ∃ reply, (machineExchange soloConfig soloInput soloRequest
          soloApplied.coordinator).answer = .ok reply ∧
        reply.outcome = .inspection [] false := by
  have again := (operations_applied_exactly_once soloRun).2.1 soloRequest (.inspection [] false)
    soloRequest soloInput (List.mem_singleton_self _) ⟨rfl, rfl, rfl, rfl⟩
  exact ⟨rfl, again.1, again.2.1 (by decide) rfl _ rfl⟩

end Stillyard
