import Stillyard.Manager.Numbers
import Stillyard.Store.Reconcile
import Stillyard.System.Agreement

/-!
# Budgets of a reconciliation

`Driver::step` queues a whole reconciliation in one transaction.  Every queued
command takes its own bytes and reserves a frame for its answer, so that a
reconciliation of many pages can outgrow the outbox although each page fits.
What fits the outbox has so few records that the answer to its commit, which lists
every released allocation, fits one frame.
-/

namespace Stillyard

open Relational Fallible

namespace Manager

variable {encoding : Encoding} {manager : Manager}
variable {operation : Uuid} {operations : List Uuid} {command : Command} {commands : List Command}

/-- The commands of a reconciliation. -/
def reconciles : Command → Bool
  | .reconcileBegin .. | .reconcilePage .. | .reconcileCommit .. => true
  | _ => false

/-- `Command::Acknowledge`. -/
def acknowledges : Command → Bool
  | .acknowledge _ => true
  | _ => false

/-- Operation identities that were never used. -/
structure Fresh (manager : Manager) (operations : List Uuid) : Prop where
  nodup : operations.Nodup
  nonzero : 0 ∉ operations
  queued : ∀ row ∈ manager.outbox.rows, row.2.operationId ∉ operations
  abandoned : ∀ operation ∈ operations, operation ∉ manager.abandoned.keys

/-- The manager after a reconciliation command has been queued. -/
def queue (manager : Manager) (operation : Uuid) (command : Command) : Manager :=
  { manager with
    outbox := manager.outbox.set manager.nextSequence ⟨operation, command, none⟩
    nextSequence := manager.nextSequence + 1 }

/-- The inventory is complete, and the next sequence number is free. -/
structure Prepares (manager : Manager) : Prop where
  complete : ∃ recovery, manager.recovery = some recovery ∧ recovery.complete = true
  below : ∀ sequence row, manager.outbox.get? sequence = some row →
    sequence < manager.nextSequence

theorem free_of_below (below : ∀ sequence row, manager.outbox.get? sequence = some row →
    sequence < manager.nextSequence) : manager.outbox.get? manager.nextSequence = none := by
  cases found : manager.outbox.get? manager.nextSequence with
  | none => rfl
  | some row => exact absurd (below _ row found) (Nat.lt_irrefl _)

theorem Prepares.queue (prepares : manager.Prepares) (operation : Uuid) (command : Command) :
    (manager.queue operation command).Prepares := by
  constructor
  · exact prepares.complete
  · intro sequence row found
    simp only [Manager.queue, Table.get?_set] at found ⊢
    split at found
    next same => omega
    next => exact Nat.lt_succ_of_lt (prepares.below sequence row found)

theorem Fresh.queue (fresh : manager.Fresh (operation :: operations)) (command : Command) :
    (manager.queue operation command).Fresh operations := by
  have distinct := List.nodup_cons.mp fresh.nodup
  constructor
  · exact distinct.2
  · exact fun zero => fresh.nonzero (List.mem_cons_of_mem _ zero)
  · intro row member
    have found := Table.mem_rows.mp member
    simp only [Manager.queue, Table.get?_set] at found
    split at found
    next =>
      rw [← Option.some.inj found]
      exact distinct.1
    next =>
      have old := fresh.queued row (Table.mem_rows.mpr found)
      exact fun used => old (List.mem_cons_of_mem _ used)
  · exact fun other member => fresh.abandoned other (List.mem_cons_of_mem _ member)

/-- The checks on the kind of a command let a reconciliation pass, and queueing it
changes no Grant. -/
private theorem passes_of_reconciles (prepares : manager.Prepares)
    (reconciling : reconciles command = true) :
    manager.allow command = .ok () ∧ manager.requireUnsealed command = .ok () ∧
      manager.reportLocally command = .ok manager := by
  obtain ⟨recovery, recovering, complete⟩ := prepares.complete
  cases command with
  | reconcileBegin | reconcilePage | reconcileCommit =>
    simp [allow, requireUnsealed, reportLocally, recovering, complete, require]
  | _ => cases reconciling

/-- A command that passes the other checks fails on the budgets of the outbox
only. -/
theorem enqueue_iff {next : Manager} (free : manager.outbox.get? manager.nextSequence = none)
    (fresh : manager.Fresh (operation :: operations)) (allowed : manager.allow command = .ok ())
    (unsealed : manager.requireUnsealed command = .ok ())
    (reported : manager.reportLocally command = .ok manager) :
    (manager.enqueue encoding operation command).map Prod.fst = .ok next ↔
      manager.outboxHasRoom encoding command = true ∧ next = manager.queue operation command := by
  have nonzero : operation ≠ 0 := fun zero => fresh.nonzero (by simp [zero])
  have unused : manager.outbox.rows.find? (fun row => row.2.operationId = operation) = none := by
    simp only [List.find?_eq_none, decide_eq_true_eq]
    intro row member same
    exact fresh.queued row member (by simp [same])
  have kept : operation ∉ manager.abandoned.keys := fresh.abandoned operation (by simp)
  have inserted : manager.outbox.insert? manager.nextSequence ⟨operation, command, none⟩ =
      some (manager.outbox.set manager.nextSequence ⟨operation, command, none⟩) :=
    Table.insert?_eq_some.mpr ⟨free, rfl⟩
  simp only [enqueue, unused, map_eq_ok, ok_iff, allowed, unsealed]
  constructor
  · rintro ⟨result, ⟨_, _, _, _, _, _, _, _, _, fits, _, same, outbox, added, rfl⟩, rfl⟩
    obtain rfl := Except.ok.inj (reported.symm.trans same)
    obtain rfl := Option.some.inj (inserted.symm.trans added)
    exact ⟨fits, rfl⟩
  · rintro ⟨fits, rfl⟩
    exact ⟨_, ⟨(), by simpa using nonzero, (), by simpa using kept, (), trivial, (),
      trivial, (), fits, manager, reported, _, inserted, rfl⟩, rfl⟩

/-- Queueing a reconciliation command fails on the budgets of the outbox only. -/
theorem enqueue_reconciles_iff (prepares : manager.Prepares)
    (fresh : manager.Fresh (operation :: operations)) (reconciling : reconciles command = true) :
    (manager.enqueue encoding operation command).map Prod.fst = .ok next ↔
      manager.outboxHasRoom encoding command = true ∧ next = manager.queue operation command := by
  obtain ⟨allowed, unsealed, reported⟩ := passes_of_reconciles prepares reconciling
  exact enqueue_iff (free_of_below prepares.below) fresh allowed unsealed reported

/-! ## The outbox -/

/-- What a queued command takes of the byte budget: itself and a frame for its
answer. -/
def reservedBytes (encoding : Encoding) (commands : List Command) : Nat :=
  (commands.map fun command => encoding.commandBytes command + maxFrameBytes).sum

/-- The outbox has room for a list of commands that acknowledge nothing. -/
structure HasRoom (manager : Manager) (encoding : Encoding) (commands : List Command) : Prop where
  sequence : manager.nextSequence + commands.length ≤ i64Max
  count : manager.outbox.keys.length + commands.length ≤ 16383
  frames : ∀ command ∈ commands, encoding.commandBytes command ≤ maxFrameBytes
  bytes : manager.outboxBytes encoding + reservedBytes encoding commands ≤ 15 * 1024 * 1024

theorem outboxHasRoom_iff (other : acknowledges command = false) :
    manager.outboxHasRoom encoding command = true ↔ manager.HasRoom encoding [command] := by
  have checks : manager.outboxHasRoom encoding command =
      (manager.nextSequence < i64Max && manager.outbox.keys.length < 16383 &&
        encoding.commandBytes command ≤ maxFrameBytes &&
        manager.outboxBytes encoding + encoding.commandBytes command + maxFrameBytes ≤
          15 * 1024 * 1024 : Bool) := by
    cases command with
    | acknowledge => cases other
    | _ => rfl
  simp only [checks, test_iff]
  constructor
  · rintro ⟨⟨⟨sequence, count⟩, frame⟩, bytes⟩
    exact ⟨sequence, count, by simpa using frame,
      by simpa [reservedBytes, Nat.add_assoc] using bytes⟩
  · intro room
    exact ⟨⟨⟨room.sequence, room.count⟩, room.frames command (by simp)⟩,
      by simpa [reservedBytes, Nat.add_assoc] using room.bytes⟩

theorem outboxBytes_queue (prepares : manager.Prepares) (operation : Uuid) (command : Command) :
    (manager.queue operation command).outboxBytes encoding =
      manager.outboxBytes encoding + (encoding.commandBytes command + maxFrameBytes) := by
  have summed (table : Table Nat OutboxRow) :
      (table.values.map fun row => encoding.commandBytes row.command +
        (row.outcome.map encoding.outcomeBytes).getD 1048576).sum =
      table.sum fun _ row => encoding.commandBytes row.command +
        (row.outcome.map encoding.outcomeBytes).getD 1048576 := by
    simp [Table.values, Table.sum, Function.comp_def]
  unfold outboxBytes
  rw [summed, summed, queue, Table.sum_set_of_absent _ (free_of_below prepares.below)]
  rfl

theorem keys_queue (prepares : manager.Prepares) (operation : Uuid) (command : Command) :
    (manager.queue operation command).outbox.keys.length = manager.outbox.keys.length + 1 := by
  rw [queue, Table.keys_set_of_absent _ (free_of_below prepares.below), List.length_append]
  rfl

/-- Room for a list is room for its first command, and then for the others. -/
theorem hasRoom_cons (prepares : manager.Prepares) (operation : Uuid) (command : Command)
    {rest : List Command} (more : rest ≠ []) :
    manager.HasRoom encoding (command :: rest) ↔
      manager.HasRoom encoding [command] ∧
        (manager.queue operation command).HasRoom encoding rest := by
  have some : 0 < rest.length := List.length_pos_iff.mpr more
  have bytes := @outboxBytes_queue encoding manager prepares operation command
  have keys := keys_queue prepares operation command
  have next : (manager.queue operation command).nextSequence = manager.nextSequence + 1 := rfl
  have split : reservedBytes encoding (command :: rest) =
      reservedBytes encoding [command] + reservedBytes encoding rest := by
    simp [reservedBytes]
  have first : reservedBytes encoding [command] =
      encoding.commandBytes command + maxFrameBytes := by
    simp [reservedBytes]
  constructor
  · rintro ⟨sequence, count, frames, budget⟩
    rw [List.length_cons] at sequence count
    constructor
    · exact ⟨by rw [List.length_singleton]; omega, by rw [List.length_singleton]; omega,
        by simpa using frames command (by simp), by omega⟩
    · exact ⟨by omega, by omega, fun other member => frames other (List.mem_cons_of_mem _ member),
        by omega⟩
  · rintro ⟨one, others⟩
    obtain ⟨sequence, count, frames, budget⟩ := others
    refine ⟨by rw [List.length_cons]; omega, by rw [List.length_cons]; omega, ?_, by omega⟩
    intro other member
    cases List.mem_cons.mp member with
    | inl same => exact same ▸ one.frames command (by simp)
    | inr member => exact frames other member

/-- A reconciliation is queued exactly when the outbox has room for all of it. -/
theorem enqueueAll_reconciles_iff (prepares : manager.Prepares) (fresh : manager.Fresh operations)
    (paired : operations.length = commands.length) (some : commands ≠ [])
    (reconciling : ∀ command ∈ commands, reconciles command = true) :
    (∃ next, manager.enqueueAll encoding (operations.zip commands) = .ok next) ↔
      manager.HasRoom encoding commands := by
  induction commands generalizing manager operations with
  | nil => exact absurd rfl some
  | cons command rest hypothesis =>
    obtain ⟨operation, others, rfl⟩ := List.exists_cons_of_length_eq_add_one paired
    have first := reconciling command (by simp)
    have other : acknowledges command = false := by
      cases command with
      | acknowledge => cases first
      | _ => rfl
    have unfolded (next : Manager) :
        manager.enqueueAll encoding ((operation :: others).zip (command :: rest)) = .ok next ↔
          manager.HasRoom encoding [command] ∧
            (manager.queue operation command).enqueueAll encoding (others.zip rest) =
              .ok next := by
      rw [List.zip_cons_cons, enqueueAll, List.foldlM_cons, bind_eq_ok]
      simp only [enqueue_reconciles_iff prepares fresh first, outboxHasRoom_iff other]
      constructor
      · rintro ⟨_, ⟨room, rfl⟩, done⟩
        exact ⟨room, done⟩
      · rintro ⟨room, done⟩
        exact ⟨_, ⟨room, rfl⟩, done⟩
    simp only [unfolded, exists_and_left]
    cases rest with
    | nil => simp [enqueueAll, pure, Except.pure]
    | cons second rest =>
      have room := @hasRoom_cons encoding manager prepares operation command _
        (List.cons_ne_nil second rest)
      rw [room, hypothesis (prepares.queue operation command) (fresh.queue command)
        (by simpa using paired) (List.cons_ne_nil second rest)
        (fun other member => reconciling other (List.mem_cons_of_mem _ member))]

/-- The commands of a reconciliation with these pages. -/
theorem reconciliation_eq_ok (built : manager.reconciliation encoding snapshotId = .ok commands) :
    (∃ recovery, manager.recovery = some recovery ∧ recovery.complete = true) ∧
      ∃ pages configuration, manager.reconciliationPages encoding = .ok pages ∧
        commands =
          [.reconcileBegin snapshotId 0 manager.applied pages.length pages configuration] ++
          (pages.zipIdx.map fun page => .reconcilePage snapshotId page.2 page.1) ++
          [.reconcileCommit snapshotId] := by
  simp only [reconciliation, ok_iff] at built
  obtain ⟨recovery, recovering, _, complete, pages, paged, _, _, configuration, _, rfl⟩ := built
  exact ⟨⟨recovery, recovering, complete⟩, pages, configuration, paged, rfl⟩

/-- A computed reconciliation is queued exactly when the outbox has room for it. -/
theorem enqueueAll_reconciliation_iff (numbered : manager.Numbered)
    (built : manager.reconciliation encoding snapshotId = .ok commands)
    (fresh : manager.Fresh operations) (paired : operations.length = commands.length) :
    (∃ next, manager.enqueueAll encoding (operations.zip commands) = .ok next) ↔
      manager.HasRoom encoding commands := by
  obtain ⟨complete, pages, configuration, _, rfl⟩ := reconciliation_eq_ok built
  apply enqueueAll_reconciles_iff ⟨complete, numbered.below⟩ fresh paired
  · simp
  · intro command member
    simp only [List.cons_append, List.nil_append, List.mem_cons, List.mem_append, List.mem_map,
      List.not_mem_nil, or_false] at member
    obtain rfl | ⟨page, _, rfl⟩ | rfl := member <;> rfl

theorem flatten_length_le {pages : List (List ReconcileAllocation)}
    (short : ∀ page ∈ pages, page ≠ [] ∧ page.length ≤ maxReconcilePage) :
    pages.flatten.length ≤ maxReconcilePage * pages.length := by
  induction pages with
  | nil => simp
  | cons page rest hypothesis =>
    have first := (short page (by simp)).2
    have others := hypothesis fun other member => short other (List.mem_cons_of_mem _ member)
    rw [List.flatten_cons, List.length_append, List.length_cons, Nat.mul_succ]
    omega

/-- Every queued command takes a frame for its answer and some bytes. -/
theorem length_lt_reservedBytes (commands : List Command) :
    commands.length * (maxFrameBytes + 1) ≤ reservedBytes Json.encoding commands := by
  induction commands with
  | nil => simp
  | cons command rest hypothesis =>
    have some : 0 < Json.command command := by
      cases command <;> simp [Json.command]
    have split : reservedBytes Json.encoding (command :: rest) =
        Json.command command + maxFrameBytes + reservedBytes Json.encoding rest := by
      simp [reservedBytes, Json.encoding]
    rw [split, List.length_cons, Nat.succ_mul]
    omega

/-- The outbox has room for twelve full pages at most. -/
theorem records_le_of_hasRoom {pages : List (List ReconcileAllocation)} {configuration : String}
    (paged : manager.reconciliationPages Json.encoding = .ok pages)
    (room : manager.HasRoom Json.encoding
      ([.reconcileBegin snapshotId 0 manager.applied pages.length pages configuration] ++
        (pages.zipIdx.map fun page => .reconcilePage snapshotId page.2 page.1) ++
        [.reconcileCommit snapshotId])) : pages.flatten.length ≤ 3072 := by
  have short := flatten_length_le (reconciliationPages_eq_ok paged).2
  have reserved := (length_lt_reservedBytes _).trans
    ((Nat.le_add_left _ _).trans room.bytes)
  simp only [List.length_append, List.length_cons, List.length_nil, List.length_map,
    List.length_zipIdx, maxFrameBytes] at reserved
  rw [maxReconcilePage] at short
  omega

end Manager

/-! ## The answer to the commit -/

/-- The allocations that a snapshot releases, in the order of the commit. -/
def sealedKeys (pages : List (List ReconcileAllocation)) : List AllocationKey :=
  ((pages.flatten.insertionSort fun left right => left.key.le right.key).filter
    fun record => record.sealedRelease.isSome).map ReconcileAllocation.key

variable {session : SessionIdentity} {now : Int}

/-- The answer to a commit repeats the watermark of its manifest and lists the
sealed allocations of its pages. -/
theorem applyReconcileCommit_outcome (begun : store.reconciles.get? session.domainId = some row)
    (manifest : row.manifest = .reconcileBegin begunId start finish count pages configuration)
    (applied : applyReconcileCommit session now store snapshotId = .ok (next, outcome)) :
    outcome = .reconciled finish (sealedKeys pages) := by
  simp only [applyReconcileCommit, bind_eq_ok] at applied
  obtain ⟨found, same, applied⟩ := applied
  have located := (begunReconcile_eq_ok same).1
  rw [begun] at located
  obtain rfl := Option.some.inj located
  rw [manifest] at applied
  simp only [ok_iff, Prod.mk.injEq, Prod.exists, decide_eq_true_eq] at applied
  obtain ⟨stored, _, _, rfl, _, distinct, _, _, _, released, folded, _, rfl⟩ := applied
  have sorted := List.perm_insertionSort
    (fun left right : ReconcileAllocation => left.key.le right.key) stored.flatten
  obtain ⟨_, _, _, listed⟩ := reconcileRecords_check
    ((sorted.map ReconcileAllocation.key).nodup_iff.mpr distinct) folded
  rw [listed, List.nil_append, sealedKeys]

/-- The answer to a commit with few records fits one frame. -/
theorem reply_fits_of_few {pages : List (List ReconcileAllocation)}
    (few : pages.flatten.length ≤ 3072) :
    Json.reply ⟨session, requestSequence, operation, revision, .reconciled endSequence
      (sealedKeys pages)⟩ ≤ maxFrameBytes := by
  have listed : (sealedKeys pages).length ≤ 3072 := by
    rw [sealedKeys, List.length_map]
    refine (List.length_filter_le _ _).trans ?_
    rwa [List.length_insertionSort]
  have keys : Json.array (fun _ => Json.key) (sealedKeys pages) ≤
      2 + (Json.key + 1) * (sealedKeys pages).length :=
    Json.array_le fun _ _ => Nat.le_refl _
  have epoch := Json.number_le session.connectionEpoch
  have sequenced := Json.number_le requestSequence
  have revised := Json.number_le revision
  have ended := Json.number_le endSequence
  simp only [Json.reply, Json.session, Json.outcome, Json.key, maxFrameBytes] at keys ⊢
  omega

/-- The start rights that an outcome changes can be published. -/
def Publishes (input : ExchangeInput) (journal : Journal) (store : MachineStore)
    (request : Request) (outcome : Outcome) : Prop :=
  ∃ grants, commitGrants store request outcome = .ok grants ∧
    (journaled grants outcome = true →
      (∃ published, proposedMachineCommit journal ⟨request, outcome, grants⟩ = .ok published) ∧
        input.publication = .ok ())

section Commit

variable {config : CoordinatorConfig} {input : ExchangeInput} {request : Request}
  {participant : DomainRow} {journal : Journal} {store next : MachineStore}

theorem rejection_ne_reconciled : rejection error ≠ .ok (.reconciled finish released) := by
  intro same
  cases error <;> simp [rejection] at same

/-- A commit that succeeded keeps its effect exactly when its answer fits one
frame. -/
theorem savepoint_reconciled_iff
    (applied : applyCommand config request participant.reconciliationRequired
      (input.authorityClosed || journal.blocked) store.scheduleMs input.readiness
      input.nativeDebits store = .ok (next, .reconciled finish released))
    (publishes : Publishes input journal next request (.reconciled finish released)) :
    savepoint config input request participant journal store =
        .ok (next, .reconciled finish released) ↔
      config.encoding.replyBytes ⟨request.session, request.requestSequence, request.operationId,
        u64Bound - 1, .reconciled finish released⟩ ≤ maxFrameBytes := by
  constructor
  · intro kept
    unfold savepoint at kept
    split at kept
    next result tried =>
      simp only [tryCommand, applied, ok_iff, Except.ok.injEq, Prod.exists, Prod.mk.injEq,
        decide_eq_true_eq] at tried
      obtain ⟨_, _, ⟨rfl, rfl⟩, _, fits, _⟩ := tried
      exact fits
    next error tried =>
      obtain ⟨outcome, refused, same⟩ := map_eq_ok.mp kept
      obtain ⟨_, rfl⟩ := Prod.mk.inj same
      exact absurd refused rejection_ne_reconciled
  · intro fits
    obtain ⟨grants, loaded, published⟩ := publishes
    have tried : tryCommand config input request participant journal store =
        .ok (next, .reconciled finish released) := by
      simp only [tryCommand, applied, ok_iff, Except.ok.injEq, Prod.exists, Prod.mk.injEq,
        decide_eq_true_eq]
      refine ⟨next, _, ⟨rfl, rfl⟩, (), fits, grants, loaded, ?_⟩
      split
      next writes =>
        obtain ⟨⟨journal, proposed⟩, done⟩ := published writes
        exact bind_eq_ok.mpr ⟨journal, proposed, bind_eq_ok.mpr ⟨(), done, rfl⟩⟩
      next => rfl
    rw [savepoint, tried]

/-- Submitting a reconciliation.  The manager queues all of it in one
transaction, and the coordinator keeps the commit of that snapshot, exactly when
the outbox has room for every command with its answer. -/
theorem reconciliation_submitted_iff {manager : Manager} {snapshotId : Uuid}
    {operations : List Uuid} {commands : List Command} {row : ReconcileRow} {outcome : Outcome}
    (sizes : config.encoding = Json.encoding) (numbered : manager.Numbered)
    (built : manager.reconciliation config.encoding snapshotId = .ok commands)
    (fresh : manager.Fresh operations) (paired : operations.length = commands.length)
    (asked : request.command = .reconcileCommit snapshotId)
    (begun : store.reconciles.get? request.session.domainId = some row)
    (manifest : commands.head? = some row.manifest)
    (applied : applyCommand config request participant.reconciliationRequired
      (input.authorityClosed || journal.blocked) store.scheduleMs input.readiness
      input.nativeDebits store = .ok (next, outcome))
    (publishes : Publishes input journal next request outcome) :
    ((∃ queued, manager.enqueueAll config.encoding (operations.zip commands) = .ok queued) ∧
        savepoint config input request participant journal store = .ok (next, outcome)) ↔
      manager.HasRoom config.encoding commands := by
  have committed : applyReconcileCommit request.session store.scheduleMs store snapshotId =
      .ok (next, outcome) := by
    simpa only [applyCommand, asked] using applied
  rw [Manager.enqueueAll_reconciliation_iff numbered built fresh paired]
  refine ⟨And.left, fun room => ⟨room, ?_⟩⟩
  rw [sizes] at built room
  obtain ⟨_, pages, configuration, paged, rfl⟩ := Manager.reconciliation_eq_ok built
  have heads : row.manifest = .reconcileBegin snapshotId 0 manager.applied pages.length pages
      configuration := by
    simpa using manifest.symm
  obtain rfl := applyReconcileCommit_outcome begun heads committed
  rw [savepoint_reconciled_iff applied publishes, sizes]
  exact reply_fits_of_few (Manager.records_le_of_hasRoom paged room)

end Commit

/-- An armed Grant as a manager of domain 6 imports it. -/
def heldGrant (lease : Uuid) (tickets : List InvocationIntent) : GrantSnapshot where
  queueAcceptedUnixMillis := 0
  queueSequence := 1
  uncertaintyReason := none
  riskClearance := none
  grantId := ⟨1, lease⟩
  candidate := { soloCandidate 1 with key := ⟨3, 2, 6, 8, lease⟩ }
  offerNonce := 51
  state := .armed
  offeredUnixMillis := 0
  offerDeadlineUnixMillis := 5000
  armedUnixMillis := some 0
  releasedUnixMillis := none
  tickets
  sealedRelease := none

/-- A manager whose inventory is complete. -/
def importedManager (grants : Table AllocationKey LocalGrant) : Manager :=
  { Manager.initialize 8 with
    nextSequence := 6
    applied := 5
    recovery := some ⟨none, true, some demoDigest⟩
    grants }

theorem importedManager_numbered (grants : Table AllocationKey LocalGrant) :
    (importedManager grants).Numbered where
  floor := Nat.zero_le 5
  next := Nat.lt_succ_self 5
  bound := by
    change 6 ≤ i64Max
    decide
  below _ _ found := by cases found
  answered _ _ found := by cases found
  full sequence above below := by
    have : 5 < sequence ∧ sequence < 6 := ⟨above, below⟩
    omega

/-- The manager of the coordinator that has `soloRecord`. -/
def soloManager : Manager :=
  importedManager (Table.empty.set soloKey ⟨heldGrant 40 [demoIntent], soloRecord.sealedRelease⟩)

def soloParticipant : DomainRow :=
  (soloPaged.coordinator.store.domains.get? 6).get (by decide +kernel)

/-- The manager queues its reconciliation, and the coordinator keeps the commit. -/
theorem soloManager_submits :
    ∃ commands queued next, soloManager.reconciliation Json.encoding 21 = .ok commands ∧
      soloManager.enqueueAll Json.encoding ([17, 18, 19].zip commands) = .ok queued ∧
      savepoint soloConfig soloInput soloCommit soloParticipant soloPaged.coordinator.journal
        soloPaged.coordinator.store = .ok (next, .reconciled 5 [soloKey]) := by
  have fresh : soloManager.Fresh [17, 18, 19] :=
    ⟨by decide, by decide, fun row listed => (nomatch listed), fun _ _ listed => (nomatch listed)⟩
  have built : soloManager.reconciliation Json.encoding 21 =
      .ok [.reconcileBegin 21 0 5 1 [[soloRecord]] demoDigest, .reconcilePage 21 0 [soloRecord],
        .reconcileCommit 21] := by
    rfl
  have computed : (applyCommand soloConfig soloCommit soloParticipant.reconciliationRequired
      (soloInput.authorityClosed || soloPaged.coordinator.journal.blocked)
      soloPaged.coordinator.store.scheduleMs soloInput.readiness soloInput.nativeDebits
      soloPaged.coordinator.store).toOption.any (fun result =>
        decide (result.2 = .reconciled 5 [soloKey]) &&
          (commitGrants result.1 soloCommit result.2).toOption.any fun grants =>
            (proposedMachineCommit soloPaged.coordinator.journal
              ⟨soloCommit, result.2, grants⟩).toOption.isSome) = true := by
    decide +kernel
  simp only [Option.any_eq_true, toOption_eq_some, Bool.and_eq_true, decide_eq_true_eq,
    Option.isSome_iff_exists] at computed
  obtain ⟨⟨next, outcome⟩, applied, rfl, grants, loaded, published, proposed⟩ := computed
  have room : soloManager.HasRoom soloConfig.encoding
      [.reconcileBegin 21 0 5 1 [[soloRecord]] demoDigest, .reconcilePage 21 0 [soloRecord],
        .reconcileCommit 21] :=
    ⟨by decide, by decide, by decide +kernel, by decide +kernel⟩
  have begun : soloPaged.coordinator.store.reconciles.get? soloCommit.session.domainId =
      some ⟨21, .reconcileBegin 21 0 5 1 [[soloRecord]] demoDigest, [some [soloRecord]]⟩ := by
    decide +kernel
  have publishes : Publishes soloInput soloPaged.coordinator.journal next soloCommit
      (.reconciled 5 [soloKey]) :=
    ⟨grants, loaded, fun _ => ⟨⟨published, proposed⟩, rfl⟩⟩
  have submitted := @reconciliation_submitted_iff soloConfig soloInput soloCommit soloParticipant
    soloPaged.coordinator.journal soloPaged.coordinator.store next soloManager 21 [17, 18, 19] _ _ _
    rfl (importedManager_numbered _) built fresh rfl rfl begun rfl applied publishes
  obtain ⟨⟨queued, done⟩, kept⟩ := submitted.mpr room
  exact ⟨_, queued, next, built, done, kept⟩

/-- A manager with this many armed Grants that never started anything. -/
def crowd : Nat → Table AllocationKey LocalGrant
  | 0 => .empty
  | count + 1 => (crowd count).set ⟨3, 2, 6, 8, 100 + count⟩ ⟨heldGrant (100 + count) [], none⟩

theorem get?_crowd : (crowd count).get? key = some row ↔
    ∃ number < count, key = ⟨3, 2, 6, 8, 100 + number⟩ ∧
      row = ⟨heldGrant (100 + number) [], none⟩ := by
  induction count with
  | zero => simp [crowd]
  | succ count hypothesis =>
    rw [crowd, Table.get?_set_eq_some, hypothesis]
    constructor
    · rintro (⟨rfl, rfl⟩ | ⟨_, number, less, found⟩)
      · exact ⟨count, Nat.lt_succ_self count, rfl, rfl⟩
      · exact ⟨number, Nat.lt_succ_of_lt less, found⟩
    · rintro ⟨number, less, rfl, rfl⟩
      rcases Nat.lt_succ_iff_lt_or_eq.mp less with below | rfl
      · refine .inr ⟨?_, number, below, rfl, rfl⟩
        intro same
        have := congrArg AllocationKey.leaseId same
        simp at this
        omega
      · exact .inl ⟨rfl, rfl⟩

theorem length_crowd (count : Nat) : (crowd count).rows.length = count := by
  induction count with
  | zero => rfl
  | succ count hypothesis =>
    have absent : (crowd count).get? ⟨3, 2, 6, 8, 100 + count⟩ = none := by
      cases found : (crowd count).get? ⟨3, 2, 6, 8, 100 + count⟩ with
      | none => rfl
      | some row =>
        obtain ⟨number, less, same, _⟩ := get?_crowd.mp found
        have := congrArg AllocationKey.leaseId same
        simp at this
        omega
    have keys := Table.keys_set_of_absent ⟨heldGrant (100 + count) [], none⟩ absent
    have lengths := congrArg List.length keys
    simpa [Table.keys, hypothesis, crowd] using lengths

/-- The record of a Grant without start rights takes 367 bytes. -/
def Bare (record : ReconcileAllocation) : Prop := record.tickets = [] ∧ record.sealedRelease = none

theorem record_of_bare (bare : Bare record) : Json.record record = 367 := by
  rw [Json.record, bare.1, bare.2]
  rfl

theorem pageRecord_of_bare (bare : Bare record) :
    ∃ next, Manager.pageRecord Json.encoding filled record = .ok next := by
  unfold Manager.pageRecord
  dsimp only
  split
  · next full =>
    have some : filled.2 ≠ [] := by
      intro empty
      have small : Json.array Json.record [record] = 369 := by
        simp [Json.array, record_of_bare bare]
      rw [empty, List.nil_append] at full
      simp [Json.encoding, small, maxReconcilePage, maxFrameBytes] at full
    exact ⟨_, by rw [require, if_pos (decide_eq_true some)]; rfl⟩
  · exact ⟨_, rfl⟩

/-- Pages of such records are far below the bound on a whole snapshot. -/
theorem pagesBytes_of_bare {pages : List (List ReconcileAllocation)}
    (bare : ∀ page ∈ pages, page ≠ [] ∧ ∀ record ∈ page, Bare record) :
    Json.encoding.pagesBytes (pages.map some) ≤ 2 + 371 * pages.flatten.length := by
  have total : ((pages.map some).map fun page =>
      Json.optional (Json.array Json.record) page + 1).sum ≤ 371 * pages.flatten.length := by
    induction pages with
    | nil => simp
    | cons page rest hypothesis =>
      obtain ⟨some, records⟩ := bare page (by simp)
      have others := hypothesis fun other member => bare other (List.mem_cons_of_mem _ member)
      have first : Json.array Json.record page ≤ 2 + 368 * page.length :=
        Json.array_le fun record member => (record_of_bare (records record member)).le
      have length := List.length_pos_iff.mpr some
      rw [List.map_cons, List.map_cons, List.sum_cons, List.flatten_cons, List.length_append]
      simp only [Json.optional] at others ⊢
      omega
  cases pages with
  | nil => exact Nat.le_refl 2
  | cons page rest =>
    change 1 + _ ≤ _
    omega

theorem mem_localGrants_crowd (member : grant ∈ (importedManager (crowd count)).localGrants) :
    ∃ number < count, grant = heldGrant (100 + number) [] := by
  obtain ⟨key, row, found, rfl⟩ := Manager.mem_localGrants.mp member
  obtain ⟨number, less, _, rfl⟩ := get?_crowd.mp found
  exact ⟨number, less, rfl⟩

theorem length_localGrants_crowd (count : Nat) :
    (importedManager (crowd count)).localGrants.length = count := by
  rw [Manager.localGrants, Manager.inKeyOrder, List.length_map, List.length_insertionSort,
    List.length_map]
  exact length_crowd count

theorem recordOf_crowd (member : grant ∈ (importedManager (crowd count)).localGrants) :
    ∃ record, (importedManager (crowd count)).recordOf grant = .ok record ∧ Bare record := by
  obtain ⟨number, less, rfl⟩ := mem_localGrants_crowd member
  have found : (importedManager (crowd count)).grants.get?
      (heldGrant (100 + number) []).candidate.key = some ⟨heldGrant (100 + number) [], none⟩ :=
    get?_crowd.mpr ⟨number, less, rfl, rfl⟩
  exact ⟨⟨_, _, _, _⟩, by rw [Manager.recordOf, found]; rfl, rfl, rfl⟩

/-- The pages that a manager with this many armed Grants computes. -/
theorem reconciliationPages_of_crowd {count : Nat} (few : 2 + 371 * count ≤ maxReconcileBytes) :
    ∃ pages, (importedManager (crowd count)).reconciliationPages Json.encoding = .ok pages ∧
      pages.flatten.length = count := by
  have unreleased : ((importedManager (crowd count)).localGrants.filter fun grant =>
      grant.state ≠ .released) = (importedManager (crowd count)).localGrants := by
    refine List.filter_eq_self.mpr ?_
    intro grant member
    obtain ⟨number, _, rfl⟩ := mem_localGrants_crowd member
    rfl
  obtain ⟨records, computed⟩ := mapM_of_forall fun grant member =>
    (recordOf_crowd member).imp fun _ => And.left
  have bare : ∀ record ∈ records, Bare record := by
    intro record member
    obtain ⟨grant, listed, made⟩ := mem_of_mapM computed record member
    obtain ⟨other, sameRecord, bare⟩ := recordOf_crowd listed
    obtain rfl := Except.ok.inj (made.symm.trans sameRecord)
    exact bare
  have length : records.length = count := by
    rw [← (forall₂_of_mapM computed).length_eq, length_localGrants_crowd]
  obtain ⟨filled, folded, _⟩ := @foldlM_total _ _ _ (Manager.pageRecord Json.encoding) ([], [])
    (fun _ => True) records (fun _ record member _ =>
      (pageRecord_of_bare (bare record member)).imp fun _ done => ⟨done, trivial⟩) trivial
  obtain ⟨flat, filledPages⟩ := (Manager.filling_of_foldlM .empty folded).pages
  rw [List.nil_append] at flat
  refine ⟨_, ?_, (congrArg List.length flat).trans length⟩
  have bytes := @pagesBytes_of_bare (if filled.2 = [] then filled.1 else filled.1 ++ [filled.2]) (by
    intro page listed
    refine ⟨(filledPages page listed).1, fun record member => bare record ?_⟩
    rw [← flat]
    exact List.mem_flatten_of_mem listed member)
  simp only [Manager.reconciliationPages, unreleased, ok_iff]
  rw [flat, length] at bytes
  exact ⟨records, computed, filled, folded, (), decide_eq_true (bytes.trans few), rfl⟩

/-- A manager with 3073 armed Grants. -/
def crowdedManager : Manager := importedManager (crowd 3073)

/-- The 3073 records take thirteen pages, and the answers to the fifteen commands
need more than the outbox has, so that not all of them are queued. -/
theorem crowdedManager_cannot_submit :
    crowdedManager.Numbered ∧ crowdedManager.outbox = .empty ∧
      crowdedManager.localGrants.length ≤ maxDomainCandidates ∧
      (∀ grant ∈ crowdedManager.localGrants, grant.state = .armed ∧ grant.tickets = []) ∧
      ∃ commands operations, crowdedManager.reconciliation Json.encoding 21 = .ok commands ∧
        crowdedManager.Fresh operations ∧ operations.length = commands.length ∧
        ¬ ∃ queued, crowdedManager.enqueueAll Json.encoding (operations.zip commands) =
          .ok queued := by
  have numbered : crowdedManager.Numbered := importedManager_numbered _
  obtain ⟨pages, paged, length⟩ := @reconciliationPages_of_crowd 3073 (by decide)
  let commands : List Command :=
    [.reconcileBegin 21 0 5 pages.length pages demoDigest] ++
      (pages.zipIdx.map fun page => .reconcilePage 21 page.2 page.1) ++ [.reconcileCommit 21]
  have built : crowdedManager.reconciliation Json.encoding 21 = .ok commands := by
    simp only [Manager.reconciliation, ok_iff]
    exact ⟨_, rfl, (), rfl, pages, paged, (), rfl, demoDigest, rfl, rfl⟩
  have fresh : crowdedManager.Fresh ((List.range commands.length).map (· + 1)) := by
    refine ⟨?_, by simp, fun row listed => (by cases listed), fun _ _ listed => (by cases listed)⟩
    exact (List.nodup_range).map (add_left_injective 1)
  have paired : ((List.range commands.length).map (· + 1)).length = commands.length := by simp
  refine ⟨numbered, rfl, (length_localGrants_crowd 3073).trans_le (by decide), ?_, commands, _,
    built, fresh, paired, ?_⟩
  · intro grant member
    obtain ⟨number, _, rfl⟩ := mem_localGrants_crowd member
    exact ⟨rfl, rfl⟩
  · intro queued
    have room := (Manager.enqueueAll_reconciliation_iff numbered built fresh paired).mp queued
    have few := Manager.records_le_of_hasRoom paged room
    omega

end Stillyard
