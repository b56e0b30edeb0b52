import Stillyard.Manager.Replies

/-!
# Steps of a manager

A manager changes its journal by connecting, queueing work, paging through an
inventory, reconciling, sealing, accepting replies, consuming tickets and
recording cleanup.  Each function has one lemma that says what its success
means.
-/

namespace Stillyard

open Relational Fallible

variable {encoding : Encoding} {manager next : Manager} {key : AllocationKey} {row : LocalGrant}
  {grant : GrantSnapshot} {command : Command} {operation : Uuid} {sequence : Nat}
  {domain : ExecutionDomainId} {session : SessionIdentity} {grants : List GrantSnapshot}
  {request : Request} {participant : ParticipantSnapshot} {ticket : InvocationTicket}

/-- Commands that managers queue for their work.  Inventory pages, releases and
reconciliations come from functions of their own. -/
def Command.isWork : Command → Bool
  | .inspectPage .. | .release _ | .reconcileBegin .. | .reconcilePage ..
  | .reconcileCommit _ => false
  | _ => true

namespace Manager

/-- The seal of an allocation. -/
def sealAt (grants : Table AllocationKey LocalGrant) (key : AllocationKey) : Option SealedRelease :=
  (grants.get? key).bind LocalGrant.sealedRelease

/-- Whether the manager sealed an allocation with this release. -/
def Sealed (manager : Manager) (release : SealedRelease) : Prop :=
  sealAt manager.grants release.key = some release

/-- Queue a list of operations in one transaction. -/
def enqueueAll (encoding : Encoding) (manager : Manager) (operations : List (Uuid × Command)) :
    Except JournalError Manager :=
  operations.foldlM
    (fun manager operation => (manager.enqueue encoding operation.1 operation.2).map Prod.fst)
    manager

section

variable (encoding : Encoding) (replied : Request → Reply → Prop)

/-- One transaction of a connected manager; `replied` are the replies of the
coordinator. -/
inductive Step : Manager → Manager → Prop where
  | enqueue {manager next : Manager} {operation : Uuid} {command : Command} {sequence : Nat}
      (work : command.isWork = true)
      (done : manager.enqueue encoding operation command = .ok (next, sequence)) : Step manager next
  | page {manager next : Manager} {operation : Uuid} {command : Command} {sequence : Nat}
      (idle : manager.oldest = none) (asked : manager.nextPage = .ok (some command))
      (done : manager.enqueue encoding operation command = .ok (next, sequence)) : Step manager next
  | reconcile {manager next : Manager}
      (computed : manager.reconciliation encoding snapshotId = .ok (operations.map Prod.snd))
      (done : manager.enqueueAll encoding operations = .ok next) : Step manager next
  | sealRelease {manager next : Manager} {key : AllocationKey} {operation : Uuid} {sequence : Nat}
      (done : manager.sealRelease encoding key operation = .ok (next, sequence)) : Step manager next
  | accept {manager next : Manager} {request : Request} {applied : Bool}
      (heard : replied request reply)
      (done : manager.accept encoding request reply = .ok (next, applied)) : Step manager next
  | consumeTicket {manager next : Manager} {ticket : InvocationTicket}
      (done : manager.consumeTicket ticket = .ok (next, consumed)) : Step manager next
  | recordCleanup {manager next : Manager}
      (done : manager.recordCleanup cleanup = .ok next) : Step manager next
  | recordUnusedCleanup {manager next : Manager} {ticket : InvocationTicket}
      (done : manager.recordUnusedCleanup ticket cleanup = .ok next) : Step manager next
  | acknowledgeAbandoned {manager next : Manager}
      (done : manager.acknowledgeAbandoned operations = .ok next) : Step manager next

/-- Transactions that only queue operations and apply replies. -/
inductive Work : Manager → Manager → Prop where
  | enqueue {manager next : Manager} {operation : Uuid} {command : Command} {sequence : Nat}
      (work : command.isWork = true)
      (done : manager.enqueue encoding operation command = .ok (next, sequence)) : Work manager next
  | page {manager next : Manager} {operation : Uuid} {command : Command} {sequence : Nat}
      (idle : manager.oldest = none) (asked : manager.nextPage = .ok (some command))
      (done : manager.enqueue encoding operation command = .ok (next, sequence)) : Work manager next
  | reconcile {manager next : Manager}
      (computed : manager.reconciliation encoding snapshotId = .ok (operations.map Prod.snd))
      (done : manager.enqueueAll encoding operations = .ok next) : Work manager next
  | accept {manager next : Manager} {request : Request} {applied : Bool}
      (heard : replied request reply)
      (done : manager.accept encoding request reply = .ok (next, applied)) : Work manager next
  | acknowledgeAbandoned {manager next : Manager}
      (done : manager.acknowledgeAbandoned operations = .ok next) : Work manager next

end

theorem Work.step {replied : Request → Reply → Prop} (work : Work encoding replied manager next) :
    Step encoding replied manager next := by
  cases work with
  | enqueue work done => exact .enqueue work done
  | page idle asked done => exact .page idle asked done
  | reconcile computed done => exact .reconcile computed done
  | accept heard done => exact .accept heard done
  | acknowledgeAbandoned done => exact .acknowledgeAbandoned done

/-- The seals stay, and a new row belongs to the domain. -/
structure GrantsKept (domain : ExecutionDomainId) (before after : Table AllocationKey LocalGrant) :
    Prop where
  seals : ∀ key, sealAt after key = sealAt before key
  own : ∀ key row, after.get? key = some row →
    key.domainId = domain ∨ ∃ old, before.get? key = some old

section GrantsKept

variable {domain : ExecutionDomainId} {before middle after : Table AllocationKey LocalGrant}

theorem GrantsKept.refl (grants : Table AllocationKey LocalGrant) :
    GrantsKept domain grants grants :=
  ⟨fun _ => rfl, fun _ row found => .inr ⟨row, found⟩⟩

theorem GrantsKept.trans (earlier : GrantsKept domain before middle)
    (later : GrantsKept domain middle after) : GrantsKept domain before after := by
  refine ⟨fun key => (later.seals key).trans (earlier.seals key), ?_⟩
  intro key row found
  rcases later.own key row found with own | ⟨old, foundOld⟩
  · exact .inl own
  · exact earlier.own key old foundOld

theorem GrantsKept.set (sameSeal : row.sealedRelease = sealAt before key)
    (own : key.domainId = domain ∨ ∃ old, before.get? key = some old) :
    GrantsKept domain before (before.set key row) := by
  constructor
  · intro other
    unfold sealAt at sameSeal ⊢
    rw [Table.get?_set]
    split
    · next same =>
      subst same
      exact sameSeal
    · rfl
  · intro other found lookup
    obtain ⟨rfl, _⟩ | ⟨_, lookup⟩ := Table.get?_set_eq_some.mp lookup
    · exact own
    · exact .inr ⟨found, lookup⟩

/-- Changing the Grant of a row keeps its seal. -/
theorem GrantsKept.set_grant (found : before.get? key = some row) :
    GrantsKept domain before (before.set key { row with grant }) :=
  .set (by simp [sealAt, found]) (.inr ⟨row, found⟩)

theorem GrantsKept.storeGrant (own : grant.candidate.key.domainId = domain) :
    GrantsKept domain before (storeGrant before grant) :=
  .set rfl (.inl own)

end GrantsKept

/-- A new operation at the end of the outbox. -/
structure Enqueued (operation : Uuid) (command : Command) (manager next : Manager) : Prop where
  fresh : ∀ sequence row, manager.outbox.get? sequence = some row → row.operationId ≠ operation
  allowed : manager.allow command = .ok ()
  unsealed : manager.requireUnsealed command = .ok ()
  free : manager.outbox.get? manager.nextSequence = none
  shape : ∃ grants, manager.reportLocally command = .ok { manager with grants } ∧
    next = { manager with
      grants
      outbox := manager.outbox.set manager.nextSequence ⟨operation, command, none⟩
      nextSequence := manager.nextSequence + 1 }

theorem reportLocally_eq_ok (done : manager.reportLocally command = .ok reported) :
    ∃ grants, reported = { manager with grants } ∧ (grants = manager.grants ∨
      ∃ key offerNonce reason row, command = .reportUncertain key offerNonce reason ∧
        manager.grants.get? key = some row ∧ row.sealedRelease = none ∧
        row.grant.offerNonce = offerNonce ∧ row.grant.state.mayRun = true ∧
        grants = manager.grants.set key { row with grant := { row.grant with
          state := .uncertain, uncertaintyReason := some reason } }) := by
  cases command with
  | reportUncertain key offerNonce reason =>
    simp only [reportLocally, ok_iff, test_iff,
      Option.isNone_iff_eq_none] at done
    rcases done with ⟨row, found, _, ⟨⟨⟨⟨⟨unsealed, named⟩, mayRun⟩, _⟩, _⟩, _⟩, rfl⟩
    exact ⟨_, rfl, .inr ⟨key, offerNonce, reason, row, rfl, found, unsealed, named, mayRun, rfl⟩⟩
  | _ =>
    cases done
    exact ⟨_, rfl, .inl rfl⟩

theorem enqueue_eq_ok (done : manager.enqueue encoding operation command = .ok (next, sequence)) :
    (next = manager ∧ ∃ row, manager.outbox.get? sequence = some row ∧
      row.operationId = operation ∧ row.command = command) ∨
      Enqueued operation command manager next := by
  simp only [enqueue, ok_iff] at done
  rcases done with ⟨_, _, done⟩
  split at done
  · next known row found =>
    simp only [ok_iff, Prod.mk.injEq, decide_eq_true_eq] at done
    rcases done with ⟨_, same, rfl, rfl⟩
    have named := List.find?_some found
    rw [decide_eq_true_eq] at named
    exact .inl ⟨rfl, row, Table.mem_rows.mp (List.mem_of_find?_eq_some found), named, same⟩
  · next absent =>
    simp only [ok_iff, Prod.mk.injEq] at done
    rcases done with ⟨_, _, _, allowed, _, unsealed, _, _, reported, locally, outbox, inserted,
      rfl, rfl⟩
    rcases reportLocally_eq_ok locally with ⟨grants, rfl, _⟩
    rcases Table.insert?_eq_some.mp inserted with ⟨free, rfl⟩
    refine .inr ⟨?_, allowed, unsealed, free, grants, locally, rfl⟩
    intro other row lookup
    have missing := List.find?_eq_none.mp absent (other, row) (Table.mem_rows.mpr lookup)
    simpa using missing

/-- What queueing does to the Grants. -/
theorem Enqueued.grantsKept (enqueued : Enqueued operation command manager next) :
    GrantsKept domain manager.grants next.grants := by
  rcases enqueued.shape with ⟨grants, locally, rfl⟩
  rcases reportLocally_eq_ok locally with ⟨_, same, kept⟩
  cases same
  rcases kept with unchanged | ⟨key, _, _, row, _, found, _, _, _, changed⟩
  · dsimp only
    rw [unchanged]
    exact .refl _
  · dsimp only
    rw [changed]
    exact .set_grant found

/-- An operation that is queued anew passed the capacity check. -/
theorem Enqueued.fits (enqueued : Enqueued operation command manager next)
    (done : manager.enqueue encoding operation command = .ok (next, sequence)) :
    manager.outboxHasRoom encoding command = true := by
  simp only [enqueue, ok_iff] at done
  rcases done with ⟨_, _, done⟩
  split at done
  · simp only [ok_iff, Prod.mk.injEq] at done
    rcases done with ⟨_, _, rfl, _⟩
    rcases enqueued.shape with ⟨_, _, same⟩
    have counted := congrArg Manager.nextSequence same
    dsimp only at counted
    omega
  · simp only [ok_iff] at done
    rcases done with ⟨_, _, _, _, _, _, _, fits, _⟩
    exact fits

/-- Only the seals matter here, so any domain will do. -/
theorem enqueue_seals (done : manager.enqueue encoding operation command = .ok (next, sequence)) :
    ∀ key, sealAt next.grants key = sealAt manager.grants key := by
  obtain ⟨rfl, _⟩ | enqueued := enqueue_eq_ok done
  · exact fun _ => rfl
  · exact (enqueued.grantsKept : GrantsKept 0 manager.grants next.grants).seals

/-- Session, Grants and inventory of a manager belong to its domain, and seals
name their allocation. -/
structure Local (domain : ExecutionDomainId) (manager : Manager) : Prop where
  session : ∀ session, manager.session = some session → session.domainId = domain
  grants : ∀ key row, manager.grants.get? key = some row → key.domainId = domain
  seals : ∀ key release, sealAt manager.grants key = some release → release.key = key
  inventory : ∀ key grant, manager.inventory.get? key = some grant →
    grant.candidate.key = key ∧ key.domainId = domain

theorem mem_inKeyOrder : grant ∈ inKeyOrder rows ↔ ∃ key, (key, grant) ∈ rows := by
  simp [inKeyOrder, List.mem_insertionSort]

theorem mem_remoteGrants :
    grant ∈ manager.remoteGrants ↔ ∃ key, manager.inventory.get? key = some grant := by
  simp [remoteGrants, mem_inKeyOrder, Table.mem_rows]

theorem mem_localGrants :
    grant ∈ manager.localGrants ↔
      ∃ key row, manager.grants.get? key = some row ∧ row.grant = grant := by
  simp only [localGrants, mem_inKeyOrder, List.mem_map, Prod.exists, Prod.mk.injEq,
    Table.mem_rows]
  constructor
  · rintro ⟨_, key, row, found, _, same⟩
    exact ⟨key, row, found, same⟩
  · rintro ⟨key, row, found, same⟩
    exact ⟨key, key, row, found, rfl, same⟩

@[simp] theorem importedGrant_candidate (old : Option GrantSnapshot) (grant : GrantSnapshot) :
    (importedGrant old grant).candidate = grant.candidate := by
  cases old with
  | none => rfl
  | some old =>
    rw [importedGrant]
    split <;> rfl

/-- What a connection leaves: the unanswered operations are set aside, and the
watermarks are those of the coordinator. -/
structure Connected (session : SessionIdentity) (participant : ParticipantSnapshot)
    (manager next : Manager) : Prop where
  storeUuid : manager.storeUuid = session.managerStoreUuid
  applied : manager.applied ≤ participant.acceptedSequence
  known : participant.acceptedSequence < manager.nextSequence
  shape : next = { manager with
    abandoned := next.abandoned
    outbox := manager.outbox.filter fun _ row => row.outcome.isSome
    session := some session
    nextSequence := participant.acceptedSequence + 1
    applied := participant.acceptedSequence
    retiredFloor := participant.retiredSequenceFloor
    inventory := .empty
    recovery := some ⟨none, false, none⟩ }

theorem beginRecovery_eq_ok (done : manager.beginRecovery encoding session participant = .ok next) :
    Connected session participant manager next := by
  simp only [beginRecovery, ok_iff, test_iff] at done
  rcases done with ⟨prior, _, _, checked, _, _, rfl⟩
  exact ⟨checked.1.1.1.1.1.1.1.1.1.1.1.1.1.1, checked.1.1.1.2, checked.1.1.2, rfl⟩

theorem connect_eq_ok (done : manager.connect encoding session participant = .ok next) :
    Connected session participant manager next := by
  simp only [connect, bind_eq_ok] at done
  rcases done with ⟨bound, binds, begins⟩
  unfold bindFirst at binds
  split at binds
  · simp only [bind, ok_iff] at binds
    rcases binds with ⟨_, _, _, _, _, _, rfl⟩
    have connected := beginRecovery_eq_ok begins
    exact ⟨connected.storeUuid, connected.applied, connected.known, connected.shape⟩
  · cases binds
    exact beginRecovery_eq_ok begins

/-! ## Replies, seals and tickets -/

section Inversion

variable {encoding : Encoding} {manager next : Manager}
variable {outcome : Outcome} {queued : OutboxRow} {consumed : Bool}
variable {cleanup : TicketCleanup}

theorem acceptGrant_eq_ok (done : manager.acceptGrant request grant = .ok next) :
    request.session.owns grant.candidate.key = true ∧
      (∀ row, manager.grants.get? grant.candidate.key = some row →
        row.grant.grantId = grant.grantId ∧ row.grant.offerNonce = grant.offerNonce) ∧
      next = { manager with grants := storeGrant manager.grants grant } := by
  simp only [acceptGrant, ok_iff, Option.all_eq_true, test_iff] at done
  rcases done with ⟨_, _, _, owns, _, same, rfl⟩
  exact ⟨owns, same, rfl⟩

/-- What an accepted ticket leaves. -/
structure TicketAccepted (request : Request) (ticket : InvocationTicket)
    (manager next : Manager) : Prop where
  asked : askedTicket request.command = some (ticket.key, ticket.offerNonce, ticket.intent)
  granted : ∃ row, manager.grants.get? ticket.key = some row ∧ row.sealedRelease = none ∧
    row.grant.grantId = ticket.grantId ∧ row.grant.state.mayRun = true ∧
    next.grants = manager.grants.set ticket.key
      { row with grant := withIntent row.grant ticket.intent }
  received : next.tickets = manager.tickets ∧
      (∃ row, manager.tickets.get? ticket.intent.invocationId = some row ∧ row.ticket = ticket) ∨
    manager.tickets.get? ticket.intent.invocationId = none ∧
      next.tickets = manager.tickets.set ticket.intent.invocationId
        ⟨ticket.key, ticket, false, none⟩
  shape : next = { manager with grants := next.grants, tickets := next.tickets }

theorem acceptTicket_eq_ok (done : manager.acceptTicket request ticket = .ok next) :
    TicketAccepted request ticket manager next := by
  simp only [acceptTicket, ok_iff, test_iff,
    Option.isNone_iff_eq_none] at done
  rcases done with
    ⟨asked, named, _, rfl, row, found, _, ⟨⟨unsealed, sameGrant⟩, mayRun⟩, _, same, rfl⟩
  refine ⟨named, ⟨row, found, unsealed, sameGrant, mayRun, rfl⟩, ?_, rfl⟩
  cases inserted : manager.tickets.insert? ticket.intent.invocationId
      ⟨ticket.key, ticket, false, none⟩ with
  | none =>
    rw [inserted, Option.getD_none] at same
    rcases Option.map_eq_some_iff.mp same with ⟨old, foundOld, sameTicket⟩
    exact .inl ⟨rfl, old, foundOld, sameTicket⟩
  | some tickets =>
    rcases Table.insert?_eq_some.mp inserted with ⟨absent, rfl⟩
    exact .inr ⟨absent, rfl⟩

theorem acceptReleased_eq_ok
    (done : manager.acceptReleased request grantId sealedSequence = .ok next) :
    ∃ release row, request.command = .release release ∧
      manager.grants.get? release.key = some row ∧ row.sealedRelease = some release ∧
      row.grant.grantId = grantId ∧
      next = { manager with grants := manager.grants.set release.key { row with
        grant := { row.grant with state := .released, sealedRelease := some release } } } := by
  simp only [acceptReleased, ok_iff, test_iff] at done
  rcases done with ⟨release, carried, row, found, _, ⟨⟨_, same⟩, sealed⟩, rfl⟩
  have asked : request.command = .release release := by
    cases command : request.command <;> rw [command] at carried <;> cases carried
    rfl
  exact ⟨release, row, asked, found, sealed, same, rfl⟩

/-- A Grant that a page puts into the inventory. -/
structure Staged (request : Request) (grants : List GrantSnapshot) (key : AllocationKey)
    (grant : GrantSnapshot) : Prop where
  listed : grant ∈ grants
  keyed : grant.candidate.key = key
  owns : request.session.owns key = true
  outstanding : grant.state.outstanding = true

section

variable (manager : Manager) (request : Request)

/-- The local Grants that the outcome of a reply may leave. -/
inductive Written : Outcome → Table AllocationKey LocalGrant → Prop where
  | same (outcome : Outcome) : Written outcome manager.grants
  | granted {grant : GrantSnapshot} (owns : request.session.owns grant.candidate.key = true) :
      Written (.grant grant) (storeGrant manager.grants grant)
  | noted {ticket : InvocationTicket} {row : LocalGrant}
      (found : manager.grants.get? ticket.key = some row) : Written (.ticket ticket)
        (manager.grants.set ticket.key { row with grant := withIntent row.grant ticket.intent })
  | released {row : LocalGrant} {sequence : Nat} (asked : request.command = .release release)
      (found : manager.grants.get? release.key = some row)
      (sealed : row.sealedRelease = some release) :
      Written (.released grantId sequence) (manager.grants.set release.key { row with
        grant := { row.grant with state := .released, sealedRelease := some release } })
  | imported {grants : List GrantSnapshot} {key : AllocationKey} {grant : GrantSnapshot}
      (earlier : Written (.inventoryPage grants none configuration) state)
      (listed : manager.inventory.get? key = some grant ∨ Staged request grants key grant)
      (known : manager.importKnown
        (manager.localGrants.find? fun known => known.candidate.key = grant.candidate.key) grant =
          .ok ()) : Written (.inventoryPage grants none configuration)
        (storeGrant state (importedGrant
          (manager.localGrants.find? fun known => known.candidate.key = grant.candidate.key) grant))
  | omitted {grants : List GrantSnapshot} {row : LocalGrant} {release : SealedRelease}
      (earlier : Written (.inventoryPage grants none configuration) state)
      (listed : old ∈ manager.localGrants) (found : state.get? old.candidate.key = some row)
      (sealed : row.sealedRelease = some release) :
      Written (.inventoryPage grants none configuration)
        (state.set old.candidate.key
          ⟨{ old with state := .released, sealedRelease := some release }, some release⟩)
  | settled {sequence : Nat} {key : AllocationKey} {row : LocalGrant} {release : SealedRelease}
      (earlier : Written (.reconciled sequence released) state) (member : key ∈ released)
      (found : state.get? key = some row) (sealed : row.sealedRelease = some release) :
      Written (.reconciled sequence released) (state.set key
        ⟨{ row.grant with state := .released, sealedRelease := some release }, some release⟩)

end

/-- How an outcome changes the recovery of a journal. -/
def Recovers (manager next : Manager) : Outcome → Prop
  | .inventoryPage .. => manager.recovery = none → next.recovery = none
  | .reconciled .. => next.recovery = none ∧
      ∀ recovery, manager.recovery = some recovery → recovery.complete = true
  | _ => next.recovery = manager.recovery

/-- What the outcome of a reply leaves, before the answer is recorded. -/
structure Accepted (request : Request) (outcome : Outcome) (manager next : Manager) : Prop where
  written : Written manager request outcome next.grants
  inventory : ∀ key grant, next.inventory.get? key = some grant →
    manager.inventory.get? key = some grant ∨ ∃ grants cursor configuration,
      outcome = .inventoryPage grants cursor configuration ∧ Staged request grants key grant
  tickets : next.tickets = manager.tickets ∨ ∃ ticket row, outcome = .ticket ticket ∧
    manager.grants.get? ticket.key = some row ∧ row.sealedRelease = none ∧
    manager.tickets.get? ticket.intent.invocationId = none ∧ next.tickets =
      manager.tickets.set ticket.intent.invocationId ⟨ticket.key, ticket, false, none⟩
  queue : (∀ through, outcome ≠ .acknowledged through) ∧
      next.retiredFloor = manager.retiredFloor ∧ next.outbox = manager.outbox ∨
    ∃ through, outcome = .acknowledged through ∧ request.command = .acknowledge through ∧
      through ≤ manager.applied ∧ next.retiredFloor = max manager.retiredFloor through ∧
      next.outbox = manager.outbox.filter fun sequence _ => through < sequence
  recovers : Recovers manager next outcome
  shape : next = { manager with
    grants := next.grants, inventory := next.inventory, recovery := next.recovery
    tickets := next.tickets, outbox := next.outbox, retiredFloor := next.retiredFloor }

/-- An outcome that only writes Grants. -/
theorem Accepted.of_written {grants : Table AllocationKey LocalGrant}
    (written : Written manager request outcome grants)
    (other : ∀ through, outcome ≠ .acknowledged through)
    (recovers : Recovers manager { manager with grants } outcome) :
    Accepted request outcome manager { manager with grants } :=
  ⟨written, fun _ _ found => .inl found, .inl rfl, .inl ⟨other, rfl, rfl⟩, recovers, rfl⟩

theorem stageGrants_eq_ok (done : grants.foldlM (stageGrant request.session) start = .ok staged) :
    ∀ key grant, staged.2.get? key = some grant →
      start.2.get? key = some grant ∨ Staged request grants key grant := by
  refine foldlM_invariant
    (fun state : Option AllocationKey × Table AllocationKey GrantSnapshot =>
      ∀ key grant, state.2.get? key = some grant →
        start.2.get? key = some grant ∨ Staged request grants key grant) ?_
    (fun _ _ found => .inl found) done
  intro state grant next member held round
  simp only [stageGrant, ok_iff, Bool.and_eq_true] at round
  obtain ⟨_, ⟨⟨owns, _⟩, outstanding⟩, inventory, inserted, rfl⟩ := round
  obtain ⟨_, rfl⟩ := Table.insert?_eq_some.mp inserted
  intro key found lookup
  obtain ⟨rfl, rfl⟩ | ⟨_, before⟩ := Table.get?_set_eq_some.mp lookup
  · exact .inr ⟨member, rfl, owns, outstanding⟩
  · exact held key found before

theorem acceptPage_eq_ok
    (done : manager.acceptPage encoding request grants cursor configuration = .ok next) :
    Accepted request (.inventoryPage grants cursor configuration) manager next := by
  unfold acceptPage at done
  split at done
  · cases done
    exact .of_written (.same _) nofun id
  · next active =>
    have recovers : ∀ {later : Manager}, manager.recovery = none → later.recovery = none :=
      fun idle => absurd (idle.symm.trans active) nofun
    simp only [ok_iff] at done
    obtain ⟨asked, _, _, _, staged, folded, _, _, _, _, imported, importing, rfl⟩ := done
    have inventory := stageGrants_eq_ok folded
    have page : ∀ key grant, staged.2.get? key = some grant →
        manager.inventory.get? key = some grant ∨ ∃ listed last digest,
          Outcome.inventoryPage grants cursor configuration = .inventoryPage listed last digest ∧
            Staged request listed key grant :=
      fun key grant found => (inventory key grant found).imp_right fun staged =>
        ⟨grants, cursor, configuration, rfl, staged⟩
    cases cursor with
    | some key =>
      cases importing
      exact ⟨.same _, page, .inl rfl, .inl ⟨nofun, rfl, rfl⟩, recovers, rfl⟩
    | none =>
      simp only [importAtEnd, importInventory, ok_iff] at importing
      obtain ⟨middle, first, stored, second, rfl⟩ := importing
      refine ⟨?_, page, .inl rfl, .inl ⟨nofun, rfl, rfl⟩, recovers, rfl⟩
      refine foldlM_invariant (Written manager request (.inventoryPage grants none configuration))
        ?_ (foldlM_invariant (Written manager request (.inventoryPage grants none configuration))
          ?_ (.same _) first) second
      · intro state old settled member written round
        simp only [settleOmitted] at round
        split at round
        · cases round
          exact written
        · simp only [ok_iff] at round
          obtain ⟨row, found, release, sealed, rfl⟩ := round
          exact .omitted written member found sealed
      · intro state grant stored member written round
        simp only [importGrant, ok_iff] at round
        obtain ⟨_, known, _, _, rfl⟩ := round
        obtain ⟨key, found⟩ := mem_remoteGrants.mp member
        exact .imported written (inventory key grant found) known

theorem committed_eq_ok (done : manager.committed request released = .ok next) :
    Accepted request (.reconciled endSequence released) manager next := by
  unfold committed at done
  split at done
  · next idle =>
    cases done
    exact .of_written (.same _) nofun ⟨idle, fun _ found => absurd (found.symm.trans idle) nofun⟩
  · next recovery active =>
    simp only [ok_iff, Bool.and_eq_true] at done
    obtain ⟨_, ⟨complete, _⟩, stored, folded, rfl⟩ := done
    have recovers : ∀ other, manager.recovery = some other → other.complete = true := by
      intro other same
      cases active.symm.trans same
      exact complete
    refine ⟨?_, fun _ _ found => (nomatch found), .inl rfl, .inl ⟨nofun, rfl, rfl⟩,
      ⟨rfl, recovers⟩, rfl⟩
    refine foldlM_invariant
      (Written manager request (.reconciled endSequence released)) ?_ (.same _) folded
    intro state key settled member written round
    simp only [settleReleased, ok_iff] at round
    obtain ⟨row, found, release, sealed, rfl⟩ := round
    exact .settled written member found sealed

theorem acceptOutcome_eq_ok (done : manager.acceptOutcome encoding request outcome = .ok next) :
    Accepted request outcome manager next := by
  cases outcome with
  | grant grant =>
    obtain ⟨owns, _, rfl⟩ := acceptGrant_eq_ok done
    exact .of_written (.granted owns) nofun rfl
  | ticket ticket =>
    have accepted := acceptTicket_eq_ok done
    obtain ⟨row, found, unsealed, _, _, grants⟩ := accepted.granted
    refine ⟨grants ▸ .noted found, ?_, ?_, .inl ⟨nofun, ?_, ?_⟩, ?_, ?_⟩
    · rw [accepted.shape]
      exact fun _ _ found => .inl found
    · exact accepted.received.imp And.left fun received =>
        ⟨ticket, row, rfl, found, unsealed, received.1, received.2⟩
    all_goals rw [accepted.shape]
    rfl
  | released grantId sealedSequence =>
    obtain ⟨release, row, asked, found, sealed, _, rfl⟩ := acceptReleased_eq_ok done
    exact .of_written (.released asked found sealed) nofun rfl
  | acknowledged throughSequence =>
    simp only [acceptOutcome, acceptAcknowledged, ok_iff, test_iff] at done
    obtain ⟨_, ⟨asked, applied⟩, rfl⟩ := done
    exact ⟨.same _, fun _ _ found => .inl found, .inl rfl,
      .inr ⟨throughSequence, rfl, asked, applied, rfl, rfl⟩, rfl, rfl⟩
  | inventoryPage grants cursor configuration => exact acceptPage_eq_ok done
  | reconciled endSequence released => exact committed_eq_ok done
  | accepted _ | inspection _ _ | rejected _ _ =>
    cases done
    exact .of_written (.same _) nofun rfl

theorem Accepted.outbox (accepted : Accepted request outcome manager next)
    (found : next.outbox.get? other = some queued) : manager.outbox.get? other = some queued := by
  obtain ⟨_, _, same⟩ | ⟨_, _, _, _, _, same⟩ := accepted.queue
  · rw [same] at found
    exact found
  · rw [same, Table.get?_filter] at found
    exact (Option.filter_eq_some_iff.mp found).1

theorem recordAnswer_command
    (found : (manager.recordAnswer sequence outcome).outbox.get? other = some queued) :
    ∃ old, manager.outbox.get? other = some old ∧ queued.command = old.command := by
  obtain ⟨_, old, foundOld, rfl⟩ | ⟨_, found⟩ := Table.get?_update_eq_some.mp found
  · exact ⟨old, foundOld, rfl⟩
  · exact ⟨queued, found, rfl⟩

/-- A reply keeps the seals. -/
theorem Written.kept {grants : Table AllocationKey LocalGrant} (isLocal : Local domain manager)
    (own : request.session.domainId = domain) (written : Written manager request outcome grants) :
    GrantsKept domain manager.grants grants := by
  induction written with
  | same => exact .refl _
  | granted owns => exact .storeGrant (by rw [owns_domainId owns, own])
  | noted found | released asked found sealed => exact .set_grant found
  | imported earlier listed known ih =>
    apply ih.trans
    apply GrantsKept.storeGrant
    rw [importedGrant_candidate]
    obtain old | staged := listed
    · rw [(isLocal.inventory _ _ old).1]
      exact (isLocal.inventory _ _ old).2
    · rw [staged.keyed, owns_domainId staged.owns, own]
  | omitted _ _ found sealed ih | settled _ _ found sealed ih =>
    exact ih.trans (.set (by simp [sealAt, found, sealed]) (.inr ⟨_, found⟩))

/-- A reply that is applied: it answers the queued operation after the last
applied one. -/
structure Applies (encoding : Encoding) (request : Request) (reply : Reply)
    (manager next : Manager) : Prop where
  session : manager.session = some request.session
  queued : ∃ row, manager.outbox.get? request.requestSequence = some row ∧
    row.operationId = request.operationId ∧ row.command = request.command ∧ row.outcome = none
  sequence : request.requestSequence = manager.applied + 1
  applied : ∃ middle, manager.acceptOutcome encoding request reply.outcome = .ok middle ∧
    next = middle.recordAnswer request.requestSequence reply.outcome

theorem accept_eq_ok {applied : Bool}
    (done : manager.accept encoding request reply = .ok (next, applied)) :
    applied = false ∧ next = manager ∨
      applied = true ∧ Applies encoding request reply manager next := by
  simp only [accept, ok_iff, test_iff] at done
  rcases done with ⟨_, _, _, _, _, session, row, found, _, ⟨named, asked⟩, _, _, done⟩
  split at done
  · simp only [ok_iff, Prod.mk.injEq] at done
    rcases done with ⟨_, _, rfl, rfl⟩
    exact .inl ⟨rfl, rfl⟩
  · next unanswered =>
    simp only [ok_iff, Prod.mk.injEq, decide_eq_true_eq] at done
    rcases done with ⟨_, sequence, middle, accepted, rfl, rfl⟩
    exact .inr ⟨rfl, session, ⟨row, found, named, asked, unanswered⟩, sequence, middle,
      accepted, rfl⟩

theorem sealRelease_eq_ok
    (done : manager.sealRelease encoding key operation = .ok (next, sequence)) :
    manager.requireComplete = .ok () ∧
      (∀ sequence row, manager.outbox.get? sequence = some row → row.outcome = none →
        asksForTicket key row.command = false) ∧
      ∃ row release, manager.grants.get? key = some row ∧
        ((row.sealedRelease = some release ∧
            manager.sendSeal encoding operation release = .ok (next, sequence)) ∨
          (row.sealedRelease = none ∧ ∃ proofs, manager.collectProofs key row.grant = .ok proofs ∧
            release = ⟨key, row.grant.offerNonce, manager.nextSequence, proofs⟩ ∧
            (manager.withSeal row release).sendSeal encoding operation release =
              .ok (next, sequence))) := by
  simp only [sealRelease, ok_iff] at done
  rcases done with ⟨_, complete, _, answered, row, found, done⟩
  refine ⟨complete, ?_, row, ?_⟩
  · intro other queued lookup unanswered
    cases asks : asksForTicket key queued.command with
    | false => rfl
    | true =>
      simp only [Bool.not_eq_true', List.any_eq_false, Bool.and_eq_true, not_and] at answered
      have listed : queued ∈ manager.outbox.values := Table.mem_values.mpr ⟨other, lookup⟩
      exact absurd asks (answered queued listed (by rw [unanswered]; rfl))
  · split at done
    · next release sealed => exact ⟨release, found, .inl ⟨sealed, done⟩⟩
    · next unsealed =>
      rw [bind_eq_ok] at done
      rcases done with ⟨proofs, collected, done⟩
      exact ⟨_, found, .inr ⟨unsealed, proofs, collected, rfl, done⟩⟩

/-- What a ticket that is consumed says about the journal. -/
structure Consumes (ticket : InvocationTicket) (manager next : Manager) : Prop where
  session : manager.session = some ticket.session
  inactive : manager.recovery = none
  row : ∃ row, manager.tickets.get? ticket.intent.invocationId = some row ∧ row.ticket = ticket ∧
    sealAt manager.grants row.key = none ∧ row.consumed = false ∧ row.cleanup = none ∧
    next = { manager with
      tickets := manager.tickets.set ticket.intent.invocationId { row with consumed := true } }
  armed : ∃ grant, manager.grants.get? ticket.key = some grant ∧ grant.grant.state = .armed

theorem consumeTicket_eq_ok (done : manager.consumeTicket ticket = .ok (next, consumed)) :
    consumed = false ∧ next = manager ∨ consumed = true ∧ Consumes ticket manager next := by
  simp only [consumeTicket, ok_iff, test_iff, Option.isNone_iff_eq_none,
    active, Bool.not_eq_true', Option.isSome_eq_false_iff] at done
  rcases done with ⟨_, inactive, _, session, row, found, joined, foundJoined, named, foundNamed,
    _, ⟨⟨⟨armed, same⟩, unsealed⟩, uncleaned⟩, done⟩
  split at done
  · simp only [pure_eq_ok, Prod.mk.injEq] at done
    exact .inl ⟨done.2.symm, done.1.symm⟩
  · next unused =>
    simp only [pure_eq_ok, Prod.mk.injEq] at done
    rcases done with ⟨rfl, rfl⟩
    refine .inr ⟨rfl, session, inactive, ⟨row, found, same, ?_, Bool.eq_false_iff.mpr unused,
      uncleaned, rfl⟩, named, foundNamed, armed⟩
    rw [sealAt, foundJoined]
    exact unsealed

/-- What consuming a ticket and recording cleanup leave: one ticket is marked, or
only recovered cleanup and abandoned operations change. -/
inductive Marked (manager : Manager) : Manager → Prop where
  | ticket {row marked : LocalTicket} (found : manager.tickets.get? invocation = some row)
      (sameKey : marked.key = row.key) (same : marked.ticket = row.ticket) :
      Marked manager { manager with tickets := manager.tickets.set invocation marked }
  | aside (recoveredCleanup : Table EntityId TicketCleanup) (abandoned : Table Uuid AbandonedRow) :
      Marked manager { manager with recoveredCleanup, abandoned }

theorem consumeTicket_marks (done : manager.consumeTicket ticket = .ok (next, consumed)) :
    Marked manager next := by
  obtain ⟨_, rfl⟩ | ⟨_, consumes⟩ := consumeTicket_eq_ok done
  · exact .aside _ _
  · obtain ⟨_, found, _, _, _, _, rfl⟩ := consumes.row
    exact .ticket found rfl rfl

theorem recordCleanup_marks (done : manager.recordCleanup cleanup = .ok next) :
    Marked manager next := by
  unfold recordCleanup at done
  split at done
  · simp only [recordRecoveredCleanup, ok_iff] at done
    obtain ⟨_, _, _, _, _, _, rfl⟩ := done
    exact .aside _ _
  · next found =>
    simp only [ok_iff] at done
    obtain ⟨_, _, rfl⟩ := done
    exact .ticket found rfl rfl

theorem recordUnusedCleanup_marks (done : manager.recordUnusedCleanup ticket cleanup = .ok next) :
    Marked manager next := by
  simp only [recordUnusedCleanup, ok_iff] at done
  obtain ⟨_, found, _, _, rfl⟩ := done
  exact .ticket found rfl rfl

theorem acknowledgeAbandoned_marks (done : manager.acknowledgeAbandoned operations = .ok next) :
    Marked manager next := by
  simp only [acknowledgeAbandoned, ok_iff] at done
  obtain ⟨_, _, _, _, rfl⟩ := done
  exact .aside _ _

end Inversion

end Manager

end Stillyard
