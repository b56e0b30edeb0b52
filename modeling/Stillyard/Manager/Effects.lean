import Stillyard.Manager.Steps

/-!
# What the steps of a manager have in common

No step takes a seal back, no step records a ticket of a sealed allocation, and
every queued command carries only seals that are in place.
-/

namespace Stillyard

open Relational Fallible

namespace Manager

variable {operation : Uuid} {command : Command} {sequence : Nat} {request : Request} {reply : Reply}
  {release : SealedRelease}

/-- The seals that a command carries are in place. -/
def Places (manager : Manager) (command : Command) : Prop :=
  ∀ release, command.Carries release → ∃ key, sealAt manager.grants key = some release

/-- One change of a transaction that applies no reply. -/
inductive Change (encoding : Encoding) (manager : Manager) : Manager → Prop where
  | enqueued {operation : Uuid} {command : Command}
      (enqueued : Enqueued operation command manager next)
      (fits : manager.outboxHasRoom encoding command = true) (places : manager.Places command) :
      Change encoding manager next
  | sealed {release : SealedRelease} (found : manager.grants.get? release.key = some row)
      (unsealed : row.sealedRelease = none) : Change encoding manager (manager.withSeal row release)
  | marked (marks : Marked manager next) : Change encoding manager next

section Change

variable {encoding : Encoding} {replied : Request → Reply → Prop} {manager next : Manager}

/-- Full pages and the page that is filled hold the records in order. -/
structure Filling (records : List ReconcileAllocation)
    (filled : List (List ReconcileAllocation) × List ReconcileAllocation) : Prop where
  records : filled.1.flatten ++ filled.2 = records
  full : ∀ page ∈ filled.1, page ≠ [] ∧ page.length ≤ maxReconcilePage
  last : filled.2.length ≤ maxReconcilePage

theorem Filling.empty : Filling [] ([], []) := ⟨rfl, by simp, by decide⟩

theorem filling_pageRecord {records : List ReconcileAllocation} (filling : Filling records start)
    (round : pageRecord encoding start record = .ok filled) :
    Filling (records ++ [record]) filled := by
  unfold pageRecord at round
  dsimp only at round
  split at round
  · simp only [ok_iff] at round
    obtain ⟨_, some, rfl⟩ := round
    refine ⟨by simp [← filling.records], ?_, by simp [maxReconcilePage]⟩
    intro page listed
    rcases List.mem_append.mp listed with before | last
    · exact filling.full page before
    · rw [List.mem_singleton.mp last]
      exact ⟨of_decide_eq_true some, filling.last⟩
  · next fits =>
    obtain rfl := pure_eq_ok.mp round
    simp only [Bool.or_eq_true, decide_eq_true_eq, not_or, Nat.not_lt] at fits
    exact ⟨by simp [← filling.records], filling.full, fits.1⟩

theorem filling_of_foldlM {records : List ReconcileAllocation} (filling : Filling before start)
    (done : records.foldlM (pageRecord encoding) start = .ok filled) :
    Filling (before ++ records) filled := by
  induction records generalizing before start with
  | nil =>
    obtain rfl := pure_eq_ok.mp done
    rwa [List.append_nil]
  | cons record rest hypothesis =>
    rw [List.foldlM_cons, bind_eq_ok] at done
    obtain ⟨middle, round, others⟩ := done
    rw [List.append_cons]
    exact hypothesis (filling_pageRecord filling round) others

/-- The pages of a completed loop. -/
theorem Filling.pages {records : List ReconcileAllocation} (filling : Filling records filled) :
    (if filled.2 = [] then filled.1 else filled.1 ++ [filled.2]).flatten = records ∧
      ∀ page ∈ if filled.2 = [] then filled.1 else filled.1 ++ [filled.2],
        page ≠ [] ∧ page.length ≤ maxReconcilePage := by
  split
  next empty =>
    refine ⟨?_, filling.full⟩
    simpa [empty] using filling.records
  next some =>
    refine ⟨by simpa using filling.records, ?_⟩
    intro page listed
    rcases List.mem_append.mp listed with before | last
    · exact filling.full page before
    · rw [List.mem_singleton.mp last]
      exact ⟨some, filling.last⟩

/-- The pages of a reconciliation hold the records of the local Grants in order, and
each page has one record and at most 256. -/
theorem reconciliationPages_eq_ok {pages : List (List ReconcileAllocation)}
    (done : manager.reconciliationPages encoding = .ok pages) :
    (manager.localGrants.filter fun grant => grant.state ≠ .released).mapM manager.recordOf =
        .ok pages.flatten ∧
      ∀ page ∈ pages, page ≠ [] ∧ page.length ≤ maxReconcilePage := by
  simp only [reconciliationPages, ok_iff] at done
  obtain ⟨records, computed, filled, folded, _, _, rfl⟩ := done
  have filling := filling_of_foldlM .empty folded
  rw [filling.pages.1]
  exact ⟨computed, filling.pages.2⟩

theorem mem_reconciliationPages {pages : List (List ReconcileAllocation)}
    (done : manager.reconciliationPages encoding = .ok pages) :
    ∀ page ∈ pages, ∀ record ∈ page, ∃ grant ∈ manager.localGrants,
      manager.recordOf grant = .ok record := by
  intro page listed record member
  obtain ⟨grant, found, same⟩ := mem_of_mapM (reconciliationPages_eq_ok done).1 record
    (List.mem_flatten_of_mem listed member)
  exact ⟨grant, List.mem_of_mem_filter found, same⟩

theorem reconciliation_places {snapshotId : Uuid} {commands : List Command}
    (computed : manager.reconciliation encoding snapshotId = .ok commands) :
    ∀ command ∈ commands, manager.Places command := by
  simp only [reconciliation, ok_iff] at computed
  rcases computed with ⟨_, _, _, _, pages, paged, _, _, _, _, rfl⟩
  intro command member release carries
  simp only [List.cons_append, List.nil_append, List.mem_cons, List.mem_append, List.mem_map,
    List.not_mem_nil, or_false] at member
  rcases member with rfl | ⟨page, listed, rfl⟩ | rfl
  · cases carries
  · rcases carries with ⟨record, inPage, sealed⟩
    rcases mem_reconciliationPages paged page.1
      (List.fst_mem_of_mem_zipIdx listed) record inPage with ⟨grant, _, computed⟩
    simp only [recordOf, ok_iff] at computed
    rcases computed with ⟨row, found, rfl⟩
    refine ⟨grant.candidate.key, ?_⟩
    rw [sealAt, found]
    exact sealed
  · cases carries

theorem enqueue_changes (places : manager.Places command)
    (done : manager.enqueue encoding operation command = .ok (next, sequence)) :
    Relation.ReflTransGen (Change encoding) manager next := by
  rcases enqueue_eq_ok done with ⟨rfl, _⟩ | enqueued
  · exact .refl
  · exact .single (.enqueued enqueued (enqueued.fits done) places)

theorem enqueueAll_changes (places : ∀ operation ∈ operations, manager.Places operation.2)
    (done : manager.enqueueAll encoding operations = .ok next) :
    Relation.ReflTransGen (Change encoding) manager next := by
  refine (foldlM_invariant (fun state => Relation.ReflTransGen (Change encoding) manager state ∧
    ∀ key, sealAt state.grants key = sealAt manager.grants key) ?_ ⟨.refl, fun _ => rfl⟩ done).1
  intro state operation queued member held round
  rcases map_eq_ok.mp round with ⟨result, enqueued, rfl⟩
  constructor
  · apply held.1.trans (enqueue_changes _ enqueued)
    intro release carries
    obtain ⟨key, sealed⟩ := places operation member release carries
    exact ⟨key, (held.2 key).trans sealed⟩
  · exact fun key => (enqueue_seals enqueued key).trans (held.2 key)

theorem sendSeal_changes (sealed : ∃ key, sealAt manager.grants key = some release)
    (done : manager.sendSeal encoding operation release = .ok (next, sequence)) :
    Relation.ReflTransGen (Change encoding) manager next := by
  unfold sendSeal at done
  split at done
  · cases done
    exact .refl
  · apply enqueue_changes _ done
    intro carried same
    cases same
    exact sealed

theorem sealAt_withSeal (manager : Manager) (row : LocalGrant) (release : SealedRelease)
    (key : AllocationKey) : sealAt (manager.withSeal row release).grants key =
      if key = release.key then some release else sealAt manager.grants key := by
  unfold sealAt withSeal
  rw [Table.get?_set]
  split <;> rfl

/-- A transaction applies a reply, or makes changes of its own. -/
theorem Step.changes (step : Step encoding replied manager next) :
    Relation.ReflTransGen (Change encoding) manager next ∨
      ∃ request reply, replied request reply ∧ Applies encoding request reply manager next := by
  cases step with
  | @enqueue _ _ _ command _ work done =>
    refine .inl (enqueue_changes ?_ done)
    intro release carries
    cases command <;> cases work <;> cases carries
  | page idle asked done =>
    simp only [nextPage, ok_iff] at asked
    rcases asked with ⟨recovery, _, chosen⟩
    split at chosen
    · cases chosen
    · cases chosen
      refine .inl (enqueue_changes ?_ done)
      exact fun _ carries => (nomatch carries)
  | reconcile computed done =>
    refine .inl (enqueueAll_changes ?_ done)
    intro operation member
    exact reconciliation_places computed _ (List.mem_map_of_mem member)
  | @sealRelease _ _ key _ _ done =>
    rcases sealRelease_eq_ok done with ⟨_, _, row, release, found, ⟨sealed, sent⟩ | ⟨unsealed, _, _,
      rfl, sent⟩⟩
    · refine .inl (sendSeal_changes ⟨key, ?_⟩ sent)
      rw [sealAt, found]
      exact sealed
    · refine .inl (.head (.sealed found unsealed) (sendSeal_changes ⟨key, ?_⟩ sent))
      rw [sealAt_withSeal, if_pos rfl]
  | accept heard done =>
    rcases accept_eq_ok done with ⟨_, rfl⟩ | ⟨_, applies⟩
    · exact .inl .refl
    · exact .inr ⟨_, _, heard, applies⟩
  | consumeTicket done => exact .inl (.single (.marked (consumeTicket_marks done)))
  | recordCleanup done => exact .inl (.single (.marked (recordCleanup_marks done)))
  | recordUnusedCleanup done => exact .inl (.single (.marked (recordUnusedCleanup_marks done)))
  | acknowledgeAbandoned done => exact .inl (.single (.marked (acknowledgeAbandoned_marks done)))

end Change

/-! ## Effects -/

/-- A ticket that a step records comes from a reply, and its allocation was not
sealed. -/
structure Received (domain : ExecutionDomainId) (replied : Request → Reply → Prop)
    (manager : Manager) (invocation : EntityId) (row : LocalTicket) : Prop where
  unsealed : sealAt manager.grants row.key = none
  own : row.key.domainId = domain
  key : row.ticket.key = row.key
  invocation : row.ticket.intent.invocationId = invocation
  heard : ∃ request reply, replied request reply ∧ reply.outcome = .ticket row.ticket

/-- What the steps of a manager have in common. -/
structure Effect (domain : ExecutionDomainId) (replied : Request → Reply → Prop)
    (manager next : Manager) : Prop where
  isLocal : Local domain next
  seals : ∀ key release, sealAt manager.grants key = some release →
    sealAt next.grants key = some release
  tickets : ∀ invocation row, next.tickets.get? invocation = some row →
    (∃ old, manager.tickets.get? invocation = some old ∧ row.key = old.key ∧
      row.ticket = old.ticket) ∨ Received domain replied manager invocation row
  outbox : ∀ sequence row, next.outbox.get? sequence = some row →
    (∃ old, manager.outbox.get? sequence = some old ∧ row.command = old.command) ∨
      ∀ release, row.command.Carries release → Sealed next release

section Effect

variable {domain : ExecutionDomainId} {replied : Request → Reply → Prop}
  {encoding : Encoding} {manager middle next : Manager}

theorem Local.kept (isLocal : Local domain manager)
    (session : ∀ session, next.session = some session → session.domainId = domain)
    (kept : GrantsKept domain manager.grants next.grants)
    (inventory : ∀ key grant, next.inventory.get? key = some grant →
      grant.candidate.key = key ∧ key.domainId = domain) : Local domain next where
  session := session
  grants key row found := by
    rcases kept.own key row found with here | ⟨old, foundOld⟩
    · exact here
    · exact isLocal.grants key old foundOld
  seals key release sealed := isLocal.seals key release ((kept.seals key).symm.trans sealed)
  inventory := inventory

/-- A step that leaves tickets and queued commands alone. -/
theorem Effect.of_kept (isLocal : Local domain next)
    (kept : GrantsKept domain manager.grants next.grants) (tickets : next.tickets = manager.tickets)
    (outbox : ∀ sequence row, next.outbox.get? sequence = some row →
      ∃ old, manager.outbox.get? sequence = some old ∧ row.command = old.command) :
    Effect domain replied manager next where
  isLocal := isLocal
  seals key _ sealed := (kept.seals key).trans sealed
  tickets _ row found := .inl ⟨row, tickets ▸ found, rfl, rfl⟩
  outbox sequence row found := .inl (outbox sequence row found)

theorem Effect.refl (isLocal : Local domain manager) : Effect domain replied manager manager :=
  .of_kept isLocal (.refl _) rfl fun _ row found => ⟨row, found, rfl⟩

theorem Effect.trans (earlier : Effect domain replied manager middle)
    (later : Effect domain replied middle next) : Effect domain replied manager next where
  isLocal := later.isLocal
  seals key release sealed := later.seals key release (earlier.seals key release sealed)
  tickets invocation row found := by
    rcases later.tickets invocation row found with ⟨old, foundOld, sameKey, same⟩ | received
    · rcases earlier.tickets invocation old foundOld with
        ⟨first, foundFirst, key, ticket⟩ | received
      · exact .inl ⟨first, foundFirst, sameKey.trans key, same.trans ticket⟩
      · refine .inr ⟨?_, ?_, ?_, ?_, ?_⟩ <;> simp only [sameKey, same]
        · exact received.unsealed
        · exact received.own
        · exact received.key
        · exact received.invocation
        · exact received.heard
    · refine .inr ⟨?_, received.own, received.key, received.invocation, received.heard⟩
      cases sealed : sealAt manager.grants row.key with
      | none => rfl
      | some release =>
        have still := earlier.seals row.key release sealed
        rw [received.unsealed] at still
        cases still
  outbox sequence row found := by
    rcases later.outbox sequence row found with ⟨old, foundOld, same⟩ | fresh
    · rcases earlier.outbox sequence old foundOld with ⟨first, foundFirst, command⟩ | fresh
      · exact .inl ⟨first, foundFirst, same.trans command⟩
      · refine .inr fun release carries => ?_
        rw [same] at carries
        exact later.seals _ _ (fresh release carries)
    · exact .inr fresh

/-- Queueing a command whose seals are in place. -/
theorem Enqueued.effect (isLocal : Local domain manager)
    (carried : ∀ release, command.Carries release → Sealed manager release)
    (enqueued : Enqueued operation command manager next) : Effect domain replied manager next := by
  have kept : GrantsKept domain manager.grants next.grants := enqueued.grantsKept
  rcases enqueued.shape with ⟨grants, _, rfl⟩
  refine ⟨isLocal.kept isLocal.session kept isLocal.inventory, ?_, ?_, ?_⟩
  · intro key release sealed
    exact (kept.seals key).trans sealed
  · intro invocation row found
    exact .inl ⟨row, found, rfl, rfl⟩
  · intro sequence row found
    obtain ⟨_, rfl⟩ | ⟨_, found⟩ := Table.get?_set_eq_some.mp found
    · exact .inr fun release carries => (kept.seals _).trans (carried release carries)
    · exact .inl ⟨row, found, rfl⟩

variable (isLocal : Local domain manager)

include isLocal

theorem acceptOutcome_effect (heard : replied request reply)
    (own : request.session.domainId = domain)
    (accepted : Accepted request reply.outcome manager next) :
    Effect domain replied manager next := by
  have kept := accepted.written.kept isLocal own
  refine ⟨isLocal.kept ?_ kept ?_, ?_, ?_, ?_⟩
  · rw [accepted.shape]
    exact isLocal.session
  · intro key grant found
    obtain old | ⟨grants, cursor, configuration, _, staged⟩ := accepted.inventory key grant found
    · exact isLocal.inventory key grant old
    · exact ⟨staged.keyed, (owns_domainId staged.owns).trans own⟩
  · exact fun key release sealed => (kept.seals key).trans sealed
  · intro invocation received lookup
    obtain same | ⟨ticket, row, outcome, found, unsealed, _, added⟩ := accepted.tickets
    · exact .inl ⟨received, same ▸ lookup, rfl, rfl⟩
    · rw [added, Table.get?_set_eq_some] at lookup
      obtain ⟨rfl, rfl⟩ | ⟨_, before⟩ := lookup
      · refine .inr ⟨?_, isLocal.grants _ _ found, rfl, rfl, request, reply, heard, outcome⟩
        rw [sealAt, found]
        exact unsealed
      · exact .inl ⟨received, before, rfl, rfl⟩
  · exact fun _ queued found => .inl ⟨queued, accepted.outbox found, rfl⟩

theorem Applies.effect (heard : replied request reply)
    (applies : Applies encoding request reply manager next) :
    Effect domain replied manager next := by
  rcases applies.applied with ⟨middle, accepted, rfl⟩
  have effect := acceptOutcome_effect isLocal heard
    (isLocal.session _ applies.session) (acceptOutcome_eq_ok accepted)
  apply effect.trans
  exact .of_kept ⟨effect.isLocal.session, effect.isLocal.grants, effect.isLocal.seals,
    effect.isLocal.inventory⟩ (.refl _) rfl fun _ _ found => recordAnswer_command found

theorem withSeal_effect (found : manager.grants.get? release.key = some row)
    (unsealed : row.sealedRelease = none) :
    Effect domain replied manager (manager.withSeal row release) := by
  refine ⟨⟨isLocal.session, ?_, ?_, isLocal.inventory⟩, ?_, ?_, ?_⟩
  · intro key stored present
    obtain ⟨rfl, _⟩ | ⟨_, present⟩ := Table.get?_set_eq_some.mp present
    · exact isLocal.grants _ _ found
    · exact isLocal.grants _ _ present
  · intro key stored sealed
    rw [sealAt_withSeal] at sealed
    split at sealed
    · next same =>
      cases sealed
      exact same.symm
    · exact isLocal.seals key stored sealed
  · intro key stored sealed
    rw [sealAt_withSeal]
    split
    · next same =>
      subst same
      rw [sealAt, found] at sealed
      cases unsealed.symm.trans sealed
    · exact sealed
  · exact fun _ ticket present => .inl ⟨ticket, present, rfl, rfl⟩
  · exact fun _ queued present => .inl ⟨queued, present, rfl⟩

theorem Marked.effect (marks : Marked manager next) : Effect domain replied manager next := by
  cases marks with
  | @ticket invocation row marked found sameKey same =>
    refine ⟨⟨isLocal.session, isLocal.grants, isLocal.seals, isLocal.inventory⟩,
      fun _ _ sealed => sealed, ?_, fun _ queued present => .inl ⟨queued, present, rfl⟩⟩
    intro other ticket lookup
    obtain ⟨rfl, rfl⟩ | ⟨_, before⟩ := Table.get?_set_eq_some.mp lookup
    · exact .inl ⟨row, found, sameKey, same⟩
    · exact .inl ⟨ticket, before, rfl, rfl⟩
  | aside =>
    exact .of_kept ⟨isLocal.session, isLocal.grants, isLocal.seals, isLocal.inventory⟩ (.refl _)
      rfl fun _ row found => ⟨row, found, rfl⟩

theorem connect_effect {session : SessionIdentity} (own : session.domainId = domain)
    (done : manager.connect encoding session participant = .ok next) :
    Effect domain replied manager next := by
  rw [(connect_eq_ok done).shape]
  refine .of_kept ⟨?_, isLocal.grants, isLocal.seals, fun _ _ found => (nomatch found)⟩
    (.refl _) rfl ?_
  · intro bound same
    cases same
    exact own
  · intro sequence row found
    dsimp only at found
    rw [Table.get?_filter] at found
    exact ⟨row, (Option.filter_eq_some_iff.mp found).1, rfl⟩

theorem Change.effect (change : Change encoding manager next) :
    Effect domain replied manager next := by
  cases change with
  | enqueued enqueued fits places =>
    apply enqueued.effect isLocal
    intro release carries
    obtain ⟨key, sealed⟩ := places release carries
    rw [Sealed, isLocal.seals key release sealed]
    exact sealed
  | sealed found unsealed => exact withSeal_effect isLocal found unsealed
  | marked marks => exact marks.effect isLocal

/-- What a step of the manager does. -/
theorem Step.effect (step : Step encoding replied manager next) :
    Effect domain replied manager next := by
  obtain changes | ⟨request, reply, heard, applies⟩ := step.changes
  · clear step
    induction changes with
    | refl => exact .refl isLocal
    | tail _ change ih => exact ih.trans (change.effect ih.isLocal)
  · exact applies.effect isLocal heard

end Effect

end Manager

end Stillyard
