import Stillyard.Manager.Numbers
import Stillyard.Store.Numbers
import Stillyard.System.Agreement

/-!
# Watermarks

The coordinator counts the operations it accepted of a domain, the manager those
it numbered and those whose answers it applied.  A reconnecting manager takes
over the coordinator's watermarks and sets its unanswered operations aside, while
requests of earlier sessions may still arrive.  `Chronicle` relates both sides to
the list of operations committed so far; the epochs of the sessions tell which
requests can still be accepted.
-/

namespace Stillyard

open Relational Fallible

variable {history : List (Request × Outcome)} {domain : ExecutionDomainId} {sequence : Nat}
  {row : OutboxRow} {store : MachineStore} {request : Request} {reply : Reply}
  {session : SessionIdentity} {participant : ParticipantSnapshot} {manager : Manager}
  {welcomes : List (SessionIdentity × ParticipantSnapshot)} {event : Event}

/-! ## The chronicle -/

/-- The operation with this number was committed as the row says. -/
def Matches (history : List (Request × Outcome)) (domain : ExecutionDomainId) (sequence : Nat)
    (row : OutboxRow) : Prop :=
  ∃ entry ∈ operationsOf history domain, entry.1.requestSequence = sequence ∧
    entry.1.operationId = row.operationId ∧ entry.1.command = row.command ∧
    ∀ outcome, row.outcome = some outcome → entry.2 = outcome

/-- A request that was sent is of an earlier session, or is still in the outbox
as it was sent, unless it was answered and retired. -/
structure Sent (manager : Manager) (request : Request) : Prop where
  session : ∃ session, manager.session = some session ∧
    request.session.connectionEpoch ≤ session.connectionEpoch
  current : ∀ session, manager.session = some session →
    request.session.connectionEpoch = session.connectionEpoch →
      request.requestSequence < manager.nextSequence ∧
        ∀ row, manager.outbox.get? request.requestSequence = some row →
          row.operationId = request.operationId ∧ row.command = request.command
  acknowledges : ∀ throughSequence, request.command = .acknowledge throughSequence →
    throughSequence ≤ manager.applied

/-- A completed handshake that no connection used.  As long as its session is
newer than the manager's, its watermarks are the current ones. -/
structure Unused (store : MachineStore) (manager : Manager) (session : SessionIdentity)
    (participant : ParticipantSnapshot) : Prop where
  issued : session.connectionEpoch ≤ store.epoch session.domainId
  unused : ∀ prior, manager.session = some prior →
    prior.connectionEpoch ≠ session.connectionEpoch
  current : (∀ prior, manager.session = some prior →
      prior.connectionEpoch < session.connectionEpoch) →
    participant.acceptedSequence = store.accepted session.domainId ∧
      participant.retiredSequenceFloor = store.retiredFloor session.domainId

/-- A manager, its requests and its handshakes fit the operations of its domain
that were committed so far. -/
structure Abreast (store : MachineStore) (history : List (Request × Outcome))
    (requests : List Request) (welcomes : List (SessionIdentity × ParticipantSnapshot))
    (domain : ExecutionDomainId) (manager : Manager) : Prop where
  numbered : manager.Numbered
  applied : manager.applied ≤ store.accepted domain
  known : store.accepted domain < manager.nextSequence
  floor : store.retiredFloor domain ≤ manager.applied
  session : ∀ session, manager.session = some session →
    session.connectionEpoch ≤ store.epoch domain
  outbox : ∀ sequence row, manager.outbox.get? sequence = some row →
    sequence ≤ store.accepted domain → Matches history domain sequence row
  acknowledges : ∀ sequence row throughSequence, manager.outbox.get? sequence = some row →
    row.command = .acknowledge throughSequence → throughSequence ≤ manager.applied
  requests : ∀ request ∈ requests, request.session.domainId = domain → Sent manager request
  welcomes : ∀ session participant, (session, participant) ∈ welcomes →
    session.domainId = domain → Unused store manager session participant

/-- The watermarks of both sides, the outboxes and the messages in flight fit the
operations committed so far. -/
structure Chronicle (store : MachineStore) (system : System)
    (history : List (Request × Outcome)) : Prop where
  recorded : Recorded store history
  managers : ∀ domain, Abreast store history system.requests system.welcomes domain
    (system.managers domain)
  replies : ∀ request reply, (request, reply) ∈ system.replies →
    Matches history request.session.domainId request.requestSequence
      ⟨request.operationId, request.command, some reply.outcome⟩
  distinct : (system.welcomes.map fun welcome =>
    (welcome.1.domainId, welcome.1.connectionEpoch)).Nodup

theorem mem_operationsOf :
    entry ∈ operationsOf history domain ↔
      entry ∈ history ∧ entry.1.session.domainId = domain := by
  rw [operationsOf, List.mem_filter, decide_eq_true_eq]

theorem Matches.append (fits : Matches history domain sequence row)
    (commits : List (Request × Outcome)) : Matches (history ++ commits) domain sequence row := by
  rcases fits with ⟨entry, member, same⟩
  refine ⟨entry, ?_, same⟩
  rw [mem_operationsOf] at member ⊢
  exact ⟨List.mem_append_left _ member.1, member.2⟩

theorem Matches.sequence_le (recorded : Recorded store history)
    (fits : Matches history domain sequence row) : sequence ≤ store.accepted domain := by
  rcases fits with ⟨entry, member, rfl, _⟩
  exact recorded.sequence_le member

section Coordinator

variable {config : CoordinatorConfig} {system : System} {store next : MachineStore}
  {history : List (Request × Outcome)} {requests : List Request}
  {welcomes : List (SessionIdentity × ParticipantSnapshot)} {domain : ExecutionDomainId}
  {manager : Manager} {request : Request} {outcome : Outcome}

/-- The coordinator did nothing to the operations of this domain. -/
theorem Abreast.keep (abreast : Abreast store history requests welcomes domain manager)
    (accepted : next.accepted domain = store.accepted domain)
    (retired : next.retiredFloor domain = store.retiredFloor domain)
    (raised : store.epoch domain ≤ next.epoch domain) :
    Abreast next (history ++ commits) requests welcomes domain manager where
  numbered := abreast.numbered
  applied := by
    rw [accepted]
    exact abreast.applied
  known := by
    rw [accepted]
    exact abreast.known
  floor := by
    rw [retired]
    exact abreast.floor
  session session bound := (abreast.session session bound).trans raised
  outbox sequence row found within := by
    rw [accepted] at within
    exact (abreast.outbox sequence row found within).append _
  acknowledges := abreast.acknowledges
  requests := abreast.requests
  welcomes session participant listed own := by
    have unused := abreast.welcomes session participant listed own
    subst own
    refine ⟨unused.issued.trans raised, unused.unused, ?_⟩
    rw [accepted, retired]
    exact unused.current

/-- An operation is committed only in the session that its manager is in, and
that session is the newest. -/
theorem Abreast.committed_session
    (abreast : Abreast store history requests welcomes request.session.domainId manager)
    (asked : request ∈ requests) (committed : Committed config request outcome store next) :
    ∃ session, manager.session = some session ∧
      request.session.connectionEpoch = session.connectionEpoch ∧
      session.connectionEpoch = store.epoch request.session.domainId := by
  rcases (abreast.requests request asked rfl).session with ⟨session, bound, older⟩
  have below := abreast.session session bound
  have current := committed.current
  exact ⟨session, bound, by omega, by omega⟩

/-- The coordinator accepted an operation of this domain. -/
theorem Abreast.commit {floor : Nat}
    (abreast : Abreast store history requests welcomes request.session.domainId manager)
    (asked : request ∈ requests) (committed : Committed config request outcome store next)
    (advances : Advances request outcome store next floor) :
    Abreast next (history ++ [(request, outcome)]) requests welcomes request.session.domainId
      manager := by
  have sent := abreast.requests request asked rfl
  rcases abreast.committed_session asked committed with ⟨session, bound, current, newest⟩
  have inOutbox := sent.current session bound current
  have inOrder := advances.sequence
  have accepted : next.accepted request.session.domainId = request.requestSequence := by
    rw [advances.accepted, if_pos rfl]
  have applied := abreast.applied
  refine ⟨abreast.numbered, by omega, by omega, ?_, ?_, ?_, abreast.acknowledges,
    abreast.requests, ?_⟩
  · rcases committed.floor request.session.domainId with same | ⟨_, acknowledges⟩
    · rw [same]
      exact abreast.floor
    · exact sent.acknowledges _ acknowledges
  · rw [committed.epoch]
    exact abreast.session
  · intro sequence row found within
    by_cases before : sequence ≤ store.accepted request.session.domainId
    · exact (abreast.outbox sequence row found before).append _
    · -- The row is the operation that was just accepted, which has no answer yet.
      have last : sequence = request.requestSequence := by omega
      subst last
      rcases inOutbox.2 row found with ⟨sameId, sameCommand⟩
      refine ⟨(request, outcome), mem_operationsOf.mpr ⟨by simp, rfl⟩, rfl, sameId.symm,
        sameCommand.symm, ?_⟩
      intro answer answered
      have unanswered := (abreast.numbered.answered _ row found).mpr (by omega)
      rw [unanswered] at answered
      cases answered
  · intro other participant listed own
    have unused := abreast.welcomes other participant listed own
    refine ⟨by rw [committed.epoch]; exact unused.issued, unused.unused, ?_⟩
    -- The manager is in the newest session, so no handshake is newer.
    intro older
    have strictly := older session bound
    have issued := unused.issued
    rw [own] at issued
    omega

theorem StoreStep.chronicle (keyed : Keyed store) (chronicle : Chronicle store system history)
    (asked : ∀ entry ∈ commits, entry.1 ∈ system.requests)
    (step : StoreStep config store commits next) : Chronicle next system (history ++ commits) := by
  have replies : ∀ request reply, (request, reply) ∈ system.replies →
      Matches (history ++ commits) request.session.domainId request.requestSequence
        ⟨request.operationId, request.command, some reply.outcome⟩ :=
    fun request reply member => (chronicle.replies request reply member).append _
  rcases step.history keyed with ⟨rfl, kept⟩ | ⟨request, outcome, rfl, committed⟩
  · refine ⟨?_, ?_, replies, chronicle.distinct⟩
    · rw [List.append_nil]
      exact chronicle.recorded.keep kept
    · intro domain
      exact (chronicle.managers domain).keep (kept.marks domain).1 (kept.marks domain).2
        (step.epoch keyed domain)
  · rcases committed.advances (fun domain sequence row found =>
      ((chronicle.recorded.retained domain sequence row).mp found).1) chronicle.recorded.ordered
      with ⟨floor, advances⟩
    refine ⟨chronicle.recorded.advance advances, ?_, replies, chronicle.distinct⟩
    intro domain
    by_cases named : domain = request.session.domainId
    · subst named
      exact (chronicle.managers _).commit (asked (request, outcome) List.mem_cons_self) committed
        advances
    · refine (chronicle.managers domain).keep ?_ ?_ (step.epoch keyed domain)
      · rw [advances.accepted, if_neg named]
      · rw [advances.retired, if_neg named]

theorem StoreRun.chronicle (keyed : Keyed store) (chronicle : Chronicle store system history)
    (asked : ∀ entry ∈ commits, entry.1 ∈ system.requests)
    (run : StoreRun config store commits next) : Chronicle next system (history ++ commits) := by
  induction run generalizing history with
  | refl =>
    rw [List.append_nil]
    exact chronicle
  | step one _ ih =>
    rw [← List.append_assoc]
    apply ih (one.keyed keyed)
    · exact one.chronicle keyed chronicle fun entry member =>
        asked entry (List.mem_append_left _ member)
    · exact fun entry member => asked entry (List.mem_append_right _ member)

end Coordinator

section Managers

variable {store : MachineStore} {history : List (Request × Outcome)} {requests : List Request}
  {welcomes : List (SessionIdentity × ParticipantSnapshot)} {domain : ExecutionDomainId}
  {manager next : Manager}

/-- Unused handshakes depend on the manager only by its session. -/
private theorem Abreast.welcomes_of_session
    (abreast : Abreast store history requests welcomes domain manager)
    (same : next.session = manager.session) :
    ∀ session participant, (session, participant) ∈ welcomes → session.domainId = domain →
      Unused store next session participant := by
  intro session participant listed own
  have unused := abreast.welcomes session participant listed own
  refine ⟨unused.issued, ?_, ?_⟩
  · rw [same]
    exact unused.unused
  · rw [same]
    exact unused.current

theorem Abreast.queues (abreast : Abreast store history requests welcomes domain manager)
    (numbered : next.Numbered) (queues : manager.Queues next)
    (acknowledges : ∀ sequence row throughSequence, next.outbox.get? sequence = some row →
      row.command = .acknowledge throughSequence → throughSequence ≤ next.applied) :
    Abreast store history requests welcomes domain next := by
  have known := abreast.known
  have later := queues.later
  refine ⟨numbered, ?_, by omega, ?_, ?_, ?_, acknowledges, ?_,
    abreast.welcomes_of_session queues.session⟩
  · rw [queues.applied]
    exact abreast.applied
  · rw [queues.applied]
    exact abreast.floor
  · rw [queues.session]
    exact abreast.session
  · intro sequence row found within
    rcases queues.outbox sequence row found with before | new
    · exact abreast.outbox sequence row before within
    · omega
  · intro request asked own
    have sent := abreast.requests request asked own
    refine ⟨?_, ?_, ?_⟩
    · rw [queues.session]
      exact sent.session
    · intro session bound same
      rw [queues.session] at bound
      have current := sent.current session bound same
      refine ⟨by omega, ?_⟩
      intro row found
      rcases queues.outbox _ row found with before | new
      · exact current.2 row before
      · omega
    · rw [queues.applied]
      exact sent.acknowledges

theorem Abreast.answered (abreast : Abreast store history requests welcomes domain manager)
    (recorded : Recorded store history) (numbered : next.Numbered)
    (fits : Matches history domain request.requestSequence
      ⟨request.operationId, request.command, some reply.outcome⟩)
    (answered : Manager.Answered request reply manager next) :
    Abreast store history requests welcomes domain next := by
  have accepted := fits.sequence_le recorded
  have applied := answered.applied
  have sequence := answered.sequence
  have floor := abreast.floor
  have known := abreast.known
  have later := answered.later
  refine ⟨numbered, by omega, by omega, by omega, ?_, ?_, ?_, ?_,
    abreast.welcomes_of_session answered.session⟩
  · rw [answered.session]
    exact abreast.session
  · intro number row found within
    rcases answered.outbox number row found with ⟨_, before⟩ | ⟨rfl, rfl⟩
    · exact abreast.outbox number row before within
    · exact fits
  · intro number row through found asked
    rcases answered.outbox number row found with ⟨_, before⟩ | ⟨rfl, rfl⟩
    · have bound := abreast.acknowledges number row through before asked
      omega
    · have bound := abreast.acknowledges _ _ through answered.queued asked
      omega
  · intro other asked own
    have sent := abreast.requests other asked own
    refine ⟨?_, ?_, ?_⟩
    · rw [answered.session]
      exact sent.session
    · intro session bound same
      rw [answered.session] at bound
      have current := sent.current session bound same
      refine ⟨by omega, ?_⟩
      intro row found
      rcases answered.outbox _ row found with ⟨_, before⟩ | ⟨number, rfl⟩
      · exact current.2 row before
      · rw [number] at current
        have same := current.2 _ answered.queued
        exact ⟨same.1, same.2⟩
    · intro through asked
      have bound := sent.acknowledges through asked
      omega

/-- A connection uses its handshake, and takes over the current watermarks. -/
theorem Abreast.connect (abreast : Abreast store history requests welcomes session.domainId manager)
    (distinct : (welcomes.map fun welcome =>
      (welcome.1.domainId, welcome.1.connectionEpoch)).Nodup)
    (heard : (session, participant) ∈ welcomes)
    (done : manager.connect encoding session participant = .ok next) :
    Abreast store history requests (welcomes.erase (session, participant)) session.domainId
      next := by
  have connected := Manager.connect_eq_ok done
  have fenced := Manager.connect_fenced done
  have unused := abreast.welcomes session participant heard rfl
  have newer : ∀ prior, manager.session = some prior →
      prior.connectionEpoch < session.connectionEpoch :=
    fun prior bound => Nat.lt_of_le_of_ne (fenced.newer prior bound) (unused.unused prior bound)
  rcases unused.current newer with ⟨accepted, retired⟩
  have shape := connected.shape
  have bound : next.session = some session := by rw [shape]
  have applied : next.applied = participant.acceptedSequence := by rw [shape]
  have later : next.nextSequence = participant.acceptedSequence + 1 := by rw [shape]
  have lookup : ∀ sequence row, next.outbox.get? sequence = some row →
      manager.outbox.get? sequence = some row := by
    intro sequence row found
    rw [shape] at found
    dsimp only at found
    rw [Table.get?_filter] at found
    exact (Option.filter_eq_some_iff.mp found).1
  have before := abreast.applied
  refine ⟨Manager.connect_numbers abreast.numbered done, by omega, by omega, ?_, ?_, ?_, ?_, ?_,
    ?_⟩
  · have floor := fenced.floor
    omega
  · intro other same
    cases bound.symm.trans same
    exact unused.issued
  · intro sequence row found within
    exact abreast.outbox sequence row (lookup sequence row found) within
  · intro sequence row through found asked
    have below := abreast.acknowledges sequence row through (lookup sequence row found) asked
    omega
  · intro request asked own
    have sent := abreast.requests request asked own
    rcases sent.session with ⟨prior, was, older⟩
    have strictly := newer prior was
    refine ⟨⟨session, bound, by omega⟩, ?_, ?_⟩
    · -- Requests of the sessions before cannot be accepted any more.
      intro other same equal
      cases bound.symm.trans same
      omega
    · intro through acknowledges
      have below := sent.acknowledges through acknowledges
      omega
  · intro other snapshot listed own
    have inList := List.mem_of_mem_erase listed
    have nodup : welcomes.Nodup := List.Nodup.of_map _ distinct
    have different : other.connectionEpoch ≠ session.connectionEpoch := by
      intro equal
      have same := List.inj_on_of_nodup_map distinct inList heard (by simp [own, equal])
      rw [same] at listed
      exact (List.Nodup.not_mem_erase nodup) listed
    have old := abreast.welcomes other snapshot inList own
    refine ⟨old.issued, ?_, ?_⟩
    · intro prior same
      cases bound.symm.trans same
      exact different.symm
    · intro older
      have above := older session bound
      exact old.current fun prior was => (newer prior was).trans above

/-- The next request of a manager is sent. -/
theorem Abreast.send (abreast : Abreast store history requests welcomes domain manager)
    (queued : request.session.domainId = domain → manager.pending = .ok (some request)) :
    Abreast store history (request :: requests) welcomes domain manager := by
  refine ⟨abreast.numbered, abreast.applied, abreast.known, abreast.floor, abreast.session,
    abreast.outbox, abreast.acknowledges, ?_, abreast.welcomes⟩
  intro other member own
  rcases List.mem_cons.mp member with rfl | earlier
  · rcases pending_eq_ok (queued own) with ⟨bound, row⟩
    refine ⟨⟨_, bound, Nat.le_refl _⟩, ?_, ?_⟩
    · intro session same _
      refine ⟨abreast.numbered.below _ _ row, ?_⟩
      intro found lookup
      cases row.symm.trans lookup
      exact ⟨rfl, rfl⟩
    · intro through asked
      exact abreast.acknowledges _ _ through row asked
  · exact abreast.requests other earlier own

/-- A handshake is completed. -/
theorem Abreast.welcome {before : MachineStore}
    (abreast : Abreast before history requests welcomes domain manager)
    (welcomed : Welcomed session participant before store) :
    Abreast store history requests ((session, participant) :: welcomes) domain manager := by
  have kept := welcomed.history
  have grown : Abreast store (history ++ []) requests welcomes domain manager :=
    abreast.keep (kept.marks domain).1 (kept.marks domain).2 (welcomed.epoch.2 domain)
  rw [List.append_nil] at grown
  refine ⟨grown.numbered, grown.applied, grown.known, grown.floor, grown.session,
    grown.outbox, grown.acknowledges, grown.requests, ?_⟩
  intro other snapshot listed own
  rcases List.mem_cons.mp listed with same | earlier
  · cases same
    subst own
    have newer := welcomed.newer
    refine ⟨?_, ?_, ?_⟩
    · exact Nat.le_of_eq welcomed.epoch.1.symm
    · intro prior bound
      have older := abreast.session prior bound
      omega
    · intro _
      rw [(kept.marks _).1, (kept.marks _).2]
      exact ⟨welcomed.accepted, welcomed.retired⟩
  · exact grown.welcomes other snapshot earlier own

end Managers

/-- An acknowledgement that a step enqueues covers only answers that its manager
had applied. -/
def System.AcknowledgesApplied (system next : System) : Prop :=
  ∀ domain sequence row throughSequence,
    (next.managers domain).outbox.get? sequence = some row →
    row.command = .acknowledge throughSequence →
      (∃ old, (system.managers domain).outbox.get? sequence = some old ∧
        old.command = row.command) ∨
      throughSequence ≤ (system.managers domain).applied

section Systems

variable {config : CoordinatorConfig} {storeUuid : ExecutionDomainId → Uuid}
  {system next : System} {history : List (Request × Outcome)}

theorem Chronicle.initial : Chronicle (MachineStore.initial config)
    (.initial config storeUuid) [] := by
  have started : CoordinatorRun config (fun _ => True) (fun _ => True) (.initial config) [] :=
    .start
  have recorded : Recorded (MachineStore.initial config) [] := started.recorded.2
  have none : ∀ domain, (MachineStore.initial config).accepted domain = 0 := by
    intro domain
    have listed := congrArg List.length (recorded.sequences domain)
    rw [List.length_range'] at listed
    exact listed.symm
  refine ⟨recorded, ?_, fun _ _ member => (nomatch member), List.nodup_nil⟩
  intro domain
  have numbered := Manager.Numbered.start (storeUuid domain)
  refine ⟨numbered, Nat.zero_le _, ?_, ?_, nofun, fun _ _ found => (nomatch found),
    fun _ _ _ found => (nomatch found), fun _ member => (nomatch member),
    fun _ _ member => (nomatch member)⟩
  · rw [none]
    exact numbered.next
  · have ordered := recorded.ordered domain
    rw [none] at ordered
    exact ordered.trans (Nat.zero_le _)

/-- A step of one manager. -/
private theorem Chronicle.withManager
    (chronicle : Chronicle system.coordinator.store system history)
    (others : ∀ welcome ∈ welcomes, welcome ∈ system.welcomes)
    (distinct : (welcomes.map fun welcome =>
      (welcome.1.domainId, welcome.1.connectionEpoch)).Nodup)
    (own : Abreast system.coordinator.store history system.requests welcomes domain manager) :
    Chronicle system.coordinator.store
      { system with managers := Function.update system.managers domain manager, welcomes }
      history := by
  refine ⟨chronicle.recorded, ?_, chronicle.replies, distinct⟩
  intro other
  dsimp only
  by_cases same : other = domain
  · subst same
    rw [Function.update_self]
    exact own
  · rw [Function.update_of_ne same]
    have before := chronicle.managers other
    exact { before with
      welcomes := fun session participant listed =>
        before.welcomes session participant (others _ listed) }

theorem Chronicle.managerStep (chronicle : Chronicle system.coordinator.store system history)
    (sound : System.Sound config system)
    (acknowledges : ∀ sequence row throughSequence, manager.outbox.get? sequence = some row →
      row.command = .acknowledge throughSequence →
        (∃ old, (system.managers domain).outbox.get? sequence = some old ∧
          old.command = row.command) ∨
        throughSequence ≤ (system.managers domain).applied)
    (one : Manager.Step config.encoding (fun request reply => (request, reply) ∈ system.replies)
      (system.managers domain) manager) :
    Abreast system.coordinator.store history system.requests system.welcomes domain manager := by
  have abreast := chronicle.managers domain
  rcases one.numbers abreast.numbered with ⟨numbered, queues | ⟨request, reply, heard, answered⟩⟩
  · apply abreast.queues numbered queues
    intro sequence row through found asked
    rw [queues.applied]
    rcases acknowledges sequence row through found asked with ⟨old, before, same⟩ | applied
    · exact abreast.acknowledges sequence old through before (same.trans asked)
    · exact applied
  · have own := (sound.isLocal domain).session _ answered.bound
    have fits := chronicle.replies request reply heard
    rw [own] at fits
    exact abreast.answered chronicle.recorded numbered fits answered

/-- The reply to a request is the outcome of its operation in the history. -/
theorem matches_of_answers (recorded : Recorded store history)
    (answers : Answers request store reply) :
    Matches history request.session.domainId request.requestSequence
      ⟨request.operationId, request.command, some reply.outcome⟩ := by
  rcases (recorded.retained _ _ _).mp answers.recorded with ⟨_, entry, member, number, same⟩
  simp only [operationRow, OperationRow.mk.injEq] at same
  refine ⟨entry, member, number, same.1, same.2.1, ?_⟩
  rintro _ ⟨⟩
  exact same.2.2

theorem SystemStep.chronicle (sound : System.Sound config system)
    (chronicle : Chronicle system.coordinator.store system history)
    (acknowledges : system.AcknowledgesApplied next) (step : SystemStep config system next) :
    ∃ commits, Chronicle next.coordinator.store next (history ++ commits) := by
  have answers := step.replies sound
  cases step with
  | coordinator one =>
    have effect := one.effect sound.pending
    have after := effect.1.chronicle sound.store.keyed chronicle effect.2.1
    exact ⟨_, after.recorded, after.managers, after.replies, after.distinct⟩
  | @reply request input _ reply delivered answered =>
    have effect := machineExchange_effect input sound.pending delivered
    have after := effect.run.chronicle sound.store.keyed chronicle effect.asked
    refine ⟨_, after.recorded, after.managers, ?_, after.distinct⟩
    intro other answer member
    rcases List.mem_cons.mp member with new | earlier
    · cases new
      exact matches_of_answers after.recorded
        (machineExchange_answers _ sound.pending delivered answered)
    · exact after.replies other answer earlier
  | @welcome input challenge _ participant answered =>
    rcases machineConnectFinish_welcome input sound.pending answered with
      ⟨middle, commits, run, asked, welcomed⟩
    have before := run.chronicle sound.store.keyed chronicle asked
    refine ⟨_, before.recorded.keep welcomed.history, ?_, before.replies, ?_⟩
    · exact fun domain => (before.managers domain).welcome welcomed
    · -- Handshakes that were completed before have smaller epochs.
      refine List.nodup_cons.mpr ⟨?_, before.distinct⟩
      rw [List.mem_map]
      rintro ⟨⟨other, snapshot⟩, listed, same⟩
      rw [Prod.mk.injEq] at same
      dsimp only at same
      have issued := ((before.managers _).welcomes other snapshot listed rfl).issued
      have newer := welcomed.newer
      rw [same.1, same.2] at issued
      omega
  | @connect session participant domain _ manager heard own done =>
    subst own
    refine ⟨[], ?_⟩
    rw [List.append_nil]
    refine chronicle.withManager (fun _ listed => List.mem_of_mem_erase listed) ?_
      ((chronicle.managers _).connect chronicle.distinct heard done)
    exact chronicle.distinct.sublist (List.erase_sublist.map _)
  | @manager manager _ domain one =>
    refine ⟨[], ?_⟩
    rw [List.append_nil]
    refine chronicle.withManager (fun _ listed => listed) chronicle.distinct
      (chronicle.managerStep sound ?_ one)
    intro sequence row through found asked
    exact acknowledges domain sequence row through (by simpa using found) asked
  | @send _ domain request queued =>
    refine ⟨[], ?_⟩
    rw [List.append_nil]
    refine ⟨chronicle.recorded, ?_, chronicle.replies, chronicle.distinct⟩
    intro other
    apply (chronicle.managers other).send
    rintro rfl
    have own := (sound.isLocal domain).session _ (pending_eq_ok queued).1
    rw [own]
    exact queued

/-- The states of a run whose managers acknowledge only what they applied. -/
def System.ReachedInOrder (config : CoordinatorConfig) (storeUuid : ExecutionDomainId → Uuid) :
    System → Prop :=
  Transition.Reachable (fun system => system = .initial config storeUuid)
    fun system next => SystemStep config system next ∧ system.AcknowledgesApplied next

/-- The joint invariant, with a chronicle. -/
def System.Ordered (config : CoordinatorConfig) (system : System) : Prop :=
  system.Sound config ∧ ∃ history, Chronicle system.coordinator.store system history

theorem System.ReachedInOrder.ordered (reached : system.ReachedInOrder config storeUuid) :
    system.Ordered config := by
  refine Transition.Reachable.invariant ?_ ?_ reached
  · rintro _ rfl
    exact ⟨.initial config storeUuid, [], Chronicle.initial⟩
  · rintro earlier later ⟨sound, history, chronicle⟩ ⟨step, acknowledges⟩
    rcases step.chronicle sound chronicle acknowledges with ⟨commits, after⟩
    exact ⟨(sound.step step).1, _, after⟩

/-! ## Results -/

/-- The request that a manager sends next is the first one after its applied
answers. -/
theorem pending_sequence (numbered : manager.Numbered)
    (queued : manager.pending = .ok (some request)) :
    request.requestSequence = manager.applied + 1 := by
  simp only [Manager.pending, ok_iff, Option.map_eq_some_iff] at queued
  rcases queued with ⟨session, bound, ⟨sequence, row⟩, first, rfl⟩
  rcases mem_oldest first with ⟨found, unanswered⟩
  have above := (numbered.answered sequence row found).mp unanswered
  have below := numbered.below sequence row found
  rcases numbered.full (manager.applied + 1) (by omega) (by omega) with ⟨least, foundLeast⟩
  have open_ := (numbered.answered _ least foundLeast).mpr (by omega)
  -- The outbox holds that operation, and the earliest unanswered one is not later.
  have member : (manager.applied + 1, least) ∈
      (manager.outbox.rows.filter fun row => row.2.outcome.isNone).insertionSort
        fun left right => left.1 ≤ right.1 := by
    rw [List.mem_insertionSort, List.mem_filter, Option.isNone_iff_eq_none]
    exact ⟨Table.mem_rows.mpr foundLeast, open_⟩
  have total : Std.Total fun left right : Nat × OutboxRow => left.1 ≤ right.1 :=
    ⟨fun left right => Nat.le_total left.1 right.1⟩
  have transitive : IsTrans (Nat × OutboxRow) fun left right => left.1 ≤ right.1 :=
    ⟨fun _ _ _ => Nat.le_trans⟩
  have sorted := List.pairwise_insertionSort
    (fun left right : Nat × OutboxRow => left.1 ≤ right.1)
    (manager.outbox.rows.filter fun row => row.2.outcome.isNone)
  rcases List.head?_eq_some_iff.mp first with ⟨rest, list⟩
  rw [list] at member sorted
  have smallest : sequence ≤ manager.applied + 1 := by
    rcases List.mem_cons.mp member with same | later
    · cases same
      exact Nat.le_refl _
    · exact List.rel_of_pairwise_cons sorted later
  dsimp only
  omega

/-- A request that its manager is about to send is in sequence. -/
theorem Abreast.not_outOfSequence {requests : List Request}
    (abreast : Abreast store history requests welcomes request.session.domainId manager)
    (recorded : Recorded store history) (queued : manager.pending = .ok (some request)) :
    ¬OutOfSequence store request := by
  rintro ⟨fresh, row, known, refused⟩
  have number := pending_sequence abreast.numbered queued
  have found := (pending_eq_ok queued).2
  have accepted : store.accepted request.session.domainId = row.acceptedSequence := by
    rw [MachineStore.accepted, known]
    rfl
  have retired : store.retiredFloor request.session.domainId = row.retiredSequenceFloor := by
    rw [MachineStore.retiredFloor, known]
    rfl
  have applied := abreast.applied
  have floor := abreast.floor
  by_cases committed : request.requestSequence ≤ store.accepted request.session.domainId
  · -- It was accepted before, and its operation is still retained.
    rcases abreast.outbox _ _ found committed with ⟨entry, member, same, _⟩
    have kept := (recorded.retained request.session.domainId request.requestSequence
      (operationRow entry)).mpr ⟨by omega, entry, member, same, rfl⟩
    exact (fresh_of_priorOperation fresh kept).1 rfl
  · have below := abreast.numbered.below _ _ found
    have bound := abreast.numbered.bound
    exact refused ⟨by omega, by omega, by omega⟩

/-- Answers that both sides retain are the same. -/
theorem Chronicle.same_outcome (chronicle : Chronicle system.coordinator.store system history)
    (found : (system.managers domain).outbox.get? sequence = some row)
    (answered : row.outcome = some outcome)
    (recorded : system.coordinator.store.operations.get? (domain, sequence) = some operation) :
    operation.response = outcome := by
  have abreast := chronicle.managers domain
  have within : sequence ≤ system.coordinator.store.accepted domain := by
    have applied := (abreast.numbered.answered sequence row found).not.mp (by simp [answered])
    have below := abreast.applied
    omega
  rcases abreast.outbox sequence row found within with ⟨entry, member, number, _, _, same⟩
  rcases (chronicle.recorded.retained domain sequence operation).mp recorded with
    ⟨_, other, listed, sameNumber, rfl⟩
  -- No number is committed twice.
  have nodup : ((operationsOf history domain).map fun entry => entry.1.requestSequence).Nodup := by
    rw [chronicle.recorded.sequences]
    exact List.nodup_range'
  have equal := List.inj_on_of_nodup_map nodup member listed (number.trans sameNumber.symm)
  subst equal
  exact same outcome answered

/-- The watermarks of a coordinator and its managers are consistent, and the next
request of a manager is never refused for its number. -/
theorem watermarks_stay_consistent (reached : system.ReachedInOrder config storeUuid)
    (domain : ExecutionDomainId) :
    (system.managers domain).retiredFloor ≤ (system.managers domain).applied ∧
    (system.managers domain).applied ≤ system.coordinator.store.accepted domain ∧
    system.coordinator.store.accepted domain < (system.managers domain).nextSequence ∧
    system.coordinator.store.retiredFloor domain ≤ (system.managers domain).applied ∧
    (∀ sequence row operation outcome,
      (system.managers domain).outbox.get? sequence = some row → row.outcome = some outcome →
      system.coordinator.store.operations.get? (domain, sequence) = some operation →
        operation.response = outcome) ∧
    ∀ input request error, (system.managers domain).pending = .ok (some request) →
      (machineExchange config input request system.coordinator).answer = .error error →
        error ≠ rejected "history_unknown" "operation is below the retired sequence floor" ∧
        error ≠ rejected "stale" "request sequence is not the next durable operation" := by
  rcases reached.ordered with ⟨sound, history, chronicle⟩
  have abreast := chronicle.managers domain
  refine ⟨abreast.numbered.floor, abreast.applied, abreast.known, abreast.floor,
    fun _ _ _ _ found answered recorded => chronicle.same_outcome found answered recorded, ?_⟩
  intro input request error queued failed
  -- The exchange first completes the pending commit, which keeps the chronicle.
  have effect := (reconcilePending_effect (decide (input.fault = .inRecovery)) sound.pending).1
  have settled := effect.run.chronicle sound.store.keyed chronicle effect.asked
  have own := (sound.isLocal domain).session _ (pending_eq_ok queued).1
  subst own
  have inSequence := (settled.managers _).not_outOfSequence settled.recorded queued
  have numbered : ¬Misnumbered error := fun misnumbered =>
    inSequence (machineExchange_fails error failed misnumbered)
  exact not_or.mp numbered

theorem System.managers_of_play (played : system.play config event = some next)
    (elsewhere : event.changes ≠ some domain) : next.managers domain = system.managers domain := by
  have other : ∀ {changed : ExecutionDomainId} {manager : Manager}, some changed ≠ some domain →
      Function.update system.managers changed manager domain = system.managers domain :=
    fun apart => Function.update_of_ne (fun same => apart (congrArg some same.symm)) _ _
  cases event with
  | connectBegin | connectFinish | send | exchange | offers => rw [managers_of_quiet rfl played]
  | connect changed position =>
    obtain ⟨welcome, _, rest⟩ := Option.bind_eq_some_iff.mp played
    obtain ⟨manager, _, _, rfl⟩ := connected_eq_some rest
    exact other elsewhere
  | manager changed move =>
    obtain ⟨manager, _, rfl⟩ := Option.map_eq_some_iff.mp played
    exact other elsewhere

/-- Whether the acknowledgements in an outbox were there before, or cover only
applied answers. -/
def System.acknowledgesAt (system next : System) (domain : ExecutionDomainId) : Bool :=
  (next.managers domain).outbox.rows.all fun row => match row.2.command with
    | .acknowledge throughSequence =>
      ((system.managers domain).outbox.get? row.1).any (fun old => old.command = row.2.command) ||
        throughSequence ≤ (system.managers domain).applied
    | _ => true

/-- Run a script whose managers acknowledge only what they applied. -/
def System.runInOrder (config : CoordinatorConfig) (script : List Event) (system : System) :
    Option System :=
  script.foldlM
    (fun system event => (system.play config event).filter fun next =>
      event.changes.all (system.acknowledgesAt next)) system

theorem System.acknowledges_of_play (played : system.play config event = some next)
    (checked : event.changes.all (system.acknowledgesAt next) = true) :
    system.AcknowledgesApplied next := by
  intro domain sequence row through found asked
  by_cases changed : event.changes = some domain
  · rw [changed, Option.all_some, acknowledgesAt, List.all_eq_true] at checked
    have one := checked _ (Table.mem_rows.mpr found)
    dsimp only at one
    rw [asked] at one
    simp only [Bool.or_eq_true, Option.any_eq_true, decide_eq_true_eq] at one
    rcases one with ⟨old, before, same⟩ | applied
    · exact .inl ⟨old, before, same.trans asked.symm⟩
    · exact .inr applied
  · rw [managers_of_play played changed] at found
    exact .inl ⟨row, found, rfl⟩

theorem System.reachedInOrder_of_run (reached : system.ReachedInOrder config storeUuid)
    (ran : system.runInOrder config script = some final) :
    final.ReachedInOrder config storeUuid := by
  refine reached.trans (Transition.steps_of_script ran ?_)
  intro state event next filtered
  rcases Option.filter_eq_some_iff.mp filtered with ⟨played, checked⟩
  exact ⟨step_of_play played, acknowledges_of_play played checked⟩

end Systems

/-- After its recovery the manager acknowledges its first answer, and queues a
candidate. -/
def demoAcknowledges : List Event :=
  [.manager 6 (.enqueue 33 (.acknowledge 1))] ++ roundTrip ++
    [.manager 6 (.enqueue 34 (.candidateUpsert demoCandidate))]

theorem demo_watermarks_consistent : ∃ system request,
    System.ReachedInOrder soloConfig (fun _ => 8) system ∧
      system.coordinator.store.retiredFloor 6 = 1 ∧ system.coordinator.store.accepted 6 = 4 ∧
      (system.managers 6).pending = .ok (some request) ∧
      system.coordinator.store.retiredFloor 6 ≤ (system.managers 6).applied ∧
      system.coordinator.store.accepted 6 < (system.managers 6).nextSequence ∧
      (machineExchange soloConfig soloInput request system.coordinator).answer ≠
        .error (rejected "stale" "request sequence is not the next durable operation") := by
  have ran : ((System.initial soloConfig fun _ => 8).runInOrder soloConfig
      (demoConnects ++ demoAcknowledges)).any (fun system =>
        system.coordinator.store.retiredFloor 6 = 1 && system.coordinator.store.accepted 6 = 4 &&
          (Except.toOption (system.managers 6).pending).any Option.isSome) = true := by
    decide +kernel
  rcases (Option.any_eq_true _ _).mp ran with ⟨system, computed, marks⟩
  simp only [test_iff] at marks
  rcases (Option.any_eq_true _ _).mp marks.2 with ⟨queued, found, present⟩
  rcases Option.isSome_iff_exists.mp present with ⟨request, rfl⟩
  have pending := toOption_eq_some.mp found
  have reached := System.reachedInOrder_of_run (.start rfl) computed
  rcases watermarks_stay_consistent reached 6 with ⟨_, _, known, floor, _, inSequence⟩
  refine ⟨system, request, reached, marks.1.1, marks.1.2, pending, floor, known, ?_⟩
  intro failed
  exact (inSequence soloInput request _ pending failed).2 rfl

end Stillyard
