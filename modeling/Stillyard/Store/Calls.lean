import Stillyard.Store.Commit
import Stillyard.Store.Connect
import Stillyard.Store.Pass

/-!
# Calls of a coordinator

A coordinator serves exchanges, connections and admission passes, and may be
interrupted inside any of them.  Every call takes the tables through a sequence
of transactions, `StoreRun`, and commits exactly the operations that this
sequence commits.  An intent that an interruption left in the journal is either
already in SQL or was computed from the tables as they still are.
-/

namespace Stillyard

open Relational Fallible

variable {config : CoordinatorConfig} {store next : MachineStore}
  {commits : List (Request × Outcome)} {coordinator : Coordinator} {intent : MachineCommitIntent}
  {journal : Journal} {request : Request} {prepared : Prepared} {outcome : Outcome}
  {topology : ResourceTopology} {allowed : Fault → Prop}

/-- One transaction on the coordinator's tables, with the operations it
commits. -/
inductive StoreStep (config : CoordinatorConfig) :
    MachineStore → List (Request × Outcome) → MachineStore → Prop where
  | commit {store next : MachineStore} {request : Request} {outcome : Outcome}
      (committed : Committed config request outcome store next)
      (identifies : Identifies store next) :
      StoreStep config store [(request, outcome)] next
  | challenge {store : MachineStore} : StoreStep config store [] { store with challenges }
  | session {store : MachineStore} (known : store.domains.get? session.domainId = some row)
      (newer : row.connectionEpoch < session.connectionEpoch)
      (manager : row.managerStoreUuid = session.managerStoreUuid) :
      StoreStep config store [] (installSession store session)
  | pass {store : MachineStore} {topology : ResourceTopology} {result : OfferResult}
      (made : offerTransaction config topology input view store = .ok result) :
      StoreStep config store [] result.store
  | native {store next : MachineStore} (same : Agrees store next)
      (identities : next.ticketIdentities = store.ticketIdentities) :
      StoreStep config store [] next

/-- A sequence of transactions. -/
inductive StoreRun (config : CoordinatorConfig) :
    MachineStore → List (Request × Outcome) → MachineStore → Prop where
  | refl (store : MachineStore) : StoreRun config store [] store
  | step {store middle next : MachineStore}
      (one : StoreStep config store first middle) (others : StoreRun config middle rest next) :
      StoreRun config store (first ++ rest) next

theorem StoreRun.single (one : StoreStep config store commits next) :
    StoreRun config store commits next := by
  have run := StoreRun.step one (.refl next)
  rwa [List.append_nil] at run

theorem StoreRun.trans (earlier : StoreRun config store first middle)
    (later : StoreRun config middle rest next) : StoreRun config store (first ++ rest) next := by
  induction earlier with
  | refl => exact later
  | step one _ ih =>
    rw [List.append_assoc]
    exact .step one (ih later)

/-- The intent in the journal was asked for by a sent request.  It is in SQL, or
it was computed from the tables as they are. -/
structure PendingSound (config : CoordinatorConfig) (sent : Request → Prop)
    (coordinator : Coordinator) : Prop where
  asked : ∀ intent, coordinator.journal.pending = some intent → sent intent.request
  computed : coordinator.journal.pendingReset = false → ∀ intent,
    coordinator.journal.pending = some intent →
      (∃ operation, coordinator.store.operations.get?
        (intent.request.session.domainId, intent.request.requestSequence) = some operation) ∨
        Unwritten config coordinator.store intent

/-- No intent waits to be completed. -/
def Settled (journal : Journal) : Prop := journal.pending = none ∨ journal.pendingReset = true

/-- What a call does: its transactions, the requests it committed, and the
intent it may leave. -/
structure CallEffect {α : Type} (config : CoordinatorConfig) (sent : Request → Prop)
    (coordinator : Coordinator) (result : CallResult α) : Prop where
  run : StoreRun config coordinator.store result.commits result.coordinator.store
  asked : ∀ entry ∈ result.commits, sent entry.1
  sound : PendingSound config sent result.coordinator

variable {config : CoordinatorConfig} {sent : Request → Prop}

theorem PendingSound.of_settled
    (asked : ∀ intent, coordinator.journal.pending = some intent → sent intent.request)
    (settled : Settled coordinator.journal) : PendingSound config sent coordinator := by
  refine ⟨asked, ?_⟩
  intro unreset intent pending
  rcases settled with none | reset
  · rw [none] at pending
    cases pending
  · rw [reset] at unreset
    cases unreset

theorem PendingSound.mono (sound : PendingSound config sent coordinator)
    (implies : ∀ request, sent request → wider request) : PendingSound config wider coordinator :=
  ⟨fun intent pending => implies _ (sound.asked intent pending), sound.computed⟩

theorem PendingSound.of_none (none : coordinator.journal.pending = none) :
    PendingSound config sent coordinator := by
  refine .of_settled ?_ (.inl none)
  intro intent pending
  rw [none] at pending
  cases pending

/-- A call that leaves the tables and the pending intent alone. -/
theorem CallEffect.without {next : Coordinator} (sound : PendingSound config sent next)
    (same : next.store = coordinator.store) :
    CallEffect config sent coordinator (.without next answer) := by
  refine ⟨?_, fun _ member => (nomatch member), sound⟩
  rw [CallResult.without, same]
  exact .refl _

theorem CallEffect.andThen (earlier : CallEffect config sent coordinator first)
    (later : ∀ done, first.answer = .ok done →
      CallEffect config sent first.coordinator (rest first.coordinator)) :
    CallEffect config sent coordinator (first.andThen rest) := by
  unfold CallResult.andThen
  split
  · exact ⟨earlier.run, earlier.asked, earlier.sound⟩
  · next done answered =>
    have second := later done answered
    refine ⟨earlier.run.trans second.run, ?_, second.sound⟩
    intro entry member
    rcases List.mem_append.mp member with before | after
    · exact earlier.asked entry before
    · exact second.asked entry after

theorem Unwritten.agrees (unwritten : Unwritten config store intent) (same : Agrees store next) :
    Unwritten config next intent := by
  rcases unwritten with ⟨row, applied, inSequence, attempted, published⟩
  refine ⟨row, applied, ⟨?_, inSequence.session, inSequence.sequence, inSequence.floor, ?_⟩,
    attempted.agrees same, published.agrees same⟩
  · rw [← same.domains]
    exact inSequence.known
  · rw [← inSequence.fresh, priorOperation, priorOperation, same.operations]

theorem pending_finishMachineCommit
    (succeeded : finishMachineCommit journal operationId = .ok finished) :
    finished.pending = none := by
  unfold finishMachineCommit at succeeded
  split at succeeded
  · next none =>
    cases succeeded
    exact none
  · simp only [ok_iff] at succeeded
    rcases succeeded with ⟨_, _, _, _, _, _, rfl⟩
    rfl

theorem get?_recordOperation (store : MachineStore) (request : Request) (outcome : Outcome) :
    (recordOperation store request outcome).operations.get?
        (request.session.domainId, request.requestSequence) =
      some ⟨request.operationId, request.command, outcome⟩ := by
  rw [recordOperation, Table.get?_set, if_pos rfl]

/-- An intent that SQL has changes nothing; any other commits its operation. -/
private theorem restoreIntent_effect (sound : PendingSound config sent coordinator)
    (unreset : coordinator.journal.pendingReset = false)
    (pending : coordinator.journal.pending = some intent)
    (restored : restoreIntent coordinator.store intent = .ok (some next)) :
    StoreRun config coordinator.store (restoredOperation coordinator.store intent) next ∧
      (∀ entry ∈ restoredOperation coordinator.store intent, sent entry.1) ∧
      ∃ operation, next.operations.get?
        (intent.request.session.domainId, intent.request.requestSequence) = some operation := by
  rcases (restoreIntent_eq_ok.mp restored).2.2 with ⟨operation, recorded, _, rfl⟩ | ⟨recorded, _⟩
  · simp only [restoredOperation, recorded]
    exact ⟨.refl _, fun _ member => (nomatch member), operation, rfl⟩
  · have unwritten : Unwritten config coordinator.store intent := by
      rcases sound.computed unreset intent pending with ⟨operation, present⟩ | unwritten
      · rw [recorded] at present
        cases present
      · exact unwritten
    have committed := committed_of_restoreIntent unwritten recorded restored
    simp only [restoredOperation, recorded, List.mem_singleton]
    refine ⟨.single (.commit committed (restoreIntent_identifies restored)), ?_, ?_⟩
    · intro entry same
      rw [same]
      exact sound.asked intent pending
    · rcases committed with ⟨_, _, _, _, agrees⟩
      rw [agrees.operations]
      exact ⟨_, get?_recordOperation _ _ _⟩

/-- What completing the pending intent does. -/
theorem reconcilePending_effect (interrupted : Bool)
    (sound : PendingSound config sent coordinator) :
    CallEffect config sent coordinator (reconcilePending interrupted coordinator) ∧
      ∀ done, (reconcilePending interrupted coordinator).answer = .ok done →
        Settled (reconcilePending interrupted coordinator).coordinator.journal := by
  unfold reconcilePending
  split
  · next none => exact ⟨.without sound rfl, fun _ _ => .inl none⟩
  · next intent pending =>
    split
    · next reset => exact ⟨.without sound rfl, fun _ _ => .inr reset⟩
    · next unreset =>
      split
      · exact ⟨.without sound rfl, fun _ failed => nomatch failed⟩
      · exact ⟨.without (.of_settled sound.asked (.inr rfl)) rfl, fun _ _ => .inr rfl⟩
      · next store restored =>
        rcases restoreIntent_effect sound (Bool.eq_false_iff.mpr unreset) pending
          restored with ⟨run, asked, recorded⟩
        have stillPending : PendingSound config sent ⟨store, coordinator.journal⟩ := by
          refine ⟨sound.asked, ?_⟩
          intro _ other same
          cases pending.symm.trans same
          exact .inl recorded
        split
        · exact ⟨⟨run, asked, stillPending⟩, fun _ failed => nomatch failed⟩
        · split
          · exact ⟨⟨run, asked, stillPending⟩, fun _ failed => nomatch failed⟩
          · next journal finished =>
            have cleared := pending_finishMachineCommit finished
            exact ⟨⟨run, asked, .of_none cleared⟩, fun _ _ => .inl cleared⟩

/-! ## Exchanges -/

/-- What publishing an intent leaves: the journal as it was if it already waits
for this intent. -/
theorem proposedMachineCommit_cases
    (succeeded : proposedMachineCommit journal intent = .ok published) :
    (∃ anchor, journal.anchors.get? intent.request.session.domainId = some anchor ∧
      anchor.session = some intent.request.session) ∧
      (journal.pending = some intent ∧ published = journal ∨
        journal.pending = none ∧ ∃ permissions,
          intent.grants.foldlM (proposePermission journal.retiredAllocations)
            journal.permissions = .ok permissions ∧
          published = { journal with permissions, pending := some intent }) := by
  simp only [proposedMachineCommit, ok_iff, decide_eq_true_eq] at succeeded
  rcases succeeded with ⟨anchor, anchored, _, session, succeeded⟩
  refine ⟨⟨anchor, anchored, session⟩, ?_⟩
  split at succeeded
  · next pending found =>
    simp only [ok_iff, decide_eq_true_eq] at succeeded
    rcases succeeded with ⟨_, rfl, same⟩
    exact .inl ⟨found, same.symm⟩
  · next none =>
    simp only [ok_iff] at succeeded
    rcases succeeded with ⟨permissions, folded, same⟩
    exact .inr ⟨none, permissions, folded, same.symm⟩

theorem proposedMachineCommit_eq_ok
    (succeeded : proposedMachineCommit journal intent = .ok published) :
    published.pending = some intent ∧
      ∃ anchor, published.anchors.get? intent.request.session.domainId = some anchor := by
  rcases proposedMachineCommit_cases succeeded with
    ⟨⟨anchor, anchored, _⟩, ⟨pending, rfl⟩ | ⟨_, _, _, rfl⟩⟩
  · exact ⟨pending, anchor, anchored⟩
  · exact ⟨rfl, anchor, anchored⟩

/-- The reply to a request is the recorded outcome of its operation. -/
structure Answers (request : Request) (store : MachineStore) (reply : Reply) : Prop where
  session : reply.session = request.session
  requestSequence : reply.requestSequence = request.requestSequence
  operationId : reply.operationId = request.operationId
  recorded : store.operations.get? (request.session.domainId, request.requestSequence) =
    some ⟨request.operationId, request.command, reply.outcome⟩

/-- What a prepared exchange is about to commit. -/
private structure Ready (config : CoordinatorConfig) (request : Request) (store : MachineStore)
    (prepared : Prepared) : Prop where
  run : StoreRun config store (if prepared.isNew then [(request, prepared.outcome)] else [])
    prepared.next
  recorded : prepared.next.operations.get?
    (request.session.domainId, request.requestSequence) =
      some ⟨request.operationId, request.command, prepared.outcome⟩
  intent : journaled prepared.grants prepared.outcome = true →
    (∃ operation, store.operations.get? (request.session.domainId, request.requestSequence) =
      some operation) ∨ Unwritten config store ⟨request, prepared.outcome, prepared.grants⟩

private theorem ready_of_exchangeTransaction
    (admitted : admitRequest config coordinator request = .ok row)
    (succeeded : exchangeTransaction config input request row coordinator = .ok prepared) :
    Ready config request coordinator.store prepared := by
  rcases exchangeTransaction_eq_ok admitted succeeded with replayed | ⟨applied, performed⟩
  · refine ⟨?_, ?_, fun _ => .inl ⟨_, replayed.known⟩⟩
    · rw [replayed.isNew, replayed.same]
      exact .refl _
    · rw [replayed.same]
      exact replayed.known
  · refine ⟨?_, ?_, fun journaled => .inr ⟨row, applied, performed.inSequence,
      performed.attempted, performed.published journaled⟩⟩
    · rw [performed.isNew]
      refine .single (.commit performed.committed ?_)
      rw [performed.next]
      exact ⟨performed.identifies.grows, performed.identifies.recorded⟩
    · rw [performed.next]
      exact get?_recordOperation _ _ _

private theorem commitExchange_effect (input : ExchangeInput)
    (settled : Settled coordinator.journal) (sound : PendingSound config sent coordinator)
    (asked : sent request) (ready : Ready config request coordinator.store prepared) :
    CallEffect config sent coordinator (commitExchange input request coordinator prepared) ∧
      ∀ reply, (commitExchange input request coordinator prepared).answer = .ok reply →
        Answers request (commitExchange input request coordinator prepared).coordinator.store
          reply := by
  have askedCommits : ∀ entry ∈ (if prepared.isNew then [(request, prepared.outcome)] else []),
      sent entry.1 := by
    intro entry member
    split at member
    · rw [List.mem_singleton.mp member]
      exact asked
    · cases member
  have answers : Answers request prepared.next ⟨request.session, request.requestSequence,
      request.operationId, prepared.next.revision, prepared.outcome⟩ :=
    ⟨rfl, rfl, rfl, ready.recorded⟩
  unfold commitExchange
  dsimp only
  split
  · exact ⟨.without sound rfl, fun _ failed => nomatch failed⟩
  · split
    · next journaled =>
      split
      · exact ⟨.without sound rfl, fun _ failed => nomatch failed⟩
      · next published proposed =>
        have pending := (proposedMachineCommit_eq_ok proposed).1
        have askedPending : ∀ intent, published.pending = some intent →
            sent intent.request := by
          intro intent same
          cases pending.symm.trans same
          exact asked
        have written : PendingSound config sent ⟨prepared.next, published⟩ := by
          refine ⟨askedPending, ?_⟩
          intro _ intent same
          cases pending.symm.trans same
          exact .inl ⟨_, ready.recorded⟩
        split
        · refine ⟨.without ⟨askedPending, ?_⟩ rfl, fun _ failed => nomatch failed⟩
          intro _ intent same
          cases pending.symm.trans same
          exact ready.intent journaled
        · split
          · exact ⟨⟨ready.run, askedCommits, written⟩, fun _ failed => nomatch failed⟩
          · split
            · exact ⟨⟨ready.run, askedCommits, written⟩, fun _ failed => nomatch failed⟩
            · next finished done =>
              have cleared := pending_finishMachineCommit done
              split
              · exact ⟨⟨ready.run, askedCommits, .of_none cleared⟩,
                  fun _ failed => nomatch failed⟩
              · refine ⟨⟨ready.run, askedCommits, .of_none cleared⟩, ?_⟩
                intro reply answered
                cases answered
                exact answers
    · split
      · refine ⟨⟨ready.run, askedCommits, .of_settled sound.asked settled⟩, ?_⟩
        intro reply answered
        cases answered
        exact answers
      · exact ⟨⟨ready.run, askedCommits, .of_settled sound.asked settled⟩,
          fun _ failed => nomatch failed⟩

theorem compactMachineRetirements_frame (coordinator : Coordinator) :
    (compactMachineRetirements coordinator).store = coordinator.store ∧
      (compactMachineRetirements coordinator).journal.pending = coordinator.journal.pending ∧
      (compactMachineRetirements coordinator).journal.anchors = coordinator.journal.anchors ∧
      (compactMachineRetirements coordinator).journal.pendingReset =
        coordinator.journal.pendingReset := by
  unfold compactMachineRetirements
  split <;> exact ⟨rfl, rfl, rfl, rfl⟩

private theorem exchangeRequest_effect (input : ExchangeInput)
    (settled : Settled coordinator.journal) (sound : PendingSound config sent coordinator)
    (asked : sent request) :
    CallEffect config sent coordinator (exchangeRequest config input request coordinator) ∧
      ∀ reply, (exchangeRequest config input request coordinator).answer = .ok reply →
        Answers request (exchangeRequest config input request coordinator).coordinator.store
          reply := by
  rcases compactMachineRetirements_frame coordinator with ⟨sameStore, samePending, _, sameReset⟩
  have compactedSettled : Settled (compactMachineRetirements coordinator).journal := by
    rw [Settled, samePending, sameReset]
    exact settled
  have compactedSound : PendingSound config sent (compactMachineRetirements coordinator) := by
    refine .of_settled ?_ compactedSettled
    rw [samePending]
    exact sound.asked
  unfold exchangeRequest
  dsimp only
  split
  · exact ⟨.without compactedSound sameStore, fun _ failed => nomatch failed⟩
  · next row admitted =>
    split
    · exact ⟨.without compactedSound sameStore, fun _ failed => nomatch failed⟩
    · next prepared succeeded =>
      rcases commitExchange_effect input compactedSettled compactedSound asked
        (ready_of_exchangeTransaction admitted succeeded) with ⟨effect, answers⟩
      refine ⟨⟨?_, effect.asked, effect.sound⟩, answers⟩
      rw [← sameStore]
      exact effect.run

/-- What an exchange does. -/
theorem machineExchange_effect (input : ExchangeInput)
    (sound : PendingSound config sent coordinator) (asked : sent request) :
    CallEffect config sent coordinator (machineExchange config input request coordinator) := by
  have recovery := reconcilePending_effect (decide (input.fault = .inRecovery)) sound
  refine recovery.1.andThen ?_
  intro done answered
  exact (exchangeRequest_effect input (recovery.2 done answered) recovery.1.sound asked).1

/-- What an exchange answers. -/
theorem machineExchange_answers (input : ExchangeInput)
    (sound : PendingSound config sent coordinator) (asked : sent request)
    (answered : (machineExchange config input request coordinator).answer = .ok reply) :
    Answers request (machineExchange config input request coordinator).coordinator.store
      reply := by
  have recovery := reconcilePending_effect (decide (input.fault = .inRecovery)) sound
  unfold machineExchange CallResult.andThen at answered ⊢
  split at answered
  · cases answered
  · next done succeeded =>
    exact (exchangeRequest_effect input (recovery.2 done succeeded) recovery.1.sound asked).2
      reply answered

theorem acceptMachineSession_eq_ok
    (succeeded : acceptMachineSession config journal session = .ok accepted) :
    accepted.pending = journal.pending ∧ accepted.pendingReset = journal.pendingReset := by
  simp only [acceptMachineSession, bind_eq_ok] at succeeded
  rcases succeeded with ⟨_, _, succeeded⟩
  split at succeeded
  · rw [pure_eq_ok] at succeeded
    rw [succeeded]
    exact ⟨rfl, rfl⟩
  · simp only [ok_iff] at succeeded
    rcases succeeded with ⟨_, _, _, _, rfl⟩
    exact ⟨rfl, rfl⟩

/-- A journal that changed only its anchors. -/
private theorem PendingSound.anchored (sound : PendingSound config sent coordinator)
    (settled : Settled coordinator.journal) (same : journal.pending = coordinator.journal.pending ∧
      journal.pendingReset = coordinator.journal.pendingReset) :
    PendingSound config sent ⟨store, journal⟩ := by
  refine .of_settled ?_ ?_
  · dsimp only
    rw [same.1]
    exact sound.asked
  · rw [Settled]
    dsimp only
    rw [same.1, same.2]
    exact settled

/-- What `machine_connect_begin` leaves: nothing new, or a reserved epoch and
perhaps its challenge. -/
theorem connectBegin_cases (config : CoordinatorConfig) (input : ConnectInput)
    (hello : ConnectHello) (coordinator : Coordinator) :
    (∃ error, connectBegin config input hello coordinator =
      .without coordinator (.error error)) ∨
    ∃ domain participant anchor challenges answer,
      coordinator.store.domains.get? domain = some participant ∧
      coordinator.journal.anchors.get? domain = some anchor ∧
      (challenges = coordinator.store.challenges ∨ ∃ challenge deadline,
        challenges = coordinator.store.challenges.set domain (challenge, deadline) ∧
        challenge.session.connectionEpoch =
          max anchor.nextConnectionEpoch participant.connectionEpoch + 1) ∧
      connectBegin config input hello coordinator = .without ⟨{ coordinator.store with challenges },
        { coordinator.journal with anchors := coordinator.journal.anchors.set domain { anchor with
          nextConnectionEpoch :=
            max anchor.nextConnectionEpoch participant.connectionEpoch + 1 } }⟩ answer := by
  unfold connectBegin
  split
  · next error _ => exact .inl ⟨error, rfl⟩
  · next domain participant admitted =>
    split
    · next error _ => exact .inl ⟨error, rfl⟩
    · next journal epoch reserved =>
      simp only [admitHello, ok_iff, Prod.mk.injEq] at admitted
      obtain ⟨_, _, _, _, _, known, _, _, rfl, rfl⟩ := admitted
      simp only [reserveMachineConnection, ok_iff, Prod.mk.injEq] at reserved
      obtain ⟨anchor, found, _, _, rfl, rfl⟩ := reserved
      dsimp only
      split
      · exact .inl ⟨_, rfl⟩
      · split
        · exact .inr ⟨_, _, anchor, _, _, known, found, .inl rfl, rfl⟩
        · exact .inr ⟨_, _, anchor, _, _, known, found, .inr ⟨_, _, rfl, rfl⟩, rfl⟩

/-- What `machine_connect_finish` leaves: nothing new, the accepted session in
the journal, or that session installed. -/
theorem connectFinish_cases (config : CoordinatorConfig) (input : ConnectInput)
    (challenge : ConnectChallenge) (coordinator : Coordinator) :
    (∃ error, connectFinish config input challenge coordinator =
      .without coordinator (.error error)) ∨
    ∃ deadline journal,
      coordinator.store.challenges.get? challenge.session.domainId = some (challenge, deadline) ∧
      acceptMachineSession config coordinator.journal challenge.session = .ok journal ∧
      ((∃ error, connectFinish config input challenge coordinator =
          .without ⟨coordinator.store, journal⟩ (.error error)) ∨
        ∃ row, coordinator.store.domains.get? challenge.session.domainId = some row ∧
          row.connectionEpoch < challenge.session.connectionEpoch ∧
          row.managerStoreUuid = challenge.session.managerStoreUuid ∧
          connectFinish config input challenge coordinator =
            .without ⟨installSession coordinator.store challenge.session, journal⟩
              (machineParticipant (installSession coordinator.store challenge.session)
                challenge.session.domainId)) := by
  unfold connectFinish
  split
  · next error _ => exact .inl ⟨error, rfl⟩
  · next admitted =>
    simp only [admitChallenge, ok_iff, test_iff] at admitted
    obtain ⟨_, _, pending, stored, rfl, _⟩ := admitted
    split
    · next error _ => exact .inl ⟨error, rfl⟩
    · next journal accepted =>
      dsimp only
      split
      · exact .inl ⟨_, rfl⟩
      · refine .inr ⟨pending.2, journal, stored, accepted, ?_⟩
        split
        · exact .inl ⟨_, rfl⟩
        · split
          · next current =>
            rw [Option.any_eq_true] at current
            obtain ⟨row, known, fits⟩ := current
            simp only [test_iff] at fits
            exact .inr ⟨row, known, fits.1, fits.2, rfl⟩
          · exact .inl ⟨_, rfl⟩

theorem pending_connectBegin (config : CoordinatorConfig) (input : ConnectInput)
    (hello : ConnectHello) (coordinator : Coordinator) :
    (connectBegin config input hello coordinator).coordinator.journal.pending =
      coordinator.journal.pending := by
  rcases connectBegin_cases config input hello coordinator with
    ⟨_, same⟩ | ⟨_, _, _, _, _, _, _, _, same⟩ <;> rw [same] <;> rfl

theorem pending_connectFinish (config : CoordinatorConfig) (input : ConnectInput)
    (challenge : ConnectChallenge) (coordinator : Coordinator) :
    (connectFinish config input challenge coordinator).coordinator.journal.pending =
      coordinator.journal.pending := by
  rcases connectFinish_cases config input challenge coordinator with
    ⟨_, same⟩ | ⟨_, _, _, accepted, ⟨_, same⟩ | ⟨_, _, _, _, same⟩⟩
  · rw [same]
    rfl
  · rw [same]
    exact (acceptMachineSession_eq_ok accepted).1
  · rw [same]
    exact (acceptMachineSession_eq_ok accepted).1

theorem machineConnectBegin_effect (input : ConnectInput) (hello : ConnectHello)
    (sound : PendingSound config sent coordinator) :
    CallEffect config sent coordinator (machineConnectBegin config input hello coordinator) := by
  have recovery := reconcilePending_effect (decide (input.fault = .inRecovery)) sound
  refine recovery.1.andThen ?_
  intro done answered
  have settled := recovery.2 done answered
  rcases connectBegin_cases config input hello (reconcilePending _ coordinator).coordinator with
    ⟨_, same⟩ | ⟨_, _, _, _, _, _, _, rfl | ⟨_, _, rfl, _⟩, same⟩
  · rw [same]
    exact .without recovery.1.sound rfl
  · rw [same]
    exact .without (recovery.1.sound.anchored settled ⟨rfl, rfl⟩) rfl
  · rw [same]
    exact ⟨.single .challenge, fun _ member => (nomatch member),
      recovery.1.sound.anchored settled ⟨rfl, rfl⟩⟩

theorem machineConnectFinish_effect (input : ConnectInput) (challenge : ConnectChallenge)
    (sound : PendingSound config sent coordinator) :
    CallEffect config sent coordinator
      (machineConnectFinish config input challenge coordinator) := by
  have recovery := reconcilePending_effect (decide (input.fault = .inRecovery)) sound
  refine recovery.1.andThen ?_
  intro done answered
  have settled := recovery.2 done answered
  rcases connectFinish_cases config input challenge
    (reconcilePending _ coordinator).coordinator with
    ⟨_, same⟩ | ⟨_, journal, _, accepted, rest⟩
  · rw [same]
    exact .without recovery.1.sound rfl
  · have anchored : ∀ {store}, PendingSound config sent ⟨store, journal⟩ :=
      recovery.1.sound.anchored settled (acceptMachineSession_eq_ok accepted)
    rcases rest with ⟨_, same⟩ | ⟨row, known, newer, sameStore, same⟩
    · rw [same]
      exact .without anchored rfl
    · rw [same]
      exact ⟨.single (.session known newer sameStore),
        fun _ member => (nomatch member), anchored⟩

/-- Grants and candidates are stored under their own keys. -/
structure Keyed (store : MachineStore) : Prop where
  grants : GrantsKeyed store.grants
  candidates : CandidatesKeyed store.candidates

theorem Keyed.agrees (keyed : Keyed store) (same : Agrees store next) : Keyed next where
  grants key row found := keyed.grants key row ((same.grants key).trans found)
  candidates key row found := keyed.candidates key row ((same.candidates key).trans found)

private theorem CandidatesKeyed.map {before after : Table AllocationKey CandidateRow}
    (keyed : CandidatesKeyed before)
    (mapped : ∀ key new, after.get? key = some new → ∃ old, before.get? key = some old ∧
      new.candidate.key = old.candidate.key ∧ new.domainId = old.domainId) :
    CandidatesKeyed after := by
  intro key new found
  rcases mapped key new found with ⟨old, foundOld, sameKey, sameDomain⟩
  rw [sameKey, sameDomain]
  exact keyed key old foundOld

private theorem Applied.candidatesKeyed (keyed : CandidatesKeyed store.candidates)
    (applied : Applied config request recovering authorityClosed now store next outcome) :
    CandidatesKeyed next.candidates := by
  cases applied with
  | acknowledge | wait | start | armAgain | arm | doubt | inspectPage | inspect | reconcileBegin
  | reconcilePage => exact keyed
  | release =>
    refine keyed.map ?_
    intro key new found
    rcases Table.get?_update_eq_some.mp found with ⟨_, old, foundOld, rfl⟩ | ⟨_, found⟩
    · exact ⟨old, foundOld, rfl, rfl⟩
    · exact ⟨new, found, rfl, rfl⟩
  | upsert asked queue upserted =>
    intro key new found
    obtain ⟨rfl, rfl⟩ | ⟨_, found⟩ := Table.get?_set_eq_some.mp found
    · refine ⟨by rw [upserted.payload], ?_⟩
      have prior := upserted.prior
      split at prior
      · next old foundOld =>
        rw [prior.2.1]
        exact (keyed _ old foundOld).2
      · exact prior.1
    · exact keyed key new found
  | withdraw asked owns stored newer | withdrawOffer asked owns stored newer =>
    refine keyed.map ?_
    intro key new found
    obtain ⟨rfl, rfl⟩ | ⟨_, found⟩ := Table.get?_set_eq_some.mp found
    · exact ⟨_, stored, rfl, rfl⟩
    · exact ⟨new, found, rfl, rfl⟩
  | reconcileCommit asked begun complete distinct covers folded =>
    refine keyed.map ?_
    intro key new found
    have candidates := (reconcileRecords_lookup folded).2.2 key
    dsimp only at found
    rw [candidates] at found
    split at found
    · rcases Option.map_eq_some_iff.mp found with ⟨old, foundOld, rfl⟩
      exact ⟨old, foundOld, rfl, rfl⟩
    · exact ⟨new, found, rfl, rfl⟩

theorem Committed.keyed (keyed : Keyed store)
    (committed : Committed config request outcome store next) : Keyed next where
  grants := keyed.grants.evolve (committed.evolves keyed.grants)
  candidates := by
    rcases committed with ⟨row, applied, _, attempted, agrees⟩
    have appliedKeyed : CandidatesKeyed applied.candidates := by
      cases attempted with
      | refused base => exact (keyed.agrees base.symm).candidates
      | applied base effect => exact effect.candidatesKeyed (keyed.agrees base.symm).candidates
    intro key new found
    exact appliedKeyed key new ((agrees.candidates key).symm.trans found)

theorem GrantsPass.keyed (keyed : GrantsKeyed before)
    (pass : GrantsPass config topology domains before after) : GrantsKeyed after := by
  cases pass with
  | expire found offered =>
    intro key new foundNew
    rcases Table.get?_update_eq_some.mp foundNew with ⟨rfl, _, _, rfl⟩ | ⟨_, foundNew⟩
    · rfl
    · exact keyed key new foundNew
  | offer idle reconciled computed =>
    intro key new foundNew
    obtain ⟨rfl, rfl⟩ | ⟨_, foundNew⟩ := Table.get?_set_eq_some.mp foundNew
    · rfl
    · exact keyed key new foundNew

theorem GrantsKeyed.passes (keyed : GrantsKeyed before)
    (passes : Relation.ReflTransGen (GrantsPass config topology domains) before after) :
    GrantsKeyed after := by
  induction passes with
  | refl => exact keyed
  | tail _ last ih => exact last.keyed ih

theorem StoreStep.keyed (keyed : Keyed store) (step : StoreStep config store commits next) :
    Keyed next := by
  cases step with
  | commit committed => exact committed.keyed keyed
  | challenge => exact ⟨keyed.grants, keyed.candidates⟩
  | session =>
    refine ⟨keyed.grants, keyed.candidates.map ?_⟩
    intro key new found
    rw [installSession, Table.get?_modify] at found
    rcases Option.map_eq_some_iff.mp found with ⟨old, foundOld, changed⟩
    refine ⟨old, foundOld, ?_⟩
    rw [← changed]
    split <;> exact ⟨rfl, rfl⟩
  | pass made =>
    rcases offerTransaction_eq_ok keyed.grants keyed.candidates made with ⟨frame, moves⟩
    exact ⟨keyed.grants.passes moves, keyed.candidates.evolve frame.candidates⟩
  | native same => exact keyed.agrees same

theorem StoreRun.keyed (keyed : Keyed store) (run : StoreRun config store commits next) :
    Keyed next := by
  induction run with
  | refl => exact keyed
  | step one _ ih => exact ih (one.keyed keyed)

theorem Keyed.initial (config : CoordinatorConfig) : Keyed (MachineStore.initial config) :=
  ⟨fun _ _ found => (nomatch found), fun _ _ found => (nomatch found)⟩

/-! ## Whole runs -/

section

variable (config : CoordinatorConfig) (allowed : Fault → Prop) (sent : Request → Prop)

/-- One step of a coordinator: a call, reopening after a stop, an admission pass
while the authority is open, or a change of native data.  `sent` are the requests
that can be delivered, `allowed` the interruptions that can strike inside a
call. -/
inductive CoordinatorStep : Coordinator → List (Request × Outcome) → Coordinator → Prop where
  | exchange {coordinator : Coordinator} {request : Request}
      (fault : allowed input.fault) (delivered : sent request) :
      CoordinatorStep coordinator (machineExchange config input request coordinator).commits
        (machineExchange config input request coordinator).coordinator
  | connectBegin {coordinator : Coordinator} (fault : allowed input.fault) :
      CoordinatorStep coordinator (machineConnectBegin config input hello coordinator).commits
        (machineConnectBegin config input hello coordinator).coordinator
  | connectFinish {coordinator : Coordinator} (fault : allowed input.fault) :
      CoordinatorStep coordinator (machineConnectFinish config input challenge coordinator).commits
        (machineConnectFinish config input challenge coordinator).coordinator
  | reopen {coordinator : Coordinator} (fault : interrupted = true → allowed .inRecovery) :
      CoordinatorStep coordinator (reconcilePending interrupted coordinator).commits
        (reconcilePending interrupted coordinator).coordinator
  | offers {coordinator : Coordinator} {result : OfferResult}
      (made : machineOfferBeforeNative config (authorityClosed || coordinator.journal.blocked)
        input view coordinator.store = .ok (some result)) :
      CoordinatorStep coordinator [] ⟨result.store, coordinator.journal⟩
  | native {coordinator : Coordinator} {store : MachineStore}
      (same : Agrees coordinator.store store)
      (identities : store.ticketIdentities = coordinator.store.ticketIdentities) :
      CoordinatorStep coordinator [] ⟨store, coordinator.journal⟩

end

theorem machineOfferBeforeNative_eq_ok
    (made : machineOfferBeforeNative config blocked input view store = .ok (some result)) :
    blocked = false ∧ ∃ topology, machineTopology config = .ok (some topology) ∧
      offerTransaction config topology input view store = .ok result := by
  unfold machineOfferBeforeNative at made
  split at made
  · simp [pure_eq_ok] at made
  · next opened =>
    rw [bind_eq_ok] at made
    rcases made with ⟨found, computed, made⟩
    split at made
    · simp [pure_eq_ok] at made
    · simp only [ok_iff, Option.some.injEq] at made
      rcases made with ⟨_, succeeded, rfl⟩
      exact ⟨Bool.eq_false_iff.mpr opened, _, computed, succeeded⟩

/-- Every step is a sequence of transactions that commits the step's operations. -/
theorem CoordinatorStep.effect {next : Coordinator} (sound : PendingSound config sent coordinator)
    (step : CoordinatorStep config allowed sent coordinator commits next) :
    StoreRun config coordinator.store commits next.store ∧
      (∀ entry ∈ commits, sent entry.1) ∧ PendingSound config sent next := by
  have whole : ∀ {α : Type} {result : CallResult α}, CallEffect config sent coordinator result →
      StoreRun config coordinator.store result.commits result.coordinator.store ∧
        (∀ entry ∈ result.commits, sent entry.1) ∧ PendingSound config sent result.coordinator :=
    fun effect => ⟨effect.run, effect.asked, effect.sound⟩
  cases step with
  | exchange fault delivered => exact whole (machineExchange_effect _ sound delivered)
  | connectBegin fault => exact whole (machineConnectBegin_effect _ _ sound)
  | connectFinish fault => exact whole (machineConnectFinish_effect _ _ sound)
  | reopen fault => exact whole (reconcilePending_effect _ sound).1
  | offers made =>
    rcases machineOfferBeforeNative_eq_ok made with ⟨opened, topology, _, succeeded⟩
    refine ⟨.single (.pass succeeded), fun _ member => (nomatch member), ?_⟩
    simp only [Bool.or_eq_false_iff, Journal.blocked, Option.isSome_eq_false_iff,
      Option.isNone_iff_eq_none] at opened
    exact .of_none opened.2.1
  | native same identities =>
    refine ⟨.single (.native same identities), fun _ member => (nomatch member),
      sound.asked, ?_⟩
    intro unreset intent pending
    rcases sound.computed unreset intent pending with ⟨operation, recorded⟩ | unwritten
    · exact .inl ⟨operation, same.operations ▸ recorded⟩
    · exact .inr (unwritten.agrees same)

/-- A run from the paired state, with the operations it committed in order. -/
inductive CoordinatorRun (config : CoordinatorConfig) (allowed : Fault → Prop)
    (sent : Request → Prop) : Coordinator → List (Request × Outcome) → Prop where
  | start : CoordinatorRun config allowed sent (.initial config) []
  | step {coordinator next : Coordinator} {history commits : List (Request × Outcome)}
      (run : CoordinatorRun config allowed sent coordinator history)
      (one : CoordinatorStep config allowed sent coordinator commits next) :
      CoordinatorRun config allowed sent next (history ++ commits)

theorem CoordinatorRun.sound (run : CoordinatorRun config allowed sent coordinator history) :
    PendingSound config sent coordinator := by
  induction run with
  | start => exact .of_none rfl
  | step _ one ih => exact (one.effect ih).2.2

end Stillyard
