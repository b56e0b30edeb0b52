import Stillyard.Store.Attach
import Stillyard.Store.Canceled

/-!
# Session fencing

The authority journal holds the session that each domain was last connected
with.  A session is accepted there before SQLite has it, and every operation is
applied for the session in the journal.  So an accepted session fences all
earlier ones at once, also where an interruption keeps SQLite behind.
-/

namespace Stillyard

open Relational Fallible

variable {intent : MachineCommitIntent}

/-- The session that the journal has accepted for a domain. -/
def Journal.sessionOf (journal : Journal) (domain : ExecutionDomainId) : Option SessionIdentity :=
  (journal.anchors.get? domain).bind ParticipantAnchor.session

/-! ## What leaves the sessions alone -/

/-- The journal has the same sessions. -/
def KeepsSessions (before after : Journal) : Prop :=
  ∀ domain, after.sessionOf domain = before.sessionOf domain

/-- The tables have the same challenges and connection epochs. -/
structure KeepsEpochs (before after : MachineStore) : Prop where
  challenges : after.challenges = before.challenges
  epochs : ∀ domain, after.epoch domain = before.epoch domain

variable {config : CoordinatorConfig} {coordinator next : Coordinator}
  {store after : MachineStore} {journal finished : Journal}

theorem KeepsSessions.of_anchors (same : finished.anchors = journal.anchors) :
    KeepsSessions journal finished := by
  intro domain
  rw [Journal.sessionOf, Journal.sessionOf, same]

theorem KeepsSessions.trans {first second third : Journal} (earlier : KeepsSessions first second)
    (later : KeepsSessions second third) : KeepsSessions first third :=
  fun domain => (later domain).trans (earlier domain)

theorem KeepsSessions.set (found : journal.anchors.get? domain = some anchor)
    (same : new.session = anchor.session)
    (anchors : finished.anchors = journal.anchors.set domain new) :
    KeepsSessions journal finished := by
  intro other
  rw [Journal.sessionOf, Journal.sessionOf, anchors, Table.get?_set]
  split
  · next named =>
    subst named
    rw [found]
    exact same
  · rfl

theorem KeepsEpochs.refl (store : MachineStore) : KeepsEpochs store store := ⟨rfl, fun _ => rfl⟩

theorem KeepsEpochs.trans {first second third : MachineStore} (earlier : KeepsEpochs first second)
    (later : KeepsEpochs second third) : KeepsEpochs first third :=
  ⟨later.challenges.trans earlier.challenges,
    fun domain => (later.epochs domain).trans (earlier.epochs domain)⟩

theorem KeepsEpochs.of_same (challenges : after.challenges = store.challenges)
    (domains : after.domains = store.domains) : KeepsEpochs store after := by
  refine ⟨challenges, ?_⟩
  intro domain
  rw [MachineStore.epoch, MachineStore.epoch, domains]

theorem keepsSessions_checkpoint (journal : Journal) (domain : ExecutionDomainId) (sequence : Nat) :
    KeepsSessions journal (checkpointMachineSequence journal domain sequence) := by
  intro other
  rw [Journal.sessionOf, Journal.sessionOf, checkpointMachineSequence, Table.get?_update]
  split
  · cases journal.anchors.get? other <;> rfl
  · rfl

theorem keepsSessions_finish (done : finishMachineCommit journal operationId = .ok finished) :
    KeepsSessions journal finished := by
  unfold finishMachineCommit at done
  split at done
  · cases done
    exact fun _ => rfl
  · next intent pending =>
    simp only [ok_iff] at done
    obtain ⟨_, _, anchor, found, floor, _, rfl⟩ := done
    refine .set found ?_ rfl
    rfl

theorem keepsSessions_propose (proposed : proposedMachineCommit journal intent = .ok finished) :
    KeepsSessions journal finished := by
  obtain ⟨_, ⟨_, rfl⟩ | ⟨_, _, _, rfl⟩⟩ := proposedMachineCommit_cases proposed
  · exact fun _ => rfl
  · exact .of_anchors rfl

theorem keepsSessions_validateAnchors (store : MachineStore)
    (anchors : List (ExecutionDomainId × ParticipantAnchor)) (journal : Journal) :
    KeepsSessions journal (validateAnchors store anchors journal) := by
  induction anchors generalizing journal with
  | nil => exact fun _ => rfl
  | cons first rest ih =>
    rw [validateAnchors]
    split
    · exact ih _
    · split
      · exact .of_anchors rfl
      · split
        · exact .of_anchors rfl
        · exact (keepsSessions_checkpoint _ _ _).trans (ih _)

theorem keepsSessions_validate (site : Site) :
    KeepsSessions site.coordinator.journal (validateMachineHistory site) := by
  have checked := keepsSessions_validateAnchors site.coordinator.store
    site.coordinator.journal.anchors.rows site.coordinator.journal
  unfold validateMachineHistory
  dsimp only
  split
  · exact fun _ => rfl
  · split
    · exact checked
    · split
      · exact checked.trans (.of_anchors rfl)
      · split
        · exact checked.trans (.of_anchors rfl)
        · exact checked

/-- A committed operation opens no session. -/
theorem Committed.keepsEpochs (committed : Committed config request outcome store after) :
    KeepsEpochs store after :=
  ⟨committed.sessions.2, committed.epoch⟩

theorem restoreGrants_keepsEpochs {grants : List GrantSnapshot}
    (folded : grants.foldlM restoreGrant store = .ok after) : KeepsEpochs store after := by
  refine foldlM_invariant (fun state => KeepsEpochs store state) ?_ (.refl store) folded
  intro state grant result _ kept restored
  obtain ⟨_, _, frame⟩ := restoreGrant_eq_ok restored
  rw [frame]
  exact kept.trans (.of_same rfl rfl)

theorem restoreIntent_keepsEpochs (restored : restoreIntent store intent = .ok (some after)) :
    KeepsEpochs store after := by
  obtain ⟨_, _, _, rfl⟩ | ⟨_, saved, folded, rfl⟩ := (restoreIntent_eq_ok.mp restored).2.2
  · exact .refl _
  · have written := restoreGrants_keepsEpochs folded
    have history : KeepsEpochs saved (restoreHistory saved intent) := by
      unfold restoreHistory
      dsimp only
      split
      · refine ⟨rfl, epoch_of_evolves (Table.evolves_update KeepsSession.refl ?_)⟩
        intro row _
        exact ⟨rfl, rfl⟩
      · refine ⟨rfl, epoch_of_evolves (Table.evolves_update KeepsSession.refl ?_)⟩
        intro row _
        exact ⟨rfl, rfl⟩
      · exact .refl _
    have record : KeepsEpochs (restoreHistory saved intent)
        (recordOperation (restoreHistory saved intent) intent.request intent.outcome) := by
      refine ⟨rfl, epoch_of_evolves (Table.evolves_update KeepsSession.refl ?_)⟩
      intro row _
      exact ⟨rfl, rfl⟩
    exact (written.trans history).trans record

/-- The intent that waits to be completed is of its domain's accepted session. -/
def PendingCurrent (journal : Journal) : Prop :=
  journal.pendingReset = false → ∀ intent, journal.pending = some intent →
    journal.sessionOf intent.request.session.domainId = some intent.request.session

/-- A step that opens no session. -/
structure Sessionless (before after : Coordinator) : Prop where
  journal : KeepsSessions before.journal after.journal
  store : KeepsEpochs before.store after.store
  pending : PendingCurrent before.journal → PendingCurrent after.journal

theorem Sessionless.refl (coordinator : Coordinator) : Sessionless coordinator coordinator :=
  ⟨fun _ => rfl, .refl _, id⟩

theorem Sessionless.trans (earlier : Sessionless first second) (later : Sessionless second third) :
    Sessionless first third :=
  ⟨earlier.journal.trans later.journal, earlier.store.trans later.store,
    later.pending ∘ earlier.pending⟩

theorem Sessionless.of_store (kept : KeepsEpochs coordinator.store store) :
    Sessionless coordinator ⟨store, coordinator.journal⟩ :=
  ⟨fun _ => rfl, kept, id⟩

/-- The pending intent stays, or is finished. -/
theorem PendingCurrent.keep (current : PendingCurrent journal)
    (sessions : KeepsSessions journal finished)
    (reset : finished.pendingReset = false → journal.pendingReset = false)
    (pending : finished.pending = journal.pending ∨ finished.pending = none) :
    PendingCurrent finished := by
  intro unreset intent waits
  obtain same | cleared := pending
  · rw [sessions]
    exact current (reset unreset) intent (same ▸ waits)
  · rw [cleared] at waits
    cases waits

theorem reconcilePending_sessionless (interrupted : Bool) (coordinator : Coordinator) :
    Sessionless coordinator (reconcilePending interrupted coordinator).coordinator := by
  unfold reconcilePending
  split
  · exact .refl _
  · split
    · exact .refl _
    · split
      · exact .refl _
      · refine ⟨.of_anchors rfl, .refl _, ?_⟩
        intro _ unreset
        cases unreset
      · next store restored =>
        have kept := restoreIntent_keepsEpochs restored
        split
        · exact ⟨fun _ => rfl, kept, id⟩
        · split
          · exact ⟨fun _ => rfl, kept, id⟩
          · next journal done =>
            have sessions := keepsSessions_finish done
            refine ⟨sessions, kept, ?_⟩
            intro current
            refine current.keep sessions ?_ (.inr (pending_finishMachineCommit done))
            rw [reset_finishMachineCommit done]
            exact id

theorem proposed_pendingCurrent (proposed : proposedMachineCommit journal intent = .ok finished) :
    PendingCurrent finished := by
  have sessions := keepsSessions_propose proposed
  have pending := (proposedMachineCommit_eq_ok proposed).1
  obtain ⟨⟨anchor, anchored, session⟩, _⟩ := proposedMachineCommit_cases proposed
  intro _ other waits
  cases pending.symm.trans waits
  rw [sessions, Journal.sessionOf, anchored]
  exact session

theorem PendingCurrent.checkpoint (current : PendingCurrent journal) (domain : ExecutionDomainId)
    (sequence : Nat) : PendingCurrent (checkpointMachineSequence journal domain sequence) :=
  current.keep (keepsSessions_checkpoint _ _ _) id (.inl rfl)

theorem commitExchange_sessionless (input : ExchangeInput) (request : Request)
    (kept : KeepsEpochs coordinator.store prepared.next) :
    Sessionless coordinator (commitExchange input request coordinator prepared).coordinator := by
  unfold commitExchange
  dsimp only
  split
  · exact .refl _
  · split
    · split
      · exact .refl _
      · next published proposed =>
        have sessions := keepsSessions_propose proposed
        have current := proposed_pendingCurrent proposed
        split
        · exact ⟨sessions, .refl _, fun _ => current⟩
        · split
          · exact ⟨sessions, kept, fun _ => current⟩
          · split
            · exact ⟨sessions, kept, fun _ => current⟩
            · next finished done =>
              have ended := sessions.trans (keepsSessions_finish done)
              have cleared : PendingCurrent finished :=
                current.keep (keepsSessions_finish done)
                  (reset_finishMachineCommit done ▸ id)
                  (.inr (pending_finishMachineCommit done))
              split
              · exact ⟨ended, kept, fun _ => cleared⟩
              · exact ⟨ended.trans (keepsSessions_checkpoint _ _ _), kept,
                  fun _ => cleared.checkpoint _ _⟩
    · split
      · exact ⟨keepsSessions_checkpoint _ _ _, kept, fun current => current.checkpoint _ _⟩
      · exact ⟨fun _ => rfl, kept, id⟩

theorem compact_sessionless (coordinator : Coordinator) :
    Sessionless coordinator (compactMachineRetirements coordinator) := by
  unfold compactMachineRetirements
  split
  · exact .refl _
  · exact ⟨.of_anchors rfl, .refl _, fun current => current.keep (.of_anchors rfl) id (.inl rfl)⟩

theorem exchangeRequest_sessionless (input : ExchangeInput) (request : Request)
    (coordinator : Coordinator) :
    Sessionless coordinator (exchangeRequest config input request coordinator).coordinator := by
  have compacted := compact_sessionless coordinator
  unfold exchangeRequest
  dsimp only
  split
  · exact compacted
  · next row admitted =>
    split
    · exact compacted
    · next prepared succeeded =>
      refine compacted.trans (commitExchange_sessionless input request ?_)
      obtain replayed | ⟨applied, performed⟩ := exchangeTransaction_eq_ok admitted succeeded
      · rw [replayed.same]
        exact .refl _
      · exact performed.committed.keepsEpochs

theorem andThen_sessionless {α : Type} {first : CallResult Unit}
    {rest : Coordinator → CallResult α} (earlier : Sessionless coordinator first.coordinator)
    (later : ∀ middle, Sessionless middle (rest middle).coordinator) :
    Sessionless coordinator (first.andThen rest).coordinator := by
  unfold CallResult.andThen
  split
  · exact earlier
  · exact earlier.trans (later _)

theorem machineExchange_sessionless (input : ExchangeInput) (request : Request)
    (coordinator : Coordinator) :
    Sessionless coordinator (machineExchange config input request coordinator).coordinator :=
  andThen_sessionless (reconcilePending_sessionless _ coordinator)
    (exchangeRequest_sessionless input request)

theorem attach_sessionless (site : Site) :
    Sessionless site.coordinator site.attach.1.coordinator := by
  have reopened := reconcilePending_sessionless false site.coordinator
  unfold Site.attach
  dsimp only
  split
  · exact reopened
  · refine reopened.trans ⟨keepsSessions_validate _, .refl _, ?_⟩
    intro current
    exact current.keep (keepsSessions_validate _) reset_validateMachineHistory
      (.inl (pending_validateMachineHistory _))

/-- Whatever waits is current, and an issued challenge is for a newer connection
than the tables have. -/
structure Fenced (coordinator : Coordinator) : Prop where
  pending : PendingCurrent coordinator.journal
  challenged : ∀ domain entry, coordinator.store.challenges.get? domain = some entry →
    coordinator.store.epoch domain < entry.1.session.connectionEpoch

/-- Sessions are replaced by newer ones only. -/
structure Raises (before after : Coordinator) : Prop where
  sessions : ∀ domain old, before.journal.sessionOf domain = some old →
    ∃ new, after.journal.sessionOf domain = some new ∧
      (new = old ∨ old.connectionEpoch < new.connectionEpoch)
  epochs : ∀ domain, before.store.epoch domain ≤ after.store.epoch domain

theorem Raises.refl (coordinator : Coordinator) : Raises coordinator coordinator :=
  ⟨fun _ old found => ⟨old, found, .inl rfl⟩, fun _ => Nat.le_refl _⟩

theorem Raises.trans (earlier : Raises first second) (later : Raises second third) :
    Raises first third := by
  constructor
  · intro domain old found
    obtain ⟨middle, foundMiddle, raised⟩ := earlier.sessions domain old found
    obtain ⟨new, foundNew, raisedAgain⟩ := later.sessions domain middle foundMiddle
    refine ⟨new, foundNew, ?_⟩
    obtain rfl | newer := raised
    · exact raisedAgain
    · obtain rfl | newest := raisedAgain
      · exact .inr newer
      · exact .inr (newer.trans newest)
  · exact fun domain => (earlier.epochs domain).trans (later.epochs domain)

/-- A step that keeps the invariant and replaces sessions by newer ones only. -/
def Fences (before after : Coordinator) : Prop :=
  Fenced before → Fenced after ∧ Raises before after

theorem Fences.trans (earlier : Fences first second) (later : Fences second third) :
    Fences first third := by
  intro fenced
  obtain ⟨middle, raised⟩ := earlier fenced
  obtain ⟨last, raisedAgain⟩ := later middle
  exact ⟨last, raised.trans raisedAgain⟩

theorem Sessionless.fences (sessionless : Sessionless coordinator next) :
    Fences coordinator next := by
  intro fenced
  refine ⟨⟨sessionless.pending fenced.pending, ?_⟩, ?_, ?_⟩
  · intro domain entry found
    rw [sessionless.store.challenges] at found
    rw [sessionless.store.epochs]
    exact fenced.challenged domain entry found
  · intro domain old found
    exact ⟨old, (sessionless.journal domain).trans found, .inl rfl⟩
  · exact fun domain => (sessionless.store.epochs domain).ge

theorem settled_of_reconcilePending
    (answered : (reconcilePending interrupted coordinator).answer = .ok done) :
    Settled (reconcilePending interrupted coordinator).coordinator.journal := by
  unfold reconcilePending at answered ⊢
  split
  · next none => exact .inl none
  · next intent pending =>
    simp only [pending] at answered
    split
    · next reset => exact .inr reset
    · next unreset =>
      simp only [if_neg unreset] at answered
      split
      · next failed =>
        simp only [failed] at answered
        cases answered
      · exact .inr rfl
      · next store restored =>
        simp only [restored] at answered
        split
        · next stopped =>
          rw [if_pos stopped] at answered
          cases answered
        · next whole =>
          rw [if_neg whole] at answered
          split
          · next failed =>
            simp only [failed] at answered
            cases answered
          · next journal finished => exact .inl (pending_finishMachineCommit finished)

theorem Settled.pendingCurrent (settled : Settled journal) : PendingCurrent journal := by
  intro unreset intent waits
  obtain none | reset := settled
  · rw [none] at waits
    cases waits
  · rw [reset] at unreset
    cases unreset

/-- Reserving an epoch opens no session. -/
theorem connectBegin_fences (input : ConnectInput) (hello : ConnectHello)
    (coordinator : Coordinator) :
    Fences coordinator (connectBegin config input hello coordinator).coordinator := by
  intro fenced
  rcases connectBegin_cases config input hello coordinator with
    ⟨_, same⟩ | ⟨domain, participant, anchor, challenges, _, known, found, issues, same⟩
  · rw [same]
    exact ⟨fenced, .refl _⟩
  · rw [same]
    have sessions : KeepsSessions coordinator.journal { coordinator.journal with
        anchors := coordinator.journal.anchors.set domain { anchor with
          nextConnectionEpoch :=
            max anchor.nextConnectionEpoch participant.connectionEpoch + 1 } } := by
      refine .set found ?_ rfl
      rfl
    refine ⟨⟨fenced.pending.keep sessions id (.inl rfl), ?_⟩,
      fun other old held => ⟨old, (sessions other).trans held, .inl rfl⟩, fun _ => Nat.le_refl _⟩
    intro other entry issued
    rcases issues with rfl | ⟨challenge, deadline, rfl, epoch⟩
    · exact fenced.challenged other entry issued
    · obtain ⟨rfl, rfl⟩ | ⟨_, issued⟩ := Table.get?_set_eq_some.mp issued
      · -- The reserved epoch is above the one in the tables.
        change coordinator.store.epoch other < _
        rw [MachineStore.epoch, known, epoch]
        exact Nat.lt_succ_of_le (Nat.le_max_right _ _)
      · exact fenced.challenged other entry issued

theorem acceptMachineSession_sessions
    (succeeded : acceptMachineSession config journal session = .ok finished) :
    finished.sessionOf session.domainId = some session ∧
      ∀ domain old, journal.sessionOf domain = some old →
        ∃ new, finished.sessionOf domain = some new ∧
          (new = old ∨ old.connectionEpoch < new.connectionEpoch) := by
  simp only [acceptMachineSession, ok_iff] at succeeded
  obtain ⟨anchor, found, succeeded⟩ := succeeded
  split at succeeded
  · next known =>
    cases succeeded
    constructor
    · rw [Journal.sessionOf, found]
      exact known
    · exact fun domain old held => ⟨old, held, .inl rfl⟩
  · simp only [ok_iff, test_iff, Option.all_eq_true] at succeeded
    obtain ⟨_, _, _, ⟨_, newer⟩, rfl⟩ := succeeded
    constructor
    · rw [Journal.sessionOf, Table.get?_set, if_pos rfl]
      rfl
    · intro domain old held
      rw [Journal.sessionOf, Table.get?_set]
      split
      · next named =>
        subst named
        rw [Journal.sessionOf, found] at held
        exact ⟨session, rfl, .inr (newer old held)⟩
      · exact ⟨old, held, .inl rfl⟩

/-- Accepting a session replaces an older one. -/
theorem connectFinish_fences (input : ConnectInput) (challenge : ConnectChallenge)
    (settled : Settled coordinator.journal) :
    Fences coordinator (connectFinish config input challenge coordinator).coordinator := by
  intro fenced
  rcases connectFinish_cases config input challenge coordinator with
    ⟨_, same⟩ | ⟨_, journal, _, accepted, rest⟩
  · rw [same]
    exact ⟨fenced, .refl _⟩
  · have sessions := (acceptMachineSession_sessions accepted).2
    have kept := acceptMachineSession_eq_ok accepted
    have current : PendingCurrent journal := by
      refine Settled.pendingCurrent ?_
      rw [Settled, kept.1, kept.2]
      exact settled
    rcases rest with ⟨_, same⟩ | ⟨row, known, newer, _, same⟩
    · rw [same]
      exact ⟨⟨current, fenced.challenged⟩, sessions, fun _ => Nat.le_refl _⟩
    · rw [same]
      refine ⟨⟨current, ?_⟩, sessions, ?_⟩
      · intro domain entry found
        dsimp only [CallResult.without] at found ⊢
        rw [installSession, Table.get?_erase] at found
        rw [epoch_installSession]
        split at found
        · cases found
        · next other =>
          rw [if_neg fun both => other both.1]
          exact fenced.challenged domain entry found
      · intro domain
        dsimp only [CallResult.without]
        rw [epoch_installSession]
        split
        · next both =>
          rw [both.1, MachineStore.epoch, known]
          exact Nat.le_of_lt newer
        · exact Nat.le_refl _

/-! ## Whole runs -/

/-- One step of a coordinator or of its opening, with the operations it
commits. -/
inductive AuthorityStep (config : CoordinatorConfig) :
    Coordinator → List (Request × Outcome) → Coordinator → Prop where
  | call {coordinator next : Coordinator}
      (step : CoordinatorStep config (fun _ => True) (fun _ => True) coordinator commits next) :
      AuthorityStep config coordinator commits next
  | attach {site : Site} :
      AuthorityStep config site.coordinator (reconcilePending false site.coordinator).commits
        site.attach.1.coordinator
  | attachStopped {coordinator : Coordinator} :
      AuthorityStep config coordinator (reconcilePending false coordinator).commits
        ⟨coordinator.recover.store, validateAnchors coordinator.recover.store
          (coordinator.recover.journal.anchors.rows.take count) coordinator.recover.journal⟩

/-- The coordinators that these steps reach. -/
def AuthorityPath (config : CoordinatorConfig) : Coordinator → Coordinator → Prop :=
  Relation.ReflTransGen fun before after => ∃ commits, AuthorityStep config before commits after

variable {commits : List (Request × Outcome)}

theorem validateAnchors_reset
    (unreset : (validateAnchors store anchors journal).pendingReset = false) :
    journal.pendingReset = false := by
  induction anchors generalizing journal with
  | nil => exact unreset
  | cons first rest ih =>
    rw [validateAnchors] at unreset
    split at unreset
    · exact ih unreset
    · split at unreset
      · cases unreset
      · next row _ =>
        split at unreset
        · cases unreset
        · have checked : (checkpointMachineSequence journal first.1
              row.acceptedSequence).pendingReset = false := ih unreset
          exact checked

/-- Every step keeps the fence; passes and native changes need the keys of the
tables. -/
theorem AuthorityStep.fences (keyed : Keyed coordinator.store)
    (step : AuthorityStep config coordinator commits next) : Fences coordinator next := by
  cases step with
  | call step =>
    cases step with
    | exchange => exact (machineExchange_sessionless _ _ _).fences
    | @connectBegin input hello =>
      have recovered := (reconcilePending_sessionless (decide (input.fault = .inRecovery))
        coordinator).fences
      unfold machineConnectBegin CallResult.andThen
      split
      · exact recovered
      · exact recovered.trans (connectBegin_fences input hello _)
    | @connectFinish input challenge =>
      have recovered := (reconcilePending_sessionless (decide (input.fault = .inRecovery))
        coordinator).fences
      unfold machineConnectFinish CallResult.andThen
      split
      · exact recovered
      · next done answered =>
        exact recovered.trans
          (connectFinish_fences input challenge (settled_of_reconcilePending answered))
    | reopen => exact (reconcilePending_sessionless _ _).fences
    | offers made =>
      obtain ⟨_, topology, _, succeeded⟩ := machineOfferBeforeNative_eq_ok made
      have frame := (offerTransaction_eq_ok keyed.grants keyed.candidates succeeded).1
      exact (Sessionless.of_store (.of_same frame.challenges frame.domains)).fences
    | native same =>
      exact (Sessionless.of_store
        (.of_same same.challenges.symm same.domains.symm)).fences
  | attach => exact (attach_sessionless _).fences
  | @attachStopped count _ =>
    refine ((reconcilePending_sessionless false coordinator).trans ?_).fences
    have sessions := keepsSessions_validateAnchors coordinator.recover.store
      (coordinator.recover.journal.anchors.rows.take count) coordinator.recover.journal
    exact ⟨sessions, .refl _, fun current =>
      current.keep sessions validateAnchors_reset (.inl (validateAnchors_frame _ _ _).2)⟩

/-- Every committed operation is of the session that its domain's anchor had
before the step. -/
theorem AuthorityStep.current (fenced : Fenced coordinator)
    (step : AuthorityStep config coordinator commits next) :
    ∀ entry ∈ commits,
      coordinator.journal.sessionOf entry.1.session.domainId = some entry.1.session := by
  have restored : ∀ {interrupted : Bool}, ∀ entry ∈
      (reconcilePending interrupted coordinator).commits,
      coordinator.journal.sessionOf entry.1.session.domainId = some entry.1.session := by
    intro interrupted entry member
    obtain ⟨intent, pending, unreset, rfl, _⟩ := restores_of_reconcilePending member
    exact fenced.pending unreset intent pending
  cases step with
  | call step =>
    intro entry member
    cases step with
    | @exchange input _ request fault delivered =>
      obtain earlier | own := mem_commits_andThen member
      · exact restored entry earlier
      · obtain ⟨rfl, row, admitted⟩ := exchangeRequest_commits own
        obtain ⟨_, ⟨anchor, anchored, session⟩, _⟩ := admitRequest_eq_ok admitted
        have kept := ((reconcilePending_sessionless (decide (input.fault = .inRecovery))
          coordinator).trans (compact_sessionless _)).journal entry.1.session.domainId
        rw [← kept, Journal.sessionOf, anchored]
        exact session
    | connectBegin =>
      obtain earlier | own := mem_commits_andThen member
      · exact restored entry earlier
      · rw [connectBegin_commits] at own
        cases own
    | connectFinish =>
      obtain earlier | own := mem_commits_andThen member
      · exact restored entry earlier
      · rw [connectFinish_commits] at own
        cases own
    | reopen => exact restored entry member
    | offers | native => cases member
  | attach | attachStopped => exact restored

theorem AuthorityStep.effect (sound : PendingSound config (fun _ => True) coordinator)
    (step : AuthorityStep config coordinator commits next) :
    StoreRun config coordinator.store commits next.store ∧
      PendingSound config (fun _ => True) next := by
  have recovery := (@reconcilePending_effect _ config _ false sound).1
  cases step with
  | call step => exact ⟨(step.effect sound).1, (step.effect sound).2.2⟩
  | attach =>
    unfold Site.attach
    dsimp only
    split
    · exact ⟨recovery.run, recovery.sound⟩
    · exact ⟨recovery.run, recovery.sound.journal (pending_validateMachineHistory _)
        reset_validateMachineHistory⟩
  | attachStopped =>
    exact ⟨recovery.run, recovery.sound.journal (validateAnchors_frame _ _ _).2
      validateAnchors_reset⟩

/-- What holds of every coordinator that is reached. -/
structure Guarded (config : CoordinatorConfig) (coordinator : Coordinator) : Prop where
  keyed : Keyed coordinator.store
  sound : PendingSound config (fun _ => True) coordinator
  fenced : Fenced coordinator

theorem Guarded.initial (config : CoordinatorConfig) : Guarded config (.initial config) := by
  refine ⟨.initial config, .of_none rfl, ?_, ?_⟩
  · exact Settled.pendingCurrent (.inl rfl)
  · intro domain entry found
    cases found

theorem Guarded.step (guarded : Guarded config coordinator)
    (step : AuthorityStep config coordinator commits next) :
    Guarded config next ∧ Raises coordinator next := by
  obtain ⟨run, sound⟩ := step.effect guarded.sound
  obtain ⟨fenced, raises⟩ := step.fences guarded.keyed guarded.fenced
  exact ⟨⟨run.keyed guarded.keyed, sound, fenced⟩, raises⟩

theorem Guarded.path (guarded : Guarded config coordinator)
    (path : AuthorityPath config coordinator next) :
    Guarded config next ∧ Raises coordinator next := by
  induction path with
  | refl => exact ⟨guarded, .refl _⟩
  | tail _ last ih =>
    obtain ⟨middle, raised⟩ := ih
    obtain ⟨commits, step⟩ := last
    obtain ⟨after, raisedAgain⟩ := middle.step step
    exact ⟨after, raised.trans raisedAgain⟩

/-- What an answered challenge was and wrote. -/
theorem connectFinish_eq_ok
    (answered : (connectFinish config input challenge coordinator).answer = .ok snapshot) :
    ∃ deadline journal row,
      coordinator.store.challenges.get? challenge.session.domainId = some (challenge, deadline) ∧
      acceptMachineSession config coordinator.journal challenge.session = .ok journal ∧
      coordinator.store.domains.get? challenge.session.domainId = some row ∧
      (connectFinish config input challenge coordinator).coordinator =
        ⟨installSession coordinator.store challenge.session, journal⟩ := by
  rcases connectFinish_cases config input challenge coordinator with
    ⟨_, same⟩ | ⟨deadline, journal, stored, accepted, ⟨_, same⟩ | ⟨row, known, _, _, same⟩⟩
  · rw [same] at answered
    cases answered
  · rw [same] at answered
    cases answered
  · rw [same]
    exact ⟨deadline, journal, row, stored, accepted, known, rfl⟩

/-- A challenge is accepted while the tables are at an older connection, and its
epoch is then in the tables. -/
theorem machineConnectFinish_accepts (fenced : Fenced coordinator)
    (answered : (machineConnectFinish config input challenge coordinator).answer = .ok snapshot) :
    coordinator.store.epoch challenge.session.domainId < challenge.session.connectionEpoch ∧
      (machineConnectFinish config input challenge coordinator).coordinator.store.epoch
        challenge.session.domainId = challenge.session.connectionEpoch := by
  have recovery := reconcilePending_sessionless (decide (input.fault = .inRecovery)) coordinator
  have recovered := (recovery.fences fenced).1
  rw [← recovery.store.epochs]
  unfold machineConnectFinish CallResult.andThen at answered ⊢
  split at answered
  · cases answered
  · obtain ⟨deadline, journal, row, stored, _, known, written⟩ := connectFinish_eq_ok answered
    refine ⟨recovered.challenged _ _ stored, ?_⟩
    dsimp only
    rw [written, epoch_installSession, if_pos]
    rw [known]
    exact ⟨rfl, rfl⟩

/-- Sessions of a domain are accepted with growing epochs, a challenge is answered
at most once, and once the journal has accepted a session, no operation of an
earlier one or of another executor under the same epoch is applied. -/
theorem sessions_fenced {domain : ExecutionDomainId} (reached :
      AuthorityPath config (.initial config) coordinator) :
    (∀ later old, AuthorityPath config coordinator later →
      coordinator.journal.sessionOf domain = some old →
        ∃ new, later.journal.sessionOf domain = some new ∧
          (new = old ∨ old.connectionEpoch < new.connectionEpoch)) ∧
      (∀ input challenge snapshot later,
        (machineConnectFinish config input challenge coordinator).answer = .ok snapshot →
        AuthorityPath config (machineConnectFinish config input challenge coordinator).coordinator
          later →
        coordinator.store.epoch challenge.session.domainId < challenge.session.connectionEpoch ∧
          ∀ again other,
            (machineConnectFinish config again challenge later).answer ≠ .ok other) ∧
      ∀ session later after commits request outcome,
        coordinator.journal.sessionOf domain = some session →
        AuthorityPath config coordinator later → AuthorityStep config later commits after →
        (request, outcome) ∈ commits → request.session.domainId = domain →
          request.session = session ∨
            session.connectionEpoch < request.session.connectionEpoch := by
  have guarded := ((Guarded.initial config).path reached).1
  refine ⟨?_, ?_, ?_⟩
  · intro later old path held
    exact (guarded.path path).2.sessions domain old held
  · intro input challenge snapshot later answered path
    obtain ⟨older, installed⟩ := machineConnectFinish_accepts guarded.fenced answered
    refine ⟨older, ?_⟩
    intro again other repeated
    have finished : AuthorityStep config coordinator _
        (machineConnectFinish config input challenge coordinator).coordinator :=
      .call (.connectFinish trivial)
    have afterwards := (guarded.step finished).1.path path
    -- The epoch of the challenge is in the tables and stays.
    have raised := afterwards.2.epochs challenge.session.domainId
    rw [installed] at raised
    have below := (machineConnectFinish_accepts afterwards.1.fenced repeated).1
    omega
  · intro session later after commits request outcome held path step member named
    have afterwards := guarded.path path
    obtain ⟨new, foundNew, raised⟩ := afterwards.2.sessions domain session held
    have current := step.current afterwards.1.fenced _ member
    dsimp only at current
    rw [named, foundNew] at current
    cases current
    exact raised

theorem soloSession_fenced :
    soloConnected.coordinator.journal.sessionOf 6 = some soloSession ∧
      (∀ again other, (machineConnectFinish soloConfig again ⟨soloSession, 11, 10⟩
        soloConnected.coordinator).answer ≠ .ok other) ∧
      ∀ after commits request outcome,
        AuthorityStep soloConfig soloConnected.coordinator commits after →
        (request, outcome) ∈ commits → request.session.domainId = 6 →
          request.session = soloSession ∨ 1 < request.session.connectionEpoch := by
  have challenged : AuthorityPath soloConfig (.initial soloConfig) soloChallenged.coordinator :=
    .single ⟨_, .call (.connectBegin trivial)⟩
  have connected : AuthorityPath soloConfig (.initial soloConfig) soloConnected.coordinator :=
    challenged.tail ⟨_, .call (.connectFinish trivial)⟩
  have accepted : soloConnected.coordinator.journal.sessionOf 6 = some soloSession := by
    decide +kernel
  have answered : ∃ snapshot, soloConnected.answer = .ok snapshot := ⟨_, rfl⟩
  obtain ⟨snapshot, answered⟩ := answered
  refine ⟨accepted, ?_, ?_⟩
  · exact ((@sessions_fenced soloConfig soloChallenged.coordinator 6 challenged).2.1 _ _ snapshot
      soloConnected.coordinator answered .refl).2
  · intro after commits request outcome step member named
    exact (@sessions_fenced soloConfig soloConnected.coordinator 6 connected).2.2
      soloSession _ after commits request outcome accepted .refl step member named

end Stillyard
