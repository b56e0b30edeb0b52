import Stillyard.Store.History

/-!
# Canceled candidates

A canceled candidate refuses every later `CandidateUpsert`.  A `Withdraw` with a
newer revision is still accepted and replaces the canceled state, and then the
candidate can become ready again.  Without such a `Withdraw` a canceled candidate
never becomes ready and never gets an Offer.
-/

namespace Stillyard

open Relational Fallible

variable {entry : Request × Outcome} {request : Request} {key : AllocationKey} {revision : Nat}
  {config : CoordinatorConfig} {coordinator : Coordinator} {commits : List (Request × Outcome)}

/-- The operation is that of the intent in the journal, which SQL does not have
yet. -/
def Restores (coordinator : Coordinator) (entry : Request × Outcome) : Prop :=
  ∃ intent, coordinator.journal.pending = some intent ∧
    coordinator.journal.pendingReset = false ∧ entry = (intent.request, intent.outcome) ∧
    coordinator.store.operations.get?
      (intent.request.session.domainId, intent.request.requestSequence) = none

theorem restores_of_reconcilePending
    (member : entry ∈ (reconcilePending interrupted coordinator).commits) :
    Restores coordinator entry := by
  unfold reconcilePending at member
  split at member
  next => cases member
  next intent pending =>
    split at member
    next => cases member
    next unreset =>
      split at member
      next => cases member
      next => cases member
      next store restored =>
        have listed : entry ∈ restoredOperation coordinator.store intent := by
          split at member
          · exact member
          · split at member <;> exact member
        unfold restoredOperation at listed
        dsimp only at listed
        split at listed
        next => cases listed
        next absent =>
          exact ⟨intent, pending, by simpa using unreset, List.mem_singleton.mp listed, absent⟩

/-- A call commits what it restores and what its own part commits. -/
theorem mem_commits_andThen {α : Type} {first : CallResult Unit} {rest : Coordinator → CallResult α}
    (member : entry ∈ (first.andThen rest).commits) :
    entry ∈ first.commits ∨ entry ∈ (rest first.coordinator).commits := by
  unfold CallResult.andThen at member
  split at member
  · exact .inl member
  · exact List.mem_append.mp member

/-- A call whose own part commits nothing. -/
theorem restores_of_silent {α : Type} {interrupted : Bool} {rest : Coordinator → CallResult α}
    (silent : ∀ middle, (rest middle).commits = [])
    (member : entry ∈ ((reconcilePending interrupted coordinator).andThen rest).commits) :
    Restores coordinator entry := by
  obtain restored | own := mem_commits_andThen member
  · exact restores_of_reconcilePending restored
  · rw [silent] at own
    cases own

theorem commitExchange_commits
    (member : entry ∈ (commitExchange input request coordinator prepared).commits) :
    entry.1 = request := by
  obtain ⟨none, _⟩ | ⟨own, _⟩ := @commitExchange_writes request coordinator input prepared
  · rw [none] at member
    cases member
  · rw [own] at member
    split at member
    · rw [List.mem_singleton.mp member]
    · cases member

theorem exchangeRequest_commits
    (member : entry ∈ (exchangeRequest config input request coordinator).commits) :
    entry.1 = request ∧
      ∃ row, admitRequest config (compactMachineRetirements coordinator) request = .ok row := by
  unfold exchangeRequest at member
  dsimp only at member
  split at member
  next => cases member
  next row admitted =>
    split at member
    next => cases member
    next => exact ⟨commitExchange_commits member, row, admitted⟩

theorem connectBegin_commits (input : ConnectInput) (hello : ConnectHello) :
    (connectBegin config input hello coordinator).commits = [] := by
  rcases connectBegin_cases config input hello coordinator with
    ⟨_, same⟩ | ⟨_, _, _, _, _, _, _, _, same⟩ <;> rw [same] <;> rfl

theorem connectFinish_commits (input : ConnectInput) (challenge : ConnectChallenge) :
    (connectFinish config input challenge coordinator).commits = [] := by
  rcases connectFinish_cases config input challenge coordinator with
    ⟨_, same⟩ | ⟨_, _, _, _, ⟨_, same⟩ | ⟨_, _, _, _, same⟩⟩ <;> rw [same] <;> rfl

/-- A step commits the restored operation and that of the delivered request. -/
theorem CoordinatorStep.delivers
    (step : CoordinatorStep config allowed sent coordinator commits next) :
    ∃ delivered : Option Request, ∀ entry ∈ commits,
      Restores coordinator entry ∨ delivered = some entry.1 ∧ sent entry.1 := by
  cases step with
  | @exchange input _ request fault delivered =>
    refine ⟨some request, ?_⟩
    intro entry member
    obtain restored | own := mem_commits_andThen member
    · exact .inl (restores_of_reconcilePending restored)
    · obtain ⟨rfl, _⟩ := exchangeRequest_commits own
      exact .inr ⟨rfl, delivered⟩
  | connectBegin fault =>
    exact ⟨none, fun _ member =>
      .inl (restores_of_silent (fun _ => connectBegin_commits _ _) member)⟩
  | connectFinish fault =>
    exact ⟨none, fun _ member =>
      .inl (restores_of_silent (fun _ => connectFinish_commits _ _) member)⟩
  | reopen fault =>
    exact ⟨none, fun entry member => .inl (restores_of_reconcilePending member)⟩
  | offers made | native same identities => exact ⟨none, fun entry member => nomatch member⟩

/-- The step, whatever requests can be delivered. -/
theorem CoordinatorStep.widen
    (step : CoordinatorStep config allowed sent coordinator commits next) :
    CoordinatorStep config allowed (fun _ => True) coordinator commits next := by
  cases step with
  | exchange fault delivered => exact .exchange fault trivial
  | connectBegin fault => exact .connectBegin fault
  | connectFinish fault => exact .connectFinish fault
  | reopen fault => exact .reopen fault
  | offers made => exact .offers made
  | native same identities => exact .native same identities

/-- A restored operation never changed the revision of a candidate, so an
accepted withdrawal or cancellation is not restored: it was never journaled. -/
theorem Restores.not_withdrawal (sound : PendingSound config sent coordinator)
    (restores : Restores coordinator entry) (outcome : entry.2 = .accepted revision)
    (asked : entry.1.command = .withdraw key revision ∨
      entry.1.command = .cancelCandidate key revision) : False := by
  obtain ⟨intent, pending, unreset, rfl, absent⟩ := restores
  obtain ⟨operation, recorded⟩ | ⟨row, applied, _, attempted, published⟩ :=
    sound.computed unreset intent pending
  · rw [absent] at recorded
    cases recorded
  · dsimp only at outcome asked
    rw [outcome] at attempted
    -- Both withdrawals raise the revision; publishing never does.
    have raised : ∃ old new, coordinator.store.candidates.get? key = some old ∧
        applied.candidates.get? key = some new ∧ old.revision < new.revision := by
      cases attempted with
      | applied base effect =>
        cases effect with
        | upsert other | reconcileBegin other | reconcilePage other => simp [other] at asked
        | @withdraw other _ _ _ own owns found newer
        | @withdrawOffer other _ _ _ _ _ own owns found newer =>
          have sameKey : other = key := by
            obtain ⟨own, _⟩ | ⟨own, _⟩ := own <;> simp [own] at asked <;> exact asked
          subst sameKey
          rw [Table.get?_set, if_pos rfl]
          exact ⟨_, _, (base.candidates _).symm.trans found, rfl, newer⟩
    obtain ⟨old, new, foundOld, foundNew, newer⟩ := raised
    rw [published.candidates key, foundOld] at foundNew
    split at foundNew <;> cases foundNew <;> exact absurd newer (Nat.lt_irrefl _)

theorem GrantMove.not_offered (moves : GrantMove request sealed old new) :
    new.state ≠ .offered := by
  cases moves with
  | expire | arm | doubt | release => nofun
  | start owns armed =>
    rw [GrantSnapshot.start, armed]
    nofun

theorem RowMoves.offered (moves : RowMoves request sealed key old new)
    (offered : new.snapshot.state = .offered) : old.snapshot.state = .offered := by
  obtain same | ⟨_, _, last⟩ := moves.2.cases_tail
  · rw [← same]
    exact offered
  · exact absurd offered last.not_offered

/-! ## Shelved candidates -/

/-- The candidate was canceled or released at `floor` or later, and its
allocation has no Offer. -/
structure Shelved (store : MachineStore) (key : AllocationKey) (floor : Nat) : Prop where
  ended : ∃ row, store.candidates.get? key = some row ∧
    (row.state = .canceled ∨ row.state = .released) ∧ floor ≤ row.revision
  unoffered : ∀ grant, store.grants.get? key = some grant → grant.snapshot.state ≠ .offered

/-- The operation is not an accepted `Withdraw` of the allocation above `floor`. -/
def Harmless (key : AllocationKey) (floor : Nat) (entry : Request × Outcome) : Prop :=
  ∀ revision, entry.1.command = .withdraw key revision → entry.2 = .accepted revision →
    revision ≤ floor

variable {key : AllocationKey} {floor : Nat} {store after : MachineStore}

theorem Shelved.agrees (shelved : Shelved store key floor) (same : Agrees store after) :
    Shelved after key floor := by
  obtain ⟨⟨row, found, ended⟩, unoffered⟩ := shelved
  constructor
  · exact ⟨row, (same.candidates key).symm.trans found, ended⟩
  · intro grant granted
    exact unoffered grant ((same.grants key).trans granted)

/-- A command that is no newer `Withdraw` leaves a shelved candidate shelved. -/
theorem Applied.ended (harmless : Harmless key floor (request, outcome))
    (applied : Applied config request recovering authorityClosed now store after outcome)
    (found : store.candidates.get? key = some row)
    (ended : row.state = .canceled ∨ row.state = .released) (newer : floor ≤ row.revision) :
    ∃ row, after.candidates.get? key = some row ∧
      (row.state = .canceled ∨ row.state = .released) ∧ floor ≤ row.revision := by
  cases applied with
  | acknowledge | wait | start | armAgain | arm | doubt | inspectPage | inspect | reconcileBegin
  | reconcilePage => exact ⟨row, found, ended, newer⟩
  | release =>
    rw [MachineStore.withRelease, Table.get?_update]
    split
    · exact ⟨row.release, by rw [found, Option.map_some], .inr rfl, newer⟩
    · exact ⟨row, found, ended, newer⟩
  | @upsert candidate new queued asked queue upserted =>
    have other : key ≠ candidate.key := by
      rintro rfl
      have prior := upserted.prior
      simp only [found, checkRevision, ok_iff, test_iff] at prior
      obtain ⟨⟨_, _, _, ⟨⟨_, uncanceled⟩, unreleased⟩, _⟩, _⟩ := prior
      obtain canceled | released := ended
      · exact uncanceled canceled
      · exact unreleased released
    rw [Table.get?_set, if_neg other]
    exact ⟨row, found, ended, newer⟩
  | @withdraw own revision state prior asked owns foundPrior raised
  | @withdrawOffer own revision state prior _ _ asked owns foundPrior raised =>
    rw [Table.get?_set]
    split
    · next same =>
      subst same
      cases found.symm.trans foundPrior
      obtain ⟨asked, rfl⟩ | ⟨asked, rfl⟩ := asked
      · exact absurd (newer.trans_lt raised) (Nat.not_lt.mpr (harmless revision asked rfl))
      · exact ⟨_, rfl, .inl rfl, newer.trans raised.le⟩
    · exact ⟨row, found, ended, newer⟩
  | reconcileCommit asked begun complete distinct covers folded =>
    dsimp only
    rw [(reconcileRecords_lookup folded).2.2 key]
    split
    · exact ⟨row.release, by rw [found, Option.map_some], .inr rfl, newer⟩
    · exact ⟨row, found, ended, newer⟩

theorem Committed.shelved (keyed : Keyed store) (shelved : Shelved store key floor)
    (harmless : Harmless key floor (request, outcome))
    (committed : Committed config request outcome store after) : Shelved after key floor := by
  have evolves := committed.evolves keyed.grants
  obtain ⟨domain, applied, _, attempted, agrees⟩ := committed
  constructor
  · obtain ⟨row, found, ended, newer⟩ := shelved.ended
    rw [agrees.candidates key, recordOperation]
    dsimp only
    cases attempted with
    | refused base => exact ⟨row, (base.candidates key).trans found, ended, newer⟩
    | applied base effect =>
      exact effect.ended harmless ((base.candidates key).trans found) ended newer
  · intro grant granted offered
    obtain ⟨old, foundOld, moves⟩ := evolves.origin granted
    exact shelved.unoffered old foundOld (moves.offered offered)

/-- A transaction that commits no newer `Withdraw` leaves a shelved candidate
shelved. -/
theorem StoreStep.shelved (keyed : Keyed store) (shelved : Shelved store key floor)
    (harmless : ∀ entry ∈ commits, Harmless key floor entry)
    (step : StoreStep config store commits after) : Shelved after key floor := by
  cases step with
  | commit committed =>
    exact committed.shelved keyed shelved (harmless _ (List.mem_singleton_self _))
  | challenge => exact ⟨shelved.ended, shelved.unoffered⟩
  | session =>
    obtain ⟨row, found, ended, newer⟩ := shelved.ended
    refine ⟨?_, shelved.unoffered⟩
    rw [installSession, Table.get?_modify, found, Option.map_some]
    refine ⟨_, rfl, ?_⟩
    split <;> exact ⟨ended, newer⟩
  | pass made =>
    obtain ⟨frame, _⟩ := offerTransaction_eq_ok keyed.grants keyed.candidates made
    obtain ⟨row, found, ended, newer⟩ := shelved.ended
    constructor
    · obtain ⟨new, foundNew, same⟩ := frame.candidates.lookup found
      refine ⟨new, foundNew, ?_⟩
      rw [same]
      exact ⟨ended, newer⟩
    · intro grant granted offered
      obtain before | ⟨candidate, foundCandidate, ready⟩ :=
        offered_of_pass keyed.grants keyed.candidates made granted offered
      · exact shelved.unoffered grant before offered
      · cases found.symm.trans foundCandidate
        simp [ready] at ended
  | native same => exact shelved.agrees same

theorem StoreRun.shelved (keyed : Keyed store) (shelved : Shelved store key floor)
    (harmless : ∀ entry ∈ commits, Harmless key floor entry)
    (run : StoreRun config store commits after) : Shelved after key floor := by
  induction run with
  | refl => exact shelved
  | step one _ ih =>
    have first := one.shelved keyed shelved fun entry member =>
      harmless entry (List.mem_append_left _ member)
    exact ih (one.keyed keyed) first fun entry member =>
      harmless entry (List.mem_append_right _ member)

/-- An accepted cancellation shelves its candidate. -/
theorem Committed.cancels (keyed : Keyed store)
    (asked : request.command = .cancelCandidate key revision)
    (committed : Committed config request (.accepted revision) store after) :
    Shelved after key revision := by
  have evolves := committed.evolves keyed.grants
  obtain ⟨domain, applied, _, attempted, agrees⟩ := committed
  cases attempted with
  | applied base effect =>
    cases effect with
    | upsert other | reconcileBegin other | reconcilePage other => simp [other] at asked
    | withdraw own owns found newer idle =>
      obtain ⟨own, _⟩ | ⟨own, rfl⟩ := own
      · simp [own] at asked
      · cases own.symm.trans asked
        constructor
        · rw [agrees.candidates key, recordOperation, Table.get?_set, if_pos rfl]
          exact ⟨_, rfl, .inl rfl, le_rfl⟩
        · intro grant granted
          rw [agrees.grants key] at granted
          exact idle grant granted
    | withdrawOffer own owns found newer granted offered =>
      obtain ⟨own, _⟩ | ⟨own, rfl⟩ := own
      · simp [own] at asked
      · cases own.symm.trans asked
        constructor
        · rw [agrees.candidates key, recordOperation, Table.get?_set, if_pos rfl]
          exact ⟨_, rfl, .inl rfl, le_rfl⟩
        · intro grant written
          have sameKey := keyed.grants key _ ((base.grants key).symm.trans granted)
          rw [agrees.grants key, recordOperation] at written
          dsimp only [MachineStore.withGrant] at written
          rw [writeGrant, Table.get?_update, GrantSnapshot.expire, if_pos sameKey.symm,
            Option.map_eq_some_iff] at written
          obtain ⟨_, _, rfl⟩ := written
          simp

theorem StoreRun.cancels (keyed : Keyed store)
    (asked : request.command = .cancelCandidate key revision)
    (member : (request, .accepted revision) ∈ commits)
    (harmless : ∀ entry ∈ commits, Harmless key revision entry)
    (run : StoreRun config store commits after) : Shelved after key revision := by
  induction run with
  | refl => cases member
  | step one rest ih =>
    have later := fun entry member => harmless entry (List.mem_append_right _ member)
    obtain first | others := List.mem_append.mp member
    · refine rest.shelved (one.keyed keyed) ?_ later
      cases one with
      | commit committed =>
        cases List.mem_singleton.mp first
        exact committed.cancels keyed asked
      | challenge | session | pass | native => cases first
    · exact ih (one.keyed keyed) others later

/-- One step that delivers no `Withdraw` of the allocation above the stored
revision. -/
def UndisturbedStep (config : CoordinatorConfig) (key : AllocationKey)
    (before after : Coordinator) : Prop :=
  ∃ commits, CoordinatorStep config (fun _ => True)
    (fun request => ∀ revision row, request.command = .withdraw key revision →
      before.store.candidates.get? key = some row → revision ≤ row.revision)
    before commits after

/-- Nothing but its own commits and the journal's intent happened, so one such
step leaves a shelved candidate shelved. -/
theorem Shelved.undisturbed (keyed : Keyed coordinator.store)
    (sound : PendingSound config (fun _ => True) coordinator)
    (shelved : Shelved coordinator.store key floor)
    (step : UndisturbedStep config key coordinator next) : Shelved next.store key floor := by
  obtain ⟨commits, step⟩ := step
  obtain ⟨run, _, _⟩ := step.widen.effect sound
  obtain ⟨row, found, ended, newer⟩ := shelved.ended
  have raised : Shelved coordinator.store key row.revision :=
    ⟨⟨row, found, ended, le_rfl⟩, shelved.unoffered⟩
  obtain ⟨delivered, delivers⟩ := step.delivers
  have harmless : ∀ entry ∈ commits, Harmless key row.revision entry := by
    intro entry member revision asked accepted
    obtain restores | ⟨_, admitted⟩ := delivers entry member
    · exact (restores.not_withdrawal sound accepted (.inl asked)).elim
    · exact admitted revision row asked found
  obtain ⟨⟨later, foundLater, endedLater, atLeast⟩, unoffered⟩ :=
    run.shelved keyed raised harmless
  exact ⟨⟨later, foundLater, endedLater, newer.trans atLeast⟩, unoffered⟩

theorem CoordinatorStep.keyed (keyed : Keyed coordinator.store)
    (sound : PendingSound config sent coordinator)
    (step : CoordinatorStep config allowed sent coordinator commits next) : Keyed next.store :=
  (step.effect sound).1.keyed keyed

theorem CoordinatorRun.keyed (run : CoordinatorRun config allowed sent coordinator history) :
    Keyed coordinator.store := by
  induction run with
  | start => exact .initial config
  | step earlier one ih => exact one.keyed ih earlier.sound

/-- An accepted cancellation shelves its candidate. -/
theorem CoordinatorStep.cancels (keyed : Keyed coordinator.store)
    (sound : PendingSound config sent coordinator)
    (step : CoordinatorStep config allowed sent coordinator commits next)
    (asked : request.command = .cancelCandidate key revision)
    (accepted : (request, .accepted revision) ∈ commits) : Shelved next.store key revision := by
  obtain ⟨delivered, delivers⟩ := step.delivers
  have own : delivered = some request := by
    obtain restores | ⟨own, _⟩ := delivers _ accepted
    · exact (restores.not_withdrawal sound rfl (.inr asked)).elim
    · exact own
  refine (step.effect sound).1.cancels keyed asked accepted ?_
  intro entry member other withdraws outcome
  obtain restores | ⟨same, _⟩ := delivers entry member
  · exact (restores.not_withdrawal sound outcome (.inl withdraws)).elim
  · -- The call delivered one request, which is the cancellation.
    cases same.symm.trans own
    simp [withdraws] at asked

/-- As long as no newer `Withdraw` of the allocation arrives, a candidate whose
cancellation was accepted is never ready and its allocation never has an Offer. -/
theorem canceled_candidate_never_revived {before canceled after : Coordinator}
    {history commits : List (Request × Outcome)} {request : Request} {revision : Nat}
    (run : CoordinatorRun config (fun _ => True) (fun _ => True) before history)
    (step : CoordinatorStep config (fun _ => True) (fun _ => True) before commits canceled)
    (asked : request.command = .cancelCandidate key revision)
    (accepted : (request, .accepted revision) ∈ commits)
    (later : Relation.ReflTransGen (UndisturbedStep config key) canceled after) :
    (∃ row, after.store.candidates.get? key = some row ∧ row.state ≠ .ready) ∧
      ∀ grant, after.store.grants.get? key = some grant → grant.snapshot.state ≠ .offered := by
  have held : Keyed after.store ∧ PendingSound config (fun _ => True) after ∧
      Shelved after.store key revision := by
    induction later with
    | refl =>
      exact ⟨step.keyed run.keyed run.sound, (step.effect run.sound).2.2,
        step.cancels run.keyed run.sound asked accepted⟩
    | tail _ last ih =>
      obtain ⟨keyed, sound, shelved⟩ := ih
      obtain ⟨commits, one⟩ := last
      have wide := one.widen
      exact ⟨wide.keyed keyed sound, (wide.effect sound).2.2,
        shelved.undisturbed keyed sound ⟨commits, one⟩⟩
  obtain ⟨_, _, ⟨row, found, ended, _⟩, unoffered⟩ := held
  refine ⟨⟨row, found, ?_⟩, unoffered⟩
  intro ready
  simp [ready] at ended

/-! ## A canceled candidate with a later Withdraw -/

/-- The candidate of allocation 40 of domain 6. -/
def soloKey : AllocationKey := ⟨3, 2, 6, 8, 40⟩

def soloCandidate (revision : Nat) : Candidate :=
  ⟨soloKey, .work ⟨8, 41⟩ ⟨8, 42⟩, revision, 0, ⟨Table.empty.set "cpu_units" 2, [], [], []⟩,
    demoDigest, none, none⟩

/-- The exchange of the operation with this sequence. -/
def soloServed (coordinator : Coordinator) (operation : Nat × Command) : CallResult Reply :=
  machineExchange soloConfig soloInput
    ⟨soloSession, operation.1, 11 + operation.1, operation.2⟩ coordinator

/-- The domain reconciles an empty inventory and queues its candidate. -/
def soloQueued : Coordinator :=
  [(1, Command.reconcileBegin 20 0 0 0 [] demoDigest), (2, .reconcileCommit 20),
      (3, .candidateUpsert (soloCandidate 1))].foldl
    (fun coordinator operation => (soloServed coordinator operation).coordinator)
    soloConnected.coordinator

def soloCanceled : CallResult Reply := soloServed soloQueued (4, .cancelCandidate soloKey 2)

theorem soloQueued_run : ∃ history, CoordinatorRun soloConfig (fun _ => True) (fun _ => True)
    soloQueued history := by
  have challenged : CoordinatorRun soloConfig (fun _ => True) (fun _ => True)
      soloChallenged.coordinator ([] ++ soloChallenged.commits) :=
        .step .start (.connectBegin trivial)
  have connected : CoordinatorRun soloConfig (fun _ => True) (fun _ => True)
      soloConnected.coordinator ([] ++ soloChallenged.commits ++ soloConnected.commits) :=
    .step challenged (.connectFinish trivial)
  exact ⟨_, .step (.step (.step connected (.exchange trivial trivial)) (.exchange trivial trivial))
    (.exchange trivial trivial)⟩

/-- The candidate is proposed again, under a newer revision. -/
def soloProposed : CallResult Reply :=
  soloServed soloCanceled.coordinator (5, .candidateUpsert (soloCandidate 3))

/-- An admission pass at time 0, which offers Grant 50 under nonce 51. -/
def soloOffers (coordinator : Coordinator) : StoreResult (Option OfferResult) :=
  machineOfferBeforeNative soloConfig (false || coordinator.journal.blocked)
    ⟨0, none, fun _ => ⟨50, 51⟩⟩ ⟨[], []⟩ coordinator.store

def soloPass (coordinator : Coordinator)
    (made : (soloOffers coordinator).toOption.join.isSome = true) : Coordinator :=
  ⟨((soloOffers coordinator).toOption.join.get made).store, coordinator.journal⟩

theorem soloPass_step (made : (soloOffers coordinator).toOption.join.isSome = true) :
    CoordinatorStep soloConfig (fun _ => True) sent coordinator [] (soloPass coordinator made) := by
  have offers : soloOffers coordinator =
      .ok (some ((soloOffers coordinator).toOption.join.get made)) := by
    generalize soloOffers coordinator = offers at made ⊢
    match offers, made with
    | .ok (some result), _ => rfl
  exact .offers offers

def soloOffered : Coordinator := soloPass soloQueued (by decide +kernel)

def soloClosed : Coordinator := soloPass soloProposed.coordinator (by decide +kernel)

/-- The canceled candidate refuses the proposal, and the next admission pass offers
nothing to it. -/
theorem soloKey_canceled :
    (∃ code detail, soloProposed.commits.map Prod.snd = [.rejected code detail]) ∧
      (∃ row, soloClosed.store.candidates.get? soloKey = some row ∧ row.state ≠ .ready) ∧
      ∀ grant, soloClosed.store.grants.get? soloKey = some grant →
        grant.snapshot.state ≠ .offered := by
  obtain ⟨history, run⟩ := soloQueued_run
  have proposed : UndisturbedStep soloConfig soloKey soloCanceled.coordinator
      soloProposed.coordinator := by
    refine ⟨_, .exchange trivial ?_⟩
    intro revision row asked
    cases asked
  have later := (Relation.ReflTransGen.single proposed).tail ⟨_, soloPass_step (by decide +kernel)⟩
  refine ⟨⟨"stale", "candidate revision was withdrawn or retired", by decide +kernel⟩, ?_⟩
  exact canceled_candidate_never_revived run (.exchange trivial trivial) rfl
    (by decide +kernel : (⟨soloSession, 4, 15, .cancelCandidate soloKey 2⟩, .accepted 2) ∈
      soloCanceled.commits) later

/-- The candidate is withdrawn with a newer revision and offered again. -/
def soloRevived : Coordinator :=
  [(5, Command.withdraw soloKey 3), (6, .candidateUpsert (soloCandidate 4))].foldl
    (fun coordinator operation => (soloServed coordinator operation).coordinator)
    soloCanceled.coordinator

def soloOfferedAgain : Coordinator := soloPass soloRevived (by decide +kernel)

theorem canceled_candidate_revived : ∃ before canceled after history commits request revision,
    CoordinatorRun soloConfig (fun _ => True) (fun _ => True) before history ∧
      CoordinatorStep soloConfig (fun _ => True) (fun _ => True) before commits canceled ∧
      request.command = .cancelCandidate soloKey revision ∧
      (request, .accepted revision) ∈ commits ∧
      Relation.ReflTransGen (fun earlier later => ∃ commits,
        CoordinatorStep soloConfig (fun _ => True) (fun _ => True) earlier commits later)
        canceled after ∧
      (∃ row, after.store.candidates.get? soloKey = some row ∧ row.state = .ready) ∧
      ∃ grant, after.store.grants.get? soloKey = some grant ∧ grant.snapshot.state = .offered := by
  obtain ⟨history, run⟩ := soloQueued_run
  have computed : (((soloOfferedAgain.store.candidates.get? soloKey).any fun row =>
      row.state = .ready) && (soloOfferedAgain.store.grants.get? soloKey).any fun grant =>
        grant.snapshot.state = .offered) = true := by
    decide +kernel
  simp only [Bool.and_eq_true, Option.any_eq_true, decide_eq_true_eq] at computed
  refine ⟨soloQueued, soloCanceled.coordinator, soloOfferedAgain, history,
    soloCanceled.commits, ⟨soloSession, 4, 15, .cancelCandidate soloKey 2⟩, 2, run,
    .exchange trivial trivial, rfl, by decide +kernel, ?_, computed⟩
  have withdrawn : Relation.ReflTransGen (fun earlier later => ∃ commits,
      CoordinatorStep soloConfig (fun _ => True) (fun _ => True) earlier commits later)
      soloCanceled.coordinator soloRevived :=
    (Relation.ReflTransGen.single ⟨_, .exchange trivial trivial⟩).tail
      ⟨_, .exchange trivial trivial⟩
  exact withdrawn.tail ⟨_, soloPass_step (by decide +kernel)⟩

end Stillyard
