import Stillyard.Submission.Atomicity

/-!
# Submissions are idempotent

A client may repeat a request or ask what became of it, before and after any
restart of the daemon.  Every answer that names Jobs names the same ones, a
request with another payload is refused, and a rejection is final.
-/

namespace Stillyard

open Relational Fallible

namespace SubmissionEvent

/-- A client asks about the submission of a row, with this hash of the
payload. -/
def Asks (event : SubmissionEvent) (row : SubmissionRow) (payloadHash : String) : Prop :=
  match event with
  | .submit _ request _ => row.scope = request.scope.key ∧
      row.idempotencyKey = request.idempotencyKey ∧ request.payloadHash = payloadHash
  | .recover _ scope idempotencyKey requested _ => row.scope = scope.key ∧
      row.idempotencyKey = idempotencyKey ∧ requested = payloadHash
  | .stop .. | .restart .. | .work => False

/-- A client learns the Jobs of the submission under a key. -/
def Names (event : SubmissionEvent) (scope : Option (Uuid × Uuid)) (idempotencyKey : Uuid)
    (jobs : List Uuid) : Prop :=
  match event with
  | .submit _ request response => request.scope.key = scope ∧
      request.idempotencyKey = idempotencyKey ∧ response = .submitted jobs
  | .recover _ asked requested _ result => asked.key = scope ∧ requested = idempotencyKey ∧
      result = .ok (.accepted jobs)
  | .stop .. | .restart .. | .work => False

/-- A client learns that the submission was rejected. -/
def Rejects (event : SubmissionEvent) (code detail : String) : Prop :=
  match event with
  | .submit _ _ response => response = .submissionRejected code detail
  | .recover _ _ _ _ result => result = .ok (.rejected code detail)
  | .stop .. | .restart .. | .work => False

/-- A client learns that its payload is not the retained one, or that the
request is invalid in itself. -/
def Refuses (event : SubmissionEvent) (retained requested : String) : Prop :=
  match event with
  | .submit call request response =>
    response = .failed (.idempotencyConflict retained requested) ∨
      ∃ error, SubmissionStore.checkRequest call request = .error error ∧
        response = .failed error
  | .recover _ _ _ _ result => result = .ok (.conflict retained requested)
  | .stop .. | .restart .. | .work => False

end SubmissionEvent

namespace SubmissionStore

variable {store next : SubmissionStore} {call : SubmissionCall} {request : SubmitRequest}
  {id : Uuid} {row : SubmissionRow}
variable {idempotencyKey : Uuid} {payloadHash code detail : String} {scope : Option (Uuid × Uuid)}
variable {jobs : List Uuid} {target : Target} {result : SubmitResult} {event : SubmissionEvent}

theorem Sound.findSubmission (sound : store.Sound) (found : store.submissions.get? id = some row)
    {scope : SubmissionScope} (inScope : row.scope = scope.key)
    (keyed : row.idempotencyKey = idempotencyKey) :
    store.findSubmission scope idempotencyKey = some (id, row) := by
  cases located : store.findSubmission scope idempotencyKey with
  | none => exact absurd keyed (findSubmission_eq_none located found inScope)
  | some entry =>
    obtain ⟨other, copy⟩ := entry
    obtain ⟨present, belongs, same⟩ := findSubmission_eq_some located
    have equal := sound.unique id other row copy found present (belongs.trans inScope.symm)
      (same.trans keyed.symm)
    subst equal
    cases found.symm.trans present
    rfl

theorem checkRequest_eq_ok (checked : checkRequest call request = .ok payloadHash) :
    request.payloadHash = payloadHash := by
  simp only [checkRequest, ok_iff, decide_eq_true_eq] at checked
  obtain ⟨_, _, _, _, _, _, _, same, rfl⟩ := checked
  exact same

theorem respond_of_conflict (found : store.findSubmission request.scope request.idempotencyKey =
    some (id, row)) (different : row.payloadHash ≠ request.payloadHash) :
    (store.respond call request).1 = store ∧
      ((store.respond call request).2 =
          .failed (.idempotencyConflict row.payloadHash request.payloadHash) ∨
        ∃ error, checkRequest call request = .error error ∧
          (store.respond call request).2 = .failed error) := by
  have recovered : store.recoverSubmission call request.scope request.idempotencyKey
      request.payloadHash = .ok (.conflict row.payloadHash request.payloadHash) := by
    simp [recoverSubmission, found, different]
  cases checked : checkRequest call request with
  | error error => simp [respond, submit, checked, recovered]
  | ok payloadHash =>
    cases checkRequest_eq_ok checked
    simp [respond, submit, checked, found, repeatSubmission, different, recovered]

theorem respond_of_rejected (found : store.findSubmission request.scope request.idempotencyKey =
    some (id, row)) (rejected : row.state = .rejected)
    (same : request.payloadHash = row.payloadHash) (coded : row.rejectCode = some code)
    (detailed : row.rejectDetail = some detail) :
    store.respond call request = (store, .submissionRejected code detail) := by
  have recovered : store.recoverSubmission call request.scope request.idempotencyKey
      request.payloadHash = .ok (.rejected code detail) := by
    simp [recoverSubmission, found, same, rejected, coded, detailed]
  -- Whatever the error is, it leaves the store alone and the retained decision is answered.
  have failed : ∃ error, store.submit call request = (store, .error error) := by
    cases checked : checkRequest call request with
    | error error => exact ⟨error, by simp [submit, checked]⟩
    | ok payloadHash =>
      by_cases conflict : row.payloadHash ≠ payloadHash ∨
          row.payload.isBatch ≠ request.payload.isBatch
      · simp only [submit, checked, found, repeatSubmission, if_pos conflict]
        exact ⟨_, rfl⟩
      · simp only [submit, checked, found, repeatSubmission, if_neg conflict, rejected]
        exact ⟨_, rfl⟩
  obtain ⟨error, failed⟩ := failed
  simp [respond, failed, recovered]

/-! ## Jobs that are named -/

/-- The submission under a key was accepted and has these Jobs. -/
def HasJobs (store : SubmissionStore) (scope : Option (Uuid × Uuid)) (idempotencyKey : Uuid)
    (jobs : List Uuid) : Prop :=
  ∃ id row, store.submissions.get? id = some row ∧ row.scope = scope ∧
    row.idempotencyKey = idempotencyKey ∧ row.state = .accepted ∧ store.submissionJobs id = jobs

theorem HasJobs.run {later : SubmissionStore} (has : store.HasJobs scope idempotencyKey jobs)
    (run : store.Run later) : later.HasJobs scope idempotencyKey jobs := by
  obtain ⟨id, row, found, belongs, keyed, accepted, names⟩ := has
  obtain ⟨still, same⟩ := run.keepsDecisions id row found (by simp [accepted])
  exact ⟨id, row, still, belongs, keyed, accepted, same.trans names⟩

theorem HasJobs.unique (sound : store.Sound) (has : store.HasJobs scope idempotencyKey jobs)
    (also_ : store.HasJobs scope idempotencyKey others) : others = jobs := by
  obtain ⟨id, row, found, belongs, keyed, _, rfl⟩ := has
  obtain ⟨other, copy, listed, sameScope, sameKey, _, rfl⟩ := also_
  rw [sound.unique id other row copy found listed (sameScope.trans belongs.symm)
    (sameKey.trans keyed.symm)]

theorem receiptOf_eq_ok (done : store.receiptOf call target = .ok jobs) :
    store.named target = jobs := by
  cases target with
  | job id =>
    simp only [receiptOf, receipt, ok_iff] at done
    obtain ⟨_, _, _, _, rfl⟩ := done
    rfl
  | batch id =>
    simp only [receiptOf, batchReceipt, ok_iff] at done
    obtain ⟨_, _, _, _, rfl⟩ := done
    rfl

theorem records_unique (records : row.Records target) (also_ : row.Records other) :
    other = target := by
  cases target <;> cases other <;> simp_all [SubmissionRow.Records]

/-- The receipt of what an accepted row refers to names the Jobs of the
submission. -/
theorem Sound.receiptOf (sound : store.Sound) (found : store.submissions.get? id = some row)
    (accepted : row.state = .accepted) (records : row.Records target)
    (done : store.receiptOf call target = .ok jobs) : store.submissionJobs id = jobs := by
  obtain ⟨other, also_, names⟩ := (sound.decided id row found).recorded accepted
  cases records_unique records also_
  rw [← names, receiptOf_eq_ok done]

theorem target_eq_ok (done : SubmissionStore.target row = .ok target) : row.Records target := by
  unfold SubmissionStore.target at done
  split at done
  next batch =>
    simp only [map_eq_ok, orError_eq_ok] at done
    obtain ⟨_, recorded, rfl⟩ := done
    exact ⟨batch, recorded⟩
  next single =>
    simp only [map_eq_ok, orError_eq_ok] at done
    obtain ⟨_, recorded, rfl⟩ := done
    exact ⟨by simpa using single, recorded⟩

theorem acceptedReceipt_eq_ok (sound : store.Sound) (found : store.submissions.get? id = some row)
    (accepted : row.state = .accepted) (done : store.acceptedReceipt call row = .ok jobs) :
    store.submissionJobs id = jobs := by
  simp only [acceptedReceipt, bind_eq_ok] at done
  obtain ⟨target, read, receipt⟩ := done
  exact sound.receiptOf found accepted (target_eq_ok read) receipt

theorem record_records (kind : target.batchId.isSome = row.payload.isBatch) :
    (target.record generation row).state = .accepted ∧
      (target.record generation row).Records target := by
  cases target with
  | job | batch => exact ⟨rfl, kind.symm, rfl⟩

variable (sound : store.Sound)

include sound

variable (found : store.submissions.get? id = some row)

include found in
/-- A decision that answers with Jobs. -/
theorem acceptReceived_hasJobs {scope : SubmissionScope} {wait : Bool}
    (done : store.acceptReceived call id row.payload scope wait = (next, .ok result)) :
    next.HasJobs row.scope row.idempotencyKey result.jobs := by
  have moves : SubmissionMoves (fun _ _ => True) store
      (store.acceptReceived call id row.payload scope wait).1 :=
    acceptReceived_moves trivial found rfl
  rw [done] at moves
  have kept := sound.moves moves
  obtain ⟨new, still, keeps⟩ := moves.keeps found
  suffices accepted : new.state = .accepted ∧ next.submissionJobs id = result.jobs by
    exact ⟨id, new, still, keeps.scope, keeps.idempotencyKey, accepted.1, accepted.2⟩
  unfold acceptReceived at done
  split at done
  next after target isNew accepted =>
    simp only [Prod.mk.injEq, map_eq_ok] at done
    obtain ⟨rfl, jobs, receipt, rfl⟩ := done
    cases acceptPayload_eq_ok accepted with
    | @known old _ present accepted recorded kind =>
      cases found.symm.trans present
      cases found.symm.trans still
      have records : row.Records target := by
        cases target with
        | job | batch => exact ⟨kind.symm, recorded⟩
      exact ⟨accepted, sound.receiptOf found accepted records receipt⟩
    | created creates =>
      have written : after.submissions.get? id =
          some (target.record call.daemon.daemonGeneration row) := by
        rw [creates.submissions, Table.get?_update, if_pos rfl, found]
        rfl
      cases still.symm.trans written
      obtain ⟨accepted, records⟩ := record_records creates.kind
      exact ⟨accepted, kept.receiptOf still accepted records receipt⟩
  next => cases done
  next => cases done

include found in
theorem repeatSubmission_hasJobs
    (done : store.repeatSubmission call request payloadHash id row = (next, .ok result)) :
    next.HasJobs row.scope row.idempotencyKey result.jobs := by
  unfold repeatSubmission at done
  split at done
  next => cases done
  next =>
    split at done
    next accepted =>
      simp only [Prod.mk.injEq, map_eq_ok] at done
      obtain ⟨rfl, jobs, receipt, rfl⟩ := done
      exact ⟨id, row, found, rfl, rfl, accepted, acceptedReceipt_eq_ok sound found accepted receipt⟩
    next =>
      have noted : SubmissionMoves (fun _ _ => True) store (store.noteWait id row
          (row.waitIntent || request.waitForCompletion)) := noteWait_moves id row _
      obtain ⟨new, present, kept⟩ := noted.keeps found
      rw [← kept.payload] at done
      rw [← kept.scope, ← kept.idempotencyKey]
      exact acceptReceived_hasJobs (sound.moves noted) present done
    next => cases done

theorem submit_hasJobs (done : store.submit call request = (next, .ok result)) :
    next.HasJobs request.scope.key request.idempotencyKey result.jobs := by
  unfold submit at done
  split at done
  next => cases done
  next payloadHash checked =>
    split at done
    next id row located =>
      obtain ⟨found, belongs, keyed⟩ := findSubmission_eq_some located
      rw [← belongs, ← keyed]
      exact repeatSubmission_hasJobs sound found done
    next absent =>
      split at done
      next => cases done
      next id received retained =>
        have kept := sound.receive absent retained
        obtain ⟨_, _, rfl⟩ := receive_eq_ok retained
        have stored : (store.submissions.set id (receivedRow call request payloadHash)).get? id =
            some (receivedRow call request payloadHash) := by simp
        exact acceptReceived_hasJobs kept stored done

/-- An answer that names Jobs names those of the submission. -/
theorem hasJobs_of_names (step : SubmissionStep store event next)
    (names : event.Names scope idempotencyKey jobs) : next.HasJobs scope idempotencyKey jobs := by
  cases step with
  | submit call request =>
    obtain ⟨rfl, rfl, answered⟩ := names
    cases done : store.submit call request with
    | mk after outcome =>
      cases outcome with
      | ok result =>
        simp only [respond, done] at answered ⊢
        cases answered
        exact submit_hasJobs sound done
      | error error =>
        simp only [respond, done] at answered
        split at answered <;> cases answered
  | recover call asked requested payloadHash =>
    obtain ⟨rfl, rfl, answered⟩ := names
    unfold recoverSubmission at answered
    split at answered
    next =>
      split at answered
      · cases answered
      · split at answered <;> cases answered
    next id row located =>
      obtain ⟨found, belongs, keyed⟩ := findSubmission_eq_some located
      split at answered
      next => cases answered
      next =>
        split at answered
        next => cases answered
        next accepted =>
          simp only [map_eq_ok, RecoveryResult.accepted.injEq] at answered
          obtain ⟨_, receipt, rfl⟩ := answered
          exact ⟨id, row, found, belongs, keyed, accepted,
            acceptedReceipt_eq_ok sound found accepted receipt⟩
        next => cases answered
  | stop | restart | work => cases names

include found in
/-- A request or a recovery with another payload changes nothing. -/
theorem refuses_of_asks (step : SubmissionStep store event next) (asks : event.Asks row payloadHash)
    (different : row.payloadHash ≠ payloadHash) :
    next = store ∧ event.Refuses row.payloadHash payloadHash := by
  cases step with
  | submit call request =>
    obtain ⟨belongs, keyed, rfl⟩ := asks
    exact respond_of_conflict (sound.findSubmission found belongs keyed) different
  | recover call scope idempotencyKey requested =>
    obtain ⟨belongs, keyed, rfl⟩ := asks
    have located := sound.findSubmission found belongs keyed
    exact ⟨rfl, by simp [SubmissionEvent.Refuses, recoverSubmission, located, different]⟩
  | stop | restart | work => cases asks

include found in
/-- A request or a recovery for a rejected submission learns its rejection. -/
theorem rejects_of_asks (rejected : row.state = .rejected) (coded : row.rejectCode = some code)
    (detailed : row.rejectDetail = some detail) (step : SubmissionStep store event next)
    (asks : event.Asks row row.payloadHash) : next = store ∧ event.Rejects code detail := by
  cases step with
  | submit call request =>
    obtain ⟨belongs, keyed, same⟩ := asks
    have answer := @respond_of_rejected store call request id row code detail
      (sound.findSubmission found belongs keyed) rejected same coded detailed
    exact ⟨by rw [answer], by rw [answer]; rfl⟩
  | recover call scope idempotencyKey requested =>
    obtain ⟨belongs, keyed, rfl⟩ := asks
    have located := sound.findSubmission found belongs keyed
    exact ⟨rfl, by
      simp [SubmissionEvent.Rejects, recoverSubmission, located, rejected, coded, detailed]⟩
  | stop | restart | work => cases asks

/-- A Job belongs to an accepted submission. -/
theorem Sound.accepted (found : store.origins.get? job = some origin) :
    ∃ row, store.submissions.get? origin.submissionId = some row ∧ row.state = .accepted := by
  obtain ⟨row, owner⟩ := sound.owned job origin found
  refine ⟨row, owner, ?_⟩
  by_contra undecided
  have none_ := (sound.decided origin.submissionId row owner).undecided undecided
  rw [submissionJobs, Table.select, List.filterMap_eq_nil_iff] at none_
  simpa using none_ (job, origin) (Table.mem_rows.mpr found)

end SubmissionStore

/-- Submissions are idempotent and atomic in every run. -/
theorem submissions_idempotent_and_atomic {store : SubmissionStore} (reached : store.Reached) :
    -- A submission has all its Jobs with their dependencies, or none.
    (∀ id row, store.submissions.get? id = some row → store.Decided id row) ∧
    (∀ job origin, store.origins.get? job = some origin →
      ∃ row, store.submissions.get? origin.submissionId = some row ∧ row.state = .accepted) ∧
    -- There is one submission under a key, and its Jobs are created once.
    (∀ id other row copy, store.submissions.get? id = some row →
      store.submissions.get? other = some copy → copy.scope = row.scope →
      copy.idempotencyKey = row.idempotencyKey → other = id) ∧
    (∀ later, store.Run later → store.KeepsDecisions later) ∧
    -- Every answer that names Jobs names those of the submission, so all name the same.
    (∀ event next scope idempotencyKey jobs, SubmissionStep store event next →
      event.Names scope idempotencyKey jobs → next.HasJobs scope idempotencyKey jobs ∧
        ∀ later further after others, next.Run later → SubmissionStep later further after →
          further.Names scope idempotencyKey others → others = jobs) ∧
    -- Another payload under the key is refused.
    (∀ id row event next payloadHash, store.submissions.get? id = some row →
      SubmissionStep store event next → event.Asks row payloadHash →
      row.payloadHash ≠ payloadHash →
      next = store ∧ event.Refuses row.payloadHash payloadHash) ∧
    -- A rejection is final and every later answer repeats it.
    (∀ id row, store.submissions.get? id = some row → row.state = .rejected →
      ∃ code detail, row.rejectCode = some code ∧ row.rejectDetail = some detail ∧
        ∀ later, store.Run later → later.submissionJobs id = [] ∧
          ∀ event next, SubmissionStep later event next → event.Asks row row.payloadHash →
            next = later ∧ event.Rejects code detail) := by
  have sound := reached.sound
  refine ⟨sound.decided, fun _ _ => sound.accepted, sound.unique,
    fun _ run => run.keepsDecisions, ?_, ?_, ?_⟩
  · intro event next scope idempotencyKey jobs step names
    have has := SubmissionStore.hasJobs_of_names sound step names
    refine ⟨has, ?_⟩
    intro later further after others run again renamed
    have continued : store.Run later := .head ⟨event, step⟩ run
    have reachedLater : later.Reached := reached.trans continued
    have soundLater := reachedLater.sound
    have soundAfter := soundLater.moves again.moves
    have also_ := SubmissionStore.hasJobs_of_names soundLater again renamed
    exact (has.run (run.tail ⟨further, again⟩)).unique soundAfter also_
  · intro id row event next payloadHash found step asks different
    exact SubmissionStore.refuses_of_asks sound found step asks different
  · intro id row found rejected
    obtain ⟨code, detail, coded, detailed⟩ := (sound.decided id row found).rejected rejected
    refine ⟨code, detail, coded, detailed, ?_⟩
    intro later run
    obtain ⟨still, jobs⟩ := run.keepsDecisions id row found (by simp [rejected])
    constructor
    · rw [jobs]
      exact (sound.decided id row found).undecided (by simp [rejected])
    · intro event next step asks
      have reachedLater : later.Reached := reached.trans run
      exact SubmissionStore.rejects_of_asks reachedLater.sound still rejected coded detailed step
        asks

/-- Two Jobs, of which one waits for the other. -/
def buildBatch : SubmitRequest :=
  ⟨.unmanaged, 6, "hash", .batch [⟨"build", cpuSpec 2 [] none, []⟩,
    ⟨"test", cpuSpec 3 [] none, [⟨"build", .success⟩]⟩] .empty, false⟩

/-- A Job whose fence is not absolute. -/
def fencedRequest : SubmitRequest := cpuRequest .unmanaged 7 (cpuSpec 1 ["work"] none)

/-- A store in which a Job, a batch and a Job with a bad fence were submitted. -/
def submittedOnce : SubmissionStore :=
  [cpuRequest .unmanaged 5 (cpuSpec 1 [] none), buildBatch, fencedRequest].foldl
    (fun store request => (store.respond plainCall request).1) (.initial 9)

theorem submittedOnce_reached : submittedOnce.Reached :=
  .next (.next (.next (.start ⟨9, rfl⟩)
    ⟨_, .submit _ plainCall (cpuRequest .unmanaged 5 (cpuSpec 1 [] none))⟩)
    ⟨_, .submit _ plainCall buildBatch⟩) ⟨_, .submit _ plainCall fencedRequest⟩

theorem repeated_request_names_the_same_job :
    (submittedOnce.respond plainCall (cpuRequest .unmanaged 5 (cpuSpec 1 [] none))).2 =
        .submitted [2] ∧
      (submittedOnce.respond plainCall buildBatch).2 = .submitted [6, 7] ∧
      ∀ later, submittedOnce.Run later →
        later.submissionJobs 1 = [2] ∧ later.submissionJobs 4 = [6, 7] ∧
        later.respond plainCall fencedRequest = (later, .submissionRejected "rejected"
          "Linux fences require absolute UTF-8 paths without parent traversal") := by
  refine ⟨by decide +kernel, by decide +kernel, fun later run => ?_⟩
  obtain ⟨_, _, _, kept, _, _, rejections⟩ :=
    submissions_idempotent_and_atomic submittedOnce_reached
  have same : ∀ id ∈ [1, 4], later.submissionJobs id = submittedOnce.submissionJobs id := by
    intro id listed
    have stored : ∀ id ∈ [1, 4], (submittedOnce.submissions.get? id).any
        (fun row => row.state ≠ .received) = true := by decide +kernel
    obtain ⟨row, found, decided⟩ := (Option.any_eq_true _ _).mp (stored id listed)
    exact (kept later run id row found (of_decide_eq_true decided)).2
  refine ⟨(same 1 (by simp)).trans (by decide +kernel),
    (same 4 (by simp)).trans (by decide +kernel), ?_⟩
  have stored : (submittedOnce.submissions.get? 8).any (fun row => row.state = .rejected &&
      row.rejectCode = some "rejected" && row.rejectDetail =
        some "Linux fences require absolute UTF-8 paths without parent traversal" &&
      row.scope = fencedRequest.scope.key && row.idempotencyKey = 7 &&
      row.payloadHash = "hash") = true := by decide +kernel
  obtain ⟨row, found, facts⟩ := (Option.any_eq_true _ _).mp stored
  simp only [Bool.and_eq_true, decide_eq_true_eq] at facts
  obtain ⟨⟨⟨⟨⟨rejected, reason⟩, text⟩, scope⟩, keyed⟩, hashed⟩ := facts
  obtain ⟨code, detail, coded, detailed, answers⟩ := rejections 8 row found rejected
  obtain rfl := Option.some.inj (reason.symm.trans coded)
  obtain rfl := Option.some.inj (text.symm.trans detailed)
  obtain ⟨unchanged, answer⟩ := (answers later run).2 _ _ (.submit later plainCall fencedRequest)
    ⟨scope, keyed, hashed.symm⟩
  exact Prod.ext unchanged answer

end Stillyard
