import Stillyard.Lib.Transition
import Stillyard.Submission.Effects

/-!
# Runs of a store with submissions

Requests and recoveries come in any order.  The daemon may stop between the
transactions of a request, and decides the received submissions when it starts
again, one after the other.  In between it runs the Jobs; of that work only what
it never touches is used here.

Every step is a sequence of moves on the retained submissions, and the
invariants are proved for the moves.
-/

namespace Stillyard

open Relational Fallible

/-- The work of the daemon on its Jobs: their specifications, names and
dependencies stay, and no Job is created or removed. -/
structure NativeStore.Works (before after : NativeStore) : Prop where
  jobs : Table.Evolves (fun _ old new => new.spec = old.spec ∧ new.batchMember = old.batchMember ∧
    new.batchIndex = old.batchIndex) before.jobs after.jobs
  dependencies : after.dependencies = before.dependencies
  nextUuid : before.nextUuid ≤ after.nextUuid

/-- What happens to a store. -/
inductive SubmissionEvent where
  /-- A request was answered. -/
  | submit (call : SubmissionCall) (request : SubmitRequest) (response : Response)
  /-- A recovery was answered. -/
  | recover (call : SubmissionCall) (scope : SubmissionScope) (idempotencyKey : Uuid)
      (payloadHash : String) (result : StoreResult RecoveryResult)
  /-- The daemon stopped after the first transaction of a request. -/
  | stop (call : SubmissionCall) (request : SubmitRequest)
  /-- The daemon started and decided this many received submissions. -/
  | restart (calls : Uuid → SubmissionCall) (count : Nat)
  /-- The daemon worked on its Jobs. -/
  | work

/-- The steps of a store. -/
inductive SubmissionStep : SubmissionStore → SubmissionEvent → SubmissionStore → Prop where
  | submit (store : SubmissionStore) (call : SubmissionCall) (request : SubmitRequest) :
      SubmissionStep store (.submit call request (store.respond call request).2)
        (store.respond call request).1
  | recover (store : SubmissionStore) (call : SubmissionCall) (scope : SubmissionScope)
      (idempotencyKey : Uuid) (payloadHash : String) :
      SubmissionStep store (.recover call scope idempotencyKey payloadHash
        (store.recoverSubmission call scope idempotencyKey payloadHash)) store
  | stop (store : SubmissionStore) (call : SubmissionCall) (request : SubmitRequest) :
      SubmissionStep store (.stop call request) (store.stopped call request)
  | restart (store : SubmissionStore) (calls : Uuid → SubmissionCall) (count : Nat) :
      SubmissionStep store (.restart calls count)
        (SubmissionStore.resumeRows calls store (store.receivedSubmissions.take count)).1
  | work (store : SubmissionStore) {native : NativeStore}
      (processes : Table Uuid InvocationProcess) (works : store.native.Works native) :
      SubmissionStep store .work { store with native, processes }

/-- Some step leads from one store to the other. -/
def SubmissionStore.Steps (before after : SubmissionStore) : Prop :=
  ∃ event, SubmissionStep before event after

/-- A run. -/
def SubmissionStore.Run : SubmissionStore → SubmissionStore → Prop :=
  Relation.ReflTransGen SubmissionStore.Steps

/-- The tables of a new store. -/
def SubmissionStore.initial (storeUuid : Uuid) : SubmissionStore where
  storeUuid
  native := .initial
  origins := .empty
  processes := .empty
  submissions := .empty
  batches := .empty

/-- A store in some run. -/
def SubmissionStore.Reached : SubmissionStore → Prop :=
  Transition.Reachable (fun store => ∃ storeUuid, store = .initial storeUuid)
    SubmissionStore.Steps

/-- The calls with which an event may decide a submission. -/
def SubmissionEvent.Decides (event : SubmissionEvent) (submission : Uuid)
    (call : SubmissionCall) : Prop :=
  match event with
  | .submit used _ _ => call = used
  | .restart calls _ => call = calls submission
  | .recover .. | .stop .. | .work => False

/-! ## Moves -/

/-- The elementary changes.  An acceptance is made with a call of the event that
it belongs to, and the work on Jobs is no part of an event that decides. -/
inductive SubmissionMove (decides : Uuid → SubmissionCall → Prop) :
    SubmissionStore → SubmissionStore → Prop where
  | receive {store next : SubmissionStore} {call : SubmissionCall} {request : SubmitRequest}
      {payloadHash : String} {id : Uuid}
      (absent : store.findSubmission request.scope request.idempotencyKey = none)
      (received : store.receive call request payloadHash = .ok (id, next)) :
      SubmissionMove decides store next
  | noteWait (store : SubmissionStore) (id : Uuid) :
      SubmissionMove decides store (store.updateSubmission id fun row =>
        if row.state = .received then { row with waitIntent := true } else row)
  | reject (store : SubmissionStore) (id : Uuid) (code detail : String) :
      SubmissionMove decides store (store.rejectReceivedWith id code detail)
  | accept {store next : SubmissionStore} {call : SubmissionCall} {id : Uuid}
      {row : SubmissionRow} {scope : SubmissionScope} {target : Target}
      {entries : List (ResolvedJob × Option ManagedPolicyAdmissionSnapshot)}
      (decided : decides id call) (found : store.submissions.get? id = some row)
      (creates : Creates call id row.payload scope target entries store next) :
      SubmissionMove decides store next
  | work (store : SubmissionStore) {native : NativeStore}
      (idle : ∀ id call, ¬decides id call)
      (processes : Table Uuid InvocationProcess) (works : store.native.Works native) :
      SubmissionMove decides store { store with native, processes }

/-- What is never changed in a retained submission, and that a decision is
final. -/
structure SubmissionRow.Keeps (before after : SubmissionRow) : Prop where
  scope : after.scope = before.scope
  idempotencyKey : after.idempotencyKey = before.idempotencyKey
  payloadHash : after.payloadHash = before.payloadHash
  payload : after.payload = before.payload
  decided : before.state ≠ .received → after = before

theorem SubmissionRow.Keeps.refl (row : SubmissionRow) : row.Keeps row :=
  ⟨rfl, rfl, rfl, rfl, fun _ => rfl⟩

theorem SubmissionRow.Keeps.trans {first : SubmissionRow} (earlier : first.Keeps second)
    (later : second.Keeps third) : first.Keeps third where
  scope := later.scope.trans earlier.scope
  idempotencyKey := later.idempotencyKey.trans earlier.idempotencyKey
  payloadHash := later.payloadHash.trans earlier.payloadHash
  payload := later.payload.trans earlier.payload
  decided final := by
    have same := earlier.decided final
    rw [← same] at final
    rw [later.decided final, same]

section Moves

variable {decides : Uuid → SubmissionCall → Prop} {store next : SubmissionStore}
variable {id : Uuid} {row : SubmissionRow} {call : SubmissionCall} {scope : SubmissionScope}

/-- A change of one received row keeps what has to be kept. -/
theorem keeps_updateSubmission
    (changes : ∀ old, store.submissions.get? id = some old → old.Keeps (change old))
    (found : store.submissions.get? other = some row) :
    ∃ new, (store.updateSubmission id change).submissions.get? other = some new ∧
      row.Keeps new := by
  by_cases same : other = id
  · subst same
    exact ⟨change row, by simp [SubmissionStore.updateSubmission, found], changes row found⟩
  · exact ⟨row, by simp [SubmissionStore.updateSubmission, found, same], .refl row⟩

theorem receive_eq_ok (received : store.receive call request payloadHash = .ok (id, next)) :
    id = store.native.nextUuid ∧ store.submissions.get? id = none ∧
      next = { store with
        submissions := store.submissions.set id
          (SubmissionStore.receivedRow call request payloadHash)
        native := store.native.drawn 1 } := by
  simp only [SubmissionStore.receive, ok_iff] at received
  obtain ⟨_, _, _, _, _, _, submissions, inserted, same⟩ := received
  cases same
  obtain ⟨missing, rfl⟩ := Table.insert?_eq_some.mp inserted
  exact ⟨rfl, missing, rfl⟩

/-- No move removes a submission or reverses a decision. -/
theorem SubmissionMove.keeps (move : SubmissionMove decides store next)
    (found : store.submissions.get? id = some row) :
    ∃ new, next.submissions.get? id = some new ∧ row.Keeps new := by
  cases move with
  | receive absent received =>
    obtain ⟨_, missing, rfl⟩ := receive_eq_ok received
    refine ⟨row, ?_, .refl row⟩
    rw [Table.get?_set, if_neg]
    · exact found
    · rintro rfl
      cases missing.symm.trans found
  | noteWait | reject =>
    apply keeps_updateSubmission _ found
    intro old _
    split
    next waiting => exact ⟨rfl, rfl, rfl, rfl, fun decided => absurd waiting decided⟩
    next => exact .refl old
  | @accept _ call other pending scope target entries decided listed creates =>
    rw [creates.submissions]
    obtain ⟨waiting, stored, received⟩ := creates.pending
    apply keeps_updateSubmission _ found
    intro old present
    cases stored.symm.trans present
    cases target <;> exact ⟨rfl, rfl, rfl, rfl, fun decided => absurd received decided⟩
  | work => exact ⟨row, found, .refl row⟩

/-- A sequence of moves. -/
abbrev SubmissionMoves (decides : Uuid → SubmissionCall → Prop) :
    SubmissionStore → SubmissionStore → Prop :=
  Relation.ReflTransGen (SubmissionMove decides)

theorem SubmissionMoves.keeps (moves : SubmissionMoves decides store next)
    (found : store.submissions.get? id = some row) :
    ∃ new, next.submissions.get? id = some new ∧ row.Keeps new := by
  induction moves with
  | refl => exact ⟨row, found, .refl row⟩
  | tail _ move ih =>
    obtain ⟨middle, present, kept⟩ := ih
    obtain ⟨new, last, further⟩ := move.keeps present
    exact ⟨new, last, kept.trans further⟩

theorem findSubmission_eq_some
    (found : store.findSubmission scope idempotencyKey = some (id, row)) :
    store.submissions.get? id = some row ∧ row.scope = scope.key ∧
      row.idempotencyKey = idempotencyKey := by
  have listed := Table.mem_rows.mp (List.mem_of_find?_eq_some found)
  have matched := List.find?_some found
  simp only [test_iff] at matched
  exact ⟨listed, matched.1, matched.2⟩

theorem noteWait_moves (id : Uuid) (row : SubmissionRow) (wait : Bool) :
    SubmissionMoves decides store (store.noteWait id row wait) := by
  unfold SubmissionStore.noteWait
  split
  · exact .single (.noteWait store id)
  · exact .refl

theorem acceptReceived_moves (decided : decides id call)
    (found : store.submissions.get? id = some row) (same : row.payload = payload) :
    SubmissionMoves decides store (store.acceptReceived call id payload scope wait).1 := by
  subst same
  unfold SubmissionStore.acceptReceived
  split
  next after target isNew done =>
    cases SubmissionStore.acceptPayload_eq_ok done with
    | known => exact .refl
    | created creates => exact .single (.accept decided found creates)
  next code detail error done => exact .single (.reject store id code detail)
  next => exact .refl

theorem submit_moves (call : SubmissionCall) (request : SubmitRequest)
    (decided : ∀ id, decides id call) :
    SubmissionMoves decides store (store.submit call request).1 := by
  unfold SubmissionStore.submit
  split
  next => exact .refl
  next payloadHash checked =>
    split
    next id row found =>
      obtain ⟨stored, _, _⟩ := findSubmission_eq_some found
      unfold SubmissionStore.repeatSubmission
      split
      next => exact .refl
      next =>
        split
        next => exact .refl
        next =>
          have noted : SubmissionMoves decides store (store.noteWait id row
              (row.waitIntent || request.waitForCompletion)) := noteWait_moves id row _
          obtain ⟨new, present, kept⟩ := noted.keeps stored
          exact noted.trans (acceptReceived_moves (decided id) present kept.payload)
        next => exact .refl
    next absent =>
      split
      next => exact .refl
      next id received_ done =>
        have received : SubmissionMove decides store received_ := .receive absent done
        obtain ⟨_, _, rfl⟩ := receive_eq_ok done
        have stored : (store.submissions.set id (SubmissionStore.receivedRow call request
            payloadHash)).get? id =
              some (SubmissionStore.receivedRow call request payloadHash) := by
          simp
        exact (Relation.ReflTransGen.single received).trans
          (acceptReceived_moves (decided id) stored rfl)

theorem respond_fst (call : SubmissionCall) (request : SubmitRequest) :
    (store.respond call request).1 = (store.submit call request).1 := by
  unfold SubmissionStore.respond
  split
  next done => rw [done]
  next done =>
    rw [done]
    split <;> rfl

theorem stopped_moves (call : SubmissionCall) (request : SubmitRequest) :
    SubmissionMoves decides store (store.stopped call request) := by
  unfold SubmissionStore.stopped
  split
  next => exact .refl
  next payloadHash checked =>
    split
    next id row found =>
      split
      · exact noteWait_moves _ _ _
      · exact .refl
    next absent =>
      split
      next => exact .refl
      next id received done => exact .single (.receive absent done)

/-- Every listed submission is retained with the same payload. -/
def Lists (store : SubmissionStore) (rows : List (Uuid × SubmissionRow)) : Prop :=
  ∀ entry ∈ rows, ∃ row, store.submissions.get? entry.1 = some row ∧ row.payload = entry.2.payload

theorem resumeRows_moves (decided : ∀ id, decides id (calls id)) (listed : Lists store rows) :
    SubmissionMoves decides store (SubmissionStore.resumeRows calls store rows).1 := by
  induction rows generalizing store with
  | nil => exact .refl
  | cons entry rest ih =>
    obtain ⟨id, row⟩ := entry
    obtain ⟨current, found, same⟩ := listed (id, row) List.mem_cons_self
    rw [SubmissionStore.resumeRows]
    split
    next => exact .refl
    next scope read =>
      have moves : SubmissionMoves decides store
          (store.acceptReceived (calls id) id row.payload scope row.waitIntent).1 :=
        acceptReceived_moves (decided id) found same
      have continues : ∀ after, SubmissionMoves decides store after → Lists after rest := by
        intro after earlier other member
        obtain ⟨old, present, equal⟩ := listed other (List.mem_cons_of_mem _ member)
        obtain ⟨new, last, kept⟩ := earlier.keeps present
        exact ⟨new, last, kept.payload.trans equal⟩
      split
      next after result done =>
        rw [done] at moves
        exact moves.trans (ih (continues after moves))
      next after error done =>
        rw [done] at moves
        split
        · exact moves.trans (ih (continues after moves))
        · exact moves

/-- Every step is a sequence of moves. -/
theorem SubmissionStep.moves (step : SubmissionStep store event next) :
    SubmissionMoves event.Decides store next := by
  cases step with
  | submit call request =>
    rw [respond_fst]
    exact submit_moves call request fun _ => rfl
  | recover => exact .refl
  | stop call request => exact stopped_moves call request
  | restart calls count =>
    apply resumeRows_moves
    · intro id
      rfl
    · intro entry member
      have listed := List.mem_of_mem_take member
      simp only [SubmissionStore.receivedSubmissions, List.mem_insertionSort,
        List.mem_filter] at listed
      exact ⟨entry.2, Table.mem_rows.mp listed.1, rfl⟩
  | work processes works => exact .single (.work store (fun _ _ => id) processes works)

/-- What the moves keep, every run keeps. -/
theorem SubmissionStore.Run.moves {related : SubmissionStore → SubmissionStore → Prop}
    (reflexive : ∀ store, related store store)
    (extends_ : ∀ {first second third : SubmissionStore} {decides : Uuid → SubmissionCall → Prop},
      related first second → SubmissionMove decides second third → related first third)
    (run : store.Run next) : related store next := by
  apply Transition.run_relates reflexive _ run
  intro first second third earlier step
  obtain ⟨event, step⟩ := step
  have moves := step.moves
  clear step
  induction moves with
  | refl => exact earlier
  | tail _ move ih => exact extends_ ih move

/-- What holds initially and is kept by the moves holds in every run. -/
theorem SubmissionStore.Reached.invariant {holds : SubmissionStore → Prop}
    (initially : ∀ storeUuid, holds (.initial storeUuid))
    (kept : ∀ {before after : SubmissionStore} {decides : Uuid → SubmissionCall → Prop},
      holds before → SubmissionMove decides before after → holds after)
    (reached : store.Reached) : holds store := by
  apply Transition.Reachable.invariant _ _ reached
  · rintro _ ⟨storeUuid, rfl⟩
    exact initially storeUuid
  · rintro before after held ⟨event, step⟩
    have moves := step.moves
    clear step
    induction moves with
    | refl => exact held
    | tail _ move ih => exact kept ih move

end Moves

/-! ## A small store -/

/-- A file system without links, in which every object exists. -/
def plainFiles : FileView where
  symlinkMetadata _ := .ok false
  policyIdentityKey path _ := .ok (renderPath path.names)
  canonicalize path := .ok path

def plainDaemon : DaemonConfig where
  capacities := ⟨8, 0, 0, 0, .empty⟩
  impactIncompatibilities := .empty
  hostId := none
  bootId := none
  daemonGeneration := 7
  conditionRescanIntervalMillis := 0
  admissionWallClockLimitSeconds := 0
  quietMaxSampleGapMillis := 0
  preReleaseMaxDeferrals := 0
  preReleaseBackoffMillis := 0
  resolve claims := (ResolvedClaims.resolve plainFiles claims).mapError fun error => .io error.text

/-- A call whose checks all pass. -/
def plainCall : SubmissionCall where
  daemon := plainDaemon
  validate _ := .ok ()
  payloadHash _ := .ok "hash"
  repairPending := false
  verifyFile _ := .ok ()
  createdMs := 0
  acceptedMs := 0
  resolving := plainFiles
  checking := plainFiles
  evaluations _ := ⟨0, 0, fun _ => none⟩
  waitTargets _ _ _ := .ok ()
  receipt _ := .ok ()

/-- A Job that claims CPU units and shared fences. -/
def cpuSpec (cpuUnits : Nat) (fences : List String) (policy : Option ChildSubmissionPolicy) :
    JobSpec where
  priority := 0
  fileStdin := false
  resources := { ResourceClaims.default with cpuUnits := some cpuUnits, sharedFences := fences }
  observed := false
  labels := []
  childSubmissionPolicy := policy
  conditions := []
  retry := ⟨1, 0, []⟩
  postconditions := 0
  timeoutSeconds := none
  quiet := none

/-- The request for one Job. -/
def cpuRequest (scope : SubmissionScope) (idempotencyKey : Uuid) (spec : JobSpec) : SubmitRequest :=
  ⟨scope, idempotencyKey, "hash", .job spec none, false⟩

end Stillyard
