import Stillyard.Attached.Script
import Stillyard.Manager.Budget

/-!
# Planning under pressure

`prepare` runs inside the scheduling pass of an attached store.  It gives way to
back-pressure while its store is not connected and when there are too many open
plans.  A full outbox, or a plan that was built for another session, configuration
or request, is an error, and it ends the pass.
-/

namespace Stillyard

open Relational Fallible

namespace AttachedStore

section Admits

variable {encoding : Encoding} {replied : Request → Reply → Prop} {store : AttachedStore}
variable {operation : Uuid} {candidate : Candidate} {now : Int}
variable {request : PlanRequest}

/-- The plan of a slot was built for the same candidate, and it can still start. -/
def PlanRow.current (plan : PlanRow) (candidate : Candidate) : Bool :=
  plan.candidate = candidate && !plan.releasePending && !plan.released

/-- The condition under which `prepare` has an answer. -/
def admits (encoding : Encoding) (store : AttachedStore) (fresh : PlannedIds)
    (request : PlanRequest) : Bool :=
  !store.mode.connected ||
    match store.mode.session, store.mode.configuration with
    | some session, some configuration =>
      match store.slotPlan (store.slotOf request) with
      | some (lease, plan) => PlanRow.current plan
          (candidateFor session configuration request
            ⟨plan.invocationId, plan.containmentId, lease⟩)
      | none => maxDomainCandidates ≤ store.openPlans ||
          store.manager.outboxHasRoom encoding
            (.candidateUpsert (candidateFor session configuration request fresh))
    | _, _ => false

theorem Unused.fresh (unused : store.Unused ids operation) : store.manager.Fresh [operation] where
  nodup := List.nodup_singleton operation
  nonzero zero := unused.nonzero (List.mem_singleton.mp zero).symm
  queued row member used := unused.queued row member (List.mem_singleton.mp used)
  abandoned other member := by
    rw [List.mem_singleton.mp member]
    exact unused.abandoned

/-- Queueing a candidate after the recovery fails on the budgets of the outbox
only. -/
theorem enqueue_candidate_iff (numbered : store.manager.Numbered)
    (recovered : store.manager.recovery = none) (fresh : store.manager.Fresh [operation]) :
    (∃ next, store.enqueue encoding operation (.candidateUpsert candidate) = .ok next) ↔
      store.manager.outboxHasRoom encoding (.candidateUpsert candidate) = true := by
  have queued := fun next => @Manager.enqueue_iff encoding store.manager operation []
    (.candidateUpsert candidate) next (Manager.free_of_below numbered.below) fresh
    (by simp [Manager.allow, recovered]) rfl rfl
  simp only [enqueue, ok_iff, mapError_eq_ok]
  constructor
  · rintro ⟨_, result, done, rfl⟩
    exact ((queued result.1).mp (by simp [done, Except.map])).1
  · intro room
    obtain ⟨result, done, _⟩ := map_eq_ok.mp ((queued _).mpr ⟨room, rfl⟩)
    exact ⟨_, result, done, rfl⟩

/-- `reusePlan` asks that the plan is current. -/
theorem reusePlan_ok_iff :
    (∃ result, store.reusePlan now candidate lease plan = .ok result) ↔
      PlanRow.current plan candidate = true := by
  simp only [reusePlan, ok_iff, touch, Bool.false_eq_true, ↓reduceIte]
  constructor
  · rintro ⟨_, _, current, _⟩
    exact current
  · intro current
    exact ⟨_, (), current, _, rfl, rfl⟩

/-- `createPlan` asks for room in the outbox, unless there are too many plans. -/
theorem createPlan_ok_iff (numbered : store.manager.Numbered)
    (recovered : store.manager.recovery = none) (unused : store.Unused ids operation) :
    (∃ result, store.createPlan encoding now operation request ids candidate = .ok result) ↔
      (maxDomainCandidates ≤ store.openPlans ||
        store.manager.outboxHasRoom encoding (.candidateUpsert candidate)) = true := by
  by_cases crowded : maxDomainCandidates ≤ store.openPlans
  · simp [createPlan, crowded, pure, Except.pure]
  · have distinct : (store.plans.values.all fun other =>
        other.invocationId ≠ ids.invocation && other.containmentId ≠ ids.containment) = true := by
      simp only [List.all_eq_true, test_iff]
      exact fun plan member => ⟨unused.invocation plan member, unused.containment plan member⟩
    have inserted := Table.insert?_eq_some.mpr
      ⟨Table.get?_eq_none.mpr unused.plan, @rfl _ (store.plans.set ids.lease
        (store.newPlan request ids candidate))⟩
    have live := Table.insert?_eq_some.mpr
      ⟨Table.get?_eq_none.mpr unused.live, @rfl _ (store.liveness.set ids.lease
        (⟨now, 0, now⟩ : LivenessRow))⟩
    simp only [createPlan, crowded, ↓reduceIte, insertPlan, touch, ok_iff, decide_false,
      Bool.false_or]
    constructor
    · rintro ⟨_, _, ⟨_, _, _, _, rfl⟩, _, ⟨_, _, rfl⟩, queued, done, _⟩
      have room := (enqueue_candidate_iff (by exact numbered) (by exact recovered)
        (by exact unused.fresh)).mp ⟨queued, done⟩
      exact room
    · intro room
      obtain ⟨queued, done⟩ := (@enqueue_candidate_iff encoding
        { store with
          plans := store.plans.set ids.lease (store.newPlan request ids candidate)
          native := store.native.recordAttempt request.job request.attempt
          liveness := store.liveness.set ids.lease ⟨now, 0, now⟩ }
        operation candidate numbered recovered unused.fresh).mpr room
      exact ⟨_, _, ⟨(), distinct, _, inserted, rfl⟩, _, ⟨_, live, rfl⟩, queued, done, rfl⟩

/-- `prepare` for a Job of the store has an answer exactly when it admits the
request. -/
theorem prepare_ok_iff {fresh : PlannedIds} (coupled : store.Coupled)
    (numbered : store.manager.Numbered) (own : request.storeUuid = store.mode.storeUuid)
    (unused : store.Unused fresh operation) :
    (∃ result, store.prepare encoding now fresh operation request = .ok result) ↔
      store.admits encoding fresh request = true := by
  simp only [prepare, own, decide_true, ok_iff, true_and, admits]
  cases connected : store.mode.connected with
  | false => simp [pure, Except.pure]
  | true =>
    obtain ⟨opened, recovered⟩ := coupled.connected connected
    obtain ⟨session, held⟩ := Option.isSome_iff_exists.mp opened
    obtain ⟨configuration, configured⟩ :=
      Option.isSome_iff_exists.mp (coupled.recovered opened recovered)
    have current : store.mode.session = some session := coupled.session.trans held
    simp only [Bool.not_true, Bool.false_eq_true, ↓reduceIte, current, configured, Bool.false_or,
      ok_iff, Option.some.injEq, exists_eq_left', exists_const]
    cases store.slotPlan (store.slotOf request) with
    | some row => exact reusePlan_ok_iff
    | none => exact createPlan_ok_iff numbered recovered unused

end Admits

/-! ## The scheduling pass -/

/-- What a pass does at a pending Job before it calls `prepare`: it commits some
transactions of its own, opens one, and makes the local checks.  Without a call,
`opened` is what the Job leaves. -/
structure Visit where
  opened : AttachedStore
  checked : AttachedStore
  call : Option PlanCall

/-- Local work makes transactions of the store, and it asks for Jobs of the store
under identifiers that it draws. -/
structure Visiting (encoding : Encoding) (replied : Request → Reply → Prop)
    (visit : AttachedStore → Uuid → Visit) : Prop where
  opens : ∀ store job, Relation.ReflTransGen (Step encoding replied) store (visit store job).opened
  checks : ∀ store job,
    Relation.ReflTransGen (Step encoding replied) (visit store job).opened (visit store job).checked
  own : ∀ store job call, (visit store job).call = some call →
    call.request.storeUuid = (visit store job).checked.mode.storeUuid
  unused : ∀ store job call, (visit store job).call = some call →
    (visit store job).checked.Unused call.fresh call.operation

/-- The result of one walk over the pending Jobs: the Job that is ready, and the
Jobs that were considered. -/
structure Sweep where
  store : AttachedStore
  ready : Option Uuid
  considered : List Uuid

/-- What a call that is not ready leaves: its transaction commits or rolls back. -/
def Visit.leaves (seen : Visit) (next : AttachedStore) (admission : Admission) : AttachedStore :=
  if admission.persist then next else seen.opened

/-- The loop over the pending Jobs in `prepare_next_job_with_observation_source`. -/
def sweep (encoding : Encoding) (visit : AttachedStore → Uuid → Visit) :
    AttachedStore → List Uuid → StoreResult Sweep
  | store, [] => .ok ⟨store, none, []⟩
  | store, job :: rest =>
    let seen := visit store job
    match seen.call with
    | none => do
        let result ← sweep encoding visit seen.opened rest
        return { result with considered := job :: result.considered }
    | some call => do
        let (next, admission) ← seen.checked.call encoding call
        if admission.ready then return ⟨next, some job, [job]⟩
        else
          let result ← sweep encoding visit (seen.leaves next admission) rest
          return { result with considered := job :: result.considered }

/-- The calls of `prepare` that a sweep comes to. -/
inductive Visited (encoding : Encoding) (visit : AttachedStore → Uuid → Visit) :
    AttachedStore → List Uuid → AttachedStore → PlanCall → Prop where
  | here {call : PlanCall} (called : (visit store job).call = some call) :
      Visited encoding visit store (job :: rest) (visit store job).checked call
  | skipped {later : PlanCall} (silent : (visit store job).call = none)
      (follows : Visited encoding visit (visit store job).opened rest there later) :
      Visited encoding visit store (job :: rest) there later
  | waited
      {call later : PlanCall}
      (called : (visit store job).call = some call)
      (answered : (visit store job).checked.call encoding call = .ok (next, admission))
      (waits : admission.ready = false)
      (follows : Visited encoding visit
        ((visit store job).leaves next admission) rest there later) :
      Visited encoding visit store (job :: rest) there later

section Sweep

variable {encoding : Encoding} {replied : Request → Reply → Prop}
  {visit : AttachedStore → Uuid → Visit} {store there : AttachedStore} {jobs : List Uuid}
  {call : PlanCall}

/-- A call that waits leaves what transactions of the store leave. -/
theorem Visiting.leaves_run (visiting : Visiting encoding replied visit)
    (called : (visit store job).call = some call)
    (answered : (visit store job).checked.call encoding call = .ok (next, admission)) :
    Relation.ReflTransGen (Step encoding replied) store
      ((visit store job).leaves next admission) := by
  rw [Visit.leaves]
  split
  · exact ((visiting.opens store job).trans (visiting.checks store job)).tail
      (.prepare (visiting.unused store job call called) answered)
  · exact visiting.opens store job

theorem Visited.run (visiting : Visiting encoding replied visit)
    (visited : Visited encoding visit store jobs there call) :
    Relation.ReflTransGen (Step encoding replied) store there := by
  induction visited with
  | here called => exact (visiting.opens _ _).trans (visiting.checks _ _)
  | skipped _ _ later => exact (visiting.opens _ _).trans later
  | waited called answered _ _ later => exact (visiting.leaves_run called answered).trans later

theorem Visited.asks (visiting : Visiting encoding replied visit)
    (visited : Visited encoding visit store jobs there call) :
    call.request.storeUuid = there.mode.storeUuid ∧ there.Unused call.fresh call.operation := by
  induction visited with
  | here called => exact ⟨visiting.own _ _ _ called, visiting.unused _ _ _ called⟩
  | skipped _ _ later | waited _ _ _ _ later => exact later

/-- A sweep ends exactly when every call that it comes to has an answer. -/
theorem sweep_ok_iff :
    (∃ result, sweep encoding visit store jobs = .ok result) ↔
      ∀ there call, Visited encoding visit store jobs there call →
        ∃ answer, there.call encoding call = .ok answer := by
  induction jobs generalizing store with
  | nil =>
    constructor
    · intro _ there call visited
      cases visited
    · exact fun _ => ⟨_, rfl⟩
  | cons job rest hypothesis =>
    rw [sweep]
    cases called : (visit store job).call with
    | none =>
      simp only [ok_iff]
      constructor
      · rintro ⟨_, result, done, _⟩ there call visited
        cases visited with
        | here found => cases called.symm.trans found
        | skipped _ follows => exact hypothesis.mp ⟨result, done⟩ _ _ follows
        | waited found => cases called.symm.trans found
      · intro answers
        obtain ⟨result, done⟩ := hypothesis.mpr fun there call follows =>
          answers there call (.skipped called follows)
        exact ⟨_, result, done, rfl⟩
    | some call =>
      simp only [bind_eq_ok]
      constructor
      · rintro ⟨_, ⟨next, admission⟩, answered, done⟩ there later visited
        cases visited with
        | here found =>
          obtain rfl := Option.some.inj (called.symm.trans found)
          exact ⟨_, answered⟩
        | skipped silent => cases called.symm.trans silent
        | waited found same waits follows =>
          obtain rfl := Option.some.inj (called.symm.trans found)
          obtain ⟨rfl, rfl⟩ := Prod.mk.inj (Except.ok.inj (answered.symm.trans same))
          simp only [waits, Bool.false_eq_true, ↓reduceIte, bind_eq_ok] at done
          obtain ⟨result, swept, _⟩ := done
          exact hypothesis.mp ⟨result, swept⟩ _ _ follows
      · intro answers
        obtain ⟨⟨next, admission⟩, answered⟩ := answers _ _ (.here called)
        cases ready : admission.ready with
        | true =>
          refine ⟨⟨next, some job, [job]⟩, (next, admission), answered, ?_⟩
          simp [ready, pure, Except.pure]
        | false =>
          obtain ⟨result, done⟩ := hypothesis.mpr fun there call follows =>
            answers there call (.waited called answered ready follows)
          refine ⟨{ result with considered := job :: result.considered }, (next, admission),
            answered, ?_⟩
          simp only [ready, Bool.false_eq_true, ↓reduceIte, bind_eq_ok]
          exact ⟨result, done, rfl⟩

/-- A sweep that ends has considered every Job up to the one that is ready, and it
leaves what transactions of the store leave. -/
theorem sweep_considers (visiting : Visiting encoding replied visit)
    (done : sweep encoding visit store jobs = .ok result) :
    result.considered <+: jobs ∧ (result.ready = none → result.considered = jobs) ∧
      (∀ job, result.ready = some job → result.considered.getLast? = some job) ∧
      Relation.ReflTransGen (Step encoding replied) store result.store := by
  induction jobs generalizing store result with
  | nil =>
    obtain rfl := Except.ok.inj done
    exact ⟨List.prefix_rfl, fun _ => rfl, nofun, .refl⟩
  | cons job rest hypothesis =>
    have passing : ∀ {middle : AttachedStore} {later : Sweep},
        Relation.ReflTransGen (Step encoding replied) store middle →
        sweep encoding visit middle rest = .ok later →
        job :: later.considered <+: job :: rest ∧
          (later.ready = none → job :: later.considered = job :: rest) ∧
          (∀ other, later.ready = some other →
            (job :: later.considered).getLast? = some other) ∧
          Relation.ReflTransGen (Step encoding replied) store later.store := by
      intro middle later earlier swept
      obtain ⟨listed, all, last, run⟩ := hypothesis swept
      refine ⟨List.cons_prefix_cons.mpr ⟨rfl, listed⟩, fun none => by rw [all none], ?_,
        earlier.trans run⟩
      intro other ready
      rw [List.getLast?_cons, last other ready]
      rfl
    rw [sweep] at done
    cases called : (visit store job).call with
    | none =>
      simp only [called, ok_iff] at done
      obtain ⟨later, swept, rfl⟩ := done
      exact passing (visiting.opens store job) swept
    | some call =>
      simp only [called, bind_eq_ok] at done
      obtain ⟨⟨next, admission⟩, answered, done⟩ := done
      split at done
      · obtain rfl := pure_eq_ok.mp done
        refine ⟨by simp, nofun, fun other same => by simpa using same, ?_⟩
        exact ((visiting.opens store job).trans (visiting.checks store job)).tail
          (.prepare (visiting.unused store job call called) answered)
      · simp only [ok_iff] at done
        obtain ⟨later, swept, rfl⟩ := done
        exact passing (visiting.leaves_run called answered) swept

end Sweep

end AttachedStore

namespace Fleet

variable {fleet : Fleet}

/-- A fleet in which one store has made transactions of its own is reached. -/
theorem Reached.update (reached : fleet.Reached config storeUuid)
    (run : Relation.ReflTransGen (AttachedStore.Step config.encoding
      fun request reply => (request, reply) ∈ fleet.replies) (fleet.stores domain) store) :
    ({ fleet with stores := Function.update fleet.stores domain store } : Fleet).Reached config
      storeUuid := by
  induction run with
  | refl =>
    rw [Function.update_eq_self]
    exact reached
  | tail _ one hypothesis =>
    have step := @Fleet.Step.store config
      { fleet with stores := Function.update fleet.stores domain _ } domain _
      (by simpa only [Function.update_self] using one)
    simp only [Function.update_idem] at step
    exact hypothesis.trans (.single step)

/-- A store that its own transactions lead to is coupled with its journal, and the
journal is numbered. -/
theorem Reached.facts (reached : fleet.Reached config storeUuid)
    (run : Relation.ReflTransGen (AttachedStore.Step config.encoding
      fun request reply => (request, reply) ∈ fleet.replies) (fleet.stores domain) store) :
    store.Coupled ∧ store.manager.Numbered := by
  have coupled := (reached.update run).coupled domain
  have numbered := (reached.update run).numbered domain
  simp only [Function.update_self] at coupled numbered
  exact ⟨coupled, numbered⟩

end Fleet

/-- A pending Job that asks for one unit of CPU and nothing else. -/
def smallSpec : JobSpec where
  priority := 0
  fileStdin := false
  resources := { ResourceClaims.default with cpuUnits := some 1 }
  observed := false
  labels := []
  childSubmissionPolicy := none
  conditions := []
  retry := ⟨1, 0, []⟩
  postconditions := 0
  timeoutSeconds := none
  quiet := none

def smallJob : JobRow where
  state := .pending
  outcome := none
  reasonCode := none
  spec := smallSpec
  claims := { ResolvedClaims.default with cpuUnits := 1 }
  stdinHash := none
  stdinLen := none
  attemptId := none
  invocationId := none
  containmentId := none
  rootExitCode := none
  acceptedMs := 0
  startedMs := none
  finishedMs := none
  stdoutLen := 0
  stderrLen := 0
  cancelRequested := false
  retryNotBeforeMs := none
  reservationNotBeforeMs := none
  batchMember := none
  batchIndex := 0

/-- The Jobs 100 to 114 are pending. -/
def smallJobs : NativeStore :=
  { NativeStore.initial with
    jobs := (List.range 16).foldl (fun jobs index => jobs.set (100 + index) smallJob) .empty }

/-- The call for a Job in its first Attempt. -/
def smallCall (job : Uuid) : AttachedStore.PlanCall where
  now := 1000
  fresh := ⟨1000 + job, 2000 + job, 3000 + job⟩
  operation := 4000 + job
  request := ⟨8, job, 5000 + job, none, 0, none, none, smallJob.claims⟩

/-- A pass whose local checks succeed for every Job. -/
def smallVisit (store : AttachedStore) (job : Uuid) : AttachedStore.Visit where
  opened := store
  checked := store
  call := if store.mode.storeUuid = 8 &&
      store.unused (smallCall job).fresh (smallCall job).operation
        then some (smallCall job) else none

theorem smallVisit_visiting (encoding : Encoding) (replied : Request → Reply → Prop) :
    AttachedStore.Visiting encoding replied smallVisit := by
  have checks : ∀ store job call, (smallVisit store job).call = some call →
      call = smallCall job ∧ store.mode.storeUuid = 8 ∧
        store.Unused (smallCall job).fresh (smallCall job).operation := by
    intro store job call called
    simp only [smallVisit, Option.ite_none_right_eq_some, Option.some.injEq, test_iff] at called
    obtain ⟨⟨own, checked⟩, rfl⟩ := called
    exact ⟨rfl, own, AttachedStore.unused_eq_true checked⟩
  constructor
  · exact fun _ _ => .refl
  · exact fun _ _ => .refl
  · intro store job call called
    obtain ⟨rfl, own, _⟩ := checks store job call called
    exact own.symm
  · intro store job call called
    obtain ⟨rfl, _, unused⟩ := checks store job call called
    exact unused

/-- The oldest operation of the store is sent, answered, and its reply accepted. -/
def fleetTrip (operation : Uuid) : List Fleet.Event :=
  [.remote (.send 6), .remote (.exchange soloInput 0), .store 6 (.accept 1000 operation 0)]

/-- The store of domain 6 connects, recovers an empty inventory and reconciles. -/
def fleetConnects : List Fleet.Event :=
  [.remote (.connectBegin ⟨0, 11, .none⟩ ⟨7, 8, 9, 10⟩),
    .remote (.connectFinish ⟨0, 0, .none⟩ ⟨soloSession, 11, 10⟩), .connect 6 0,
    .store 6 (.page 20)] ++
  fleetTrip 60 ++ [.store 6 (.reconcile 30 [31, 32])] ++ fleetTrip 61 ++ fleetTrip 62

/-- The store of domain 6 has the small Jobs. -/
def smallFleet : Fleet := .initial soloConfig (fun _ => 8) fun _ => smallJobs

/-- Plans for the first Jobs, none of which the coordinator has answered. -/
def smallPlans (count : Nat) : List Fleet.Event :=
  (List.range count).map fun index => .store 6 (.prepare (smallCall (100 + index)))

/-- In every reached store, `prepare` for a Job of the store returns exactly when
it admits the request.  A walk over the pending Jobs ends exactly when every call
that it comes to does; it has then considered every Job up to the one that is
ready, and the next walk starts from a reached store again. -/
theorem planning_admits_iff {config : CoordinatorConfig} {storeUuid : ExecutionDomainId → Uuid}
    {fleet : Fleet} (reached : fleet.Reached config storeUuid) (domain : ExecutionDomainId) :
    (∀ call : AttachedStore.PlanCall,
      call.request.storeUuid = (fleet.stores domain).mode.storeUuid →
      (fleet.stores domain).Unused call.fresh call.operation →
      ((∃ answer, (fleet.stores domain).call config.encoding call = .ok answer) ↔
        (fleet.stores domain).admits config.encoding call.fresh call.request = true)) ∧
    ∀ (visit : AttachedStore → Uuid → AttachedStore.Visit) (jobs : List Uuid),
      AttachedStore.Visiting config.encoding
        (fun request reply => (request, reply) ∈ fleet.replies) visit →
      ((∃ result, AttachedStore.sweep config.encoding visit (fleet.stores domain) jobs =
          .ok result) ↔
        ∀ there call,
          AttachedStore.Visited config.encoding visit (fleet.stores domain) jobs there call →
          there.admits config.encoding call.fresh call.request = true) ∧
      ∀ result, AttachedStore.sweep config.encoding visit (fleet.stores domain) jobs =
          .ok result →
        result.considered <+: jobs ∧ (result.ready = none → result.considered = jobs) ∧
        (∀ job, result.ready = some job → result.considered.getLast? = some job) ∧
        ({ fleet with stores := Function.update fleet.stores domain result.store } : Fleet).Reached
          config storeUuid := by
  constructor
  · intro call own unused
    exact AttachedStore.prepare_ok_iff (reached.coupled domain) (reached.numbered domain) own unused
  · intro visit jobs visiting
    constructor
    · rw [AttachedStore.sweep_ok_iff]
      have answers : ∀ there call,
          AttachedStore.Visited config.encoding visit (fleet.stores domain) jobs there call →
          ((∃ answer, there.call config.encoding call = .ok answer) ↔
            there.admits config.encoding call.fresh call.request = true) := by
        intro there call visited
        obtain ⟨own, unused⟩ := visited.asks visiting
        obtain ⟨coupled, numbered⟩ := reached.facts (visited.run visiting)
        exact AttachedStore.prepare_ok_iff coupled numbered own unused
      constructor
      · exact fun answered there call visited =>
          (answers there call visited).mp (answered there call visited)
      · exact fun admitted there call visited =>
          (answers there call visited).mpr (admitted there call visited)
    · intro result done
      obtain ⟨listed, all, last, run⟩ := AttachedStore.sweep_considers visiting done
      exact ⟨listed, all, last, reached.update run⟩

/-- A connected store with an empty outbox plans its Jobs. -/
theorem smallFleet_plans :
    ∃ fleet : Fleet, fleet.Reached soloConfig (fun _ => 8) ∧
      (fleet.stores 6).mode.connected = true ∧
      (∃ answer, (fleet.stores 6).call soloConfig.encoding (smallCall 100) = .ok answer) ∧
      ∃ result, AttachedStore.sweep soloConfig.encoding smallVisit (fleet.stores 6)
          [100, 101, 102] = .ok result ∧
        result.considered = [100, 101, 102] := by
  have ran : (smallFleet.run soloConfig fleetConnects).any (fun fleet =>
      (fleet.stores 6).mode.connected &&
        decide ((smallCall 100).request.storeUuid = (fleet.stores 6).mode.storeUuid) &&
        (fleet.stores 6).unused (smallCall 100).fresh (smallCall 100).operation &&
        (fleet.stores 6).admits soloConfig.encoding (smallCall 100).fresh
          (smallCall 100).request &&
        (AttachedStore.sweep soloConfig.encoding smallVisit
          (fleet.stores 6) [100, 101, 102]).toOption.any fun result =>
            result.ready.isNone) = true := by
    decide +kernel
  obtain ⟨fleet, computed, checked⟩ := (Option.any_eq_true _ _).mp ran
  simp only [test_iff] at checked
  obtain ⟨⟨⟨⟨connected, own⟩, unused⟩, admitted⟩, swept⟩ := checked
  obtain ⟨result, succeeded, quiet⟩ := (Option.any_eq_true _ _).mp swept
  have done := toOption_eq_some.mp succeeded
  have reached := Fleet.reached_of_run (fun _ => rfl) computed
  obtain ⟨calls, sweeps⟩ := planning_admits_iff reached 6
  refine ⟨fleet, reached, connected,
    (calls (smallCall 100) own (AttachedStore.unused_eq_true unused)).mpr admitted, result, done,
      ?_⟩
  obtain ⟨_, all, _⟩ := (sweeps smallVisit _ (smallVisit_visiting _ _)).2 result done
  exact all (Option.isNone_iff_eq_none.mp quiet)

/-- With fourteen unanswered candidates in its outbox a connected store has an error
for its fifteenth pending Job, and no pass that comes to the Job considers another
one after it. -/
theorem smallFleet_cannot_plan :
    ∃ fleet : Fleet, fleet.Reached soloConfig (fun _ => 8) ∧
      (fleet.stores 6).mode.connected = true ∧
      ((fleet.stores 6).native.jobs.get? 114).map JobRow.state = some .pending ∧
      (smallCall 114).request.storeUuid = (fleet.stores 6).mode.storeUuid ∧
      (fleet.stores 6).Unused (smallCall 114).fresh (smallCall 114).operation ∧
      (¬ ∃ answer, (fleet.stores 6).call soloConfig.encoding (smallCall 114) = .ok answer) ∧
      ∀ lower : List Uuid, ¬ ∃ result, AttachedStore.sweep soloConfig.encoding smallVisit
        (fleet.stores 6) (114 :: lower) = .ok result := by
  have ran : (smallFleet.run soloConfig (fleetConnects ++ smallPlans 14)).any (fun fleet =>
      (fleet.stores 6).mode.connected &&
        decide (((fleet.stores 6).native.jobs.get? 114).map JobRow.state = some .pending) &&
        decide ((fleet.stores 6).mode.storeUuid = 8) &&
        (fleet.stores 6).unused (smallCall 114).fresh (smallCall 114).operation &&
        !((fleet.stores 6).call soloConfig.encoding (smallCall 114)).toOption.isSome) = true := by
    decide +kernel
  obtain ⟨fleet, computed, checked⟩ := (Option.any_eq_true _ _).mp ran
  simp only [test_iff, Bool.not_eq_true', ← Bool.not_eq_true, Option.isSome_iff_exists,
    toOption_eq_some] at checked
  obtain ⟨⟨⟨⟨connected, pending⟩, own⟩, unused⟩, refused⟩ := checked
  refine ⟨fleet, Fleet.reached_of_run (fun _ => rfl) computed, connected, pending, own.symm,
    AttachedStore.unused_eq_true unused, refused, ?_⟩
  intro lower ended
  have called : (smallVisit (fleet.stores 6) 114).call = some (smallCall 114) := by
    simp [smallVisit, own, unused]
  exact refused (AttachedStore.sweep_ok_iff.mp ended _ _ (.here called))

end Stillyard
