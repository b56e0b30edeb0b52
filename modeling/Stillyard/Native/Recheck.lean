import Stillyard.Native.Observe
import Stillyard.System.Agreement

/-!
# The recheck at release

A guarded Job is checked once more before its root may run.  The recheck reads
the granted Leases of other Attempts; the outstanding Grants of the coordinator
are debits as well, and admission counts them, but the recheck does not.
-/

namespace Stillyard

open Relational Fallible

namespace NativeStore

variable {store next refreshed : NativeStore} {config : DaemonConfig} {job : PreparedJob}
variable {deadline : Option Int} {expires : Nat}

theorem leases_evaluateOne {observedMs : Int} {id : Uuid}
    (done : store.evaluateOne context observedMs id = .ok next) : next.leases = store.leases := by
  simp only [evaluateOne, insertObservation, ok_iff] at done
  obtain ⟨_, _, _, _, _, ⟨_, _, rfl⟩, rfl⟩ := done
  rfl

theorem leases_refreshOne (done : refreshOne context state entry = .ok after) :
    after.1.leases = state.1.leases := by
  unfold refreshOne at done
  dsimp only at done
  split at done
  · cases done
    rfl
  · split at done
    · obtain ⟨evaluated, computed, rfl⟩ := map_eq_ok.mp done
      exact leases_evaluateOne computed
    · cases done
      rfl

theorem leases_refreshLoop (done : store.refreshLoop owner context = .ok (next, changed)) :
    next.leases = store.leases := by
  exact foldlM_invariant (fun state : NativeStore × Bool => state.1.leases = store.leases)
    (fun _ _ _ _ held step => (leases_refreshOne step).trans held) rfl done

/-- A refresh that found no expired deadline only writes observations and
Conditions. -/
theorem leases_refreshConditions
    (done : store.refreshConditions owner context = .ok (next, refresh))
    (unexpired : refresh.deadlineExpired = false) : next.leases = store.leases := by
  simp only [refreshConditions, expireConditionDeadline, bind_eq_ok] at done
  obtain ⟨⟨expired, outcome⟩, computed, done⟩ := done
  cases outcome with
  | some outcome =>
    cases done
    cases unexpired
  | none =>
    simp only [ok_iff] at done
    obtain ⟨⟨looped, changed⟩, loop, same⟩ := done
    cases same
    split at computed
    · cases computed
      exact leases_refreshLoop loop
    · obtain ⟨_, _, impossible⟩ := map_eq_ok.mp computed
      cases impossible

/-! ## What an authorization has checked -/

private theorem eraseRepsBy_loop_ne_nil {α : Type*} (same : α → α → Bool) (kept : α)
    (rest seen : List α) : List.eraseRepsBy.loop same kept rest seen ≠ [] := by
  induction rest generalizing kept seen with
  | nil => simp [List.eraseRepsBy.loop]
  | cons next rest ih =>
    unfold List.eraseRepsBy.loop
    split
    · exact ih kept seen
    · exact ih next (kept :: seen)

@[simp] theorem collectBlockers_eq_nil {blockers : List Blocker} :
    collectBlockers blockers = [] ↔ blockers = [] := by
  rw [collectBlockers, ← @sortBlockers_eq_nil blockers]
  cases sortBlockers blockers with
  | nil => exact ⟨fun _ => rfl, fun _ => rfl⟩
  | cons blocker rest =>
    constructor
    · intro empty
      exact absurd empty (eraseRepsBy_loop_ne_nil _ blocker rest [])
    · intro empty
      cases empty

/-- The checks that every authorized release has passed: `refreshed` is the store
after the Conditions were evaluated, `row` the Job. -/
structure Rechecked (store : NativeStore) (config : DaemonConfig) (input : ReleaseInput)
    (job : PreparedJob) (row : JobRow) : Prop where
  found : store.jobs.get? job.jobId = some row
  vector : legacyFullVectorBlockers row.claims config.capacities
    (store.activeClaimsExcludingAttempt job.attemptId) config.impactIncompatibilities = .ok []
  observed : ∀ evaluate captured, input.observation = some (.ok (evaluate, captured)) →
    job.spec = row.spec → row.spec.requiresHostObservation = true →
    (evaluate row.spec (store.activeClaimsExcludingAttempt job.attemptId)).nonQuietBlockers = []

theorem activeClaimsExcludingAttempt_of_leases (same : next.leases = store.leases)
    (attempt : Uuid) :
    next.activeClaimsExcludingAttempt attempt = store.activeClaimsExcludingAttempt attempt := by
  rw [activeClaimsExcludingAttempt, activeClaimsExcludingAttempt, same]

theorem found_of_unreleasedRows {failure : String} {row : JobRow}
    (done : store.unreleasedRows job failure = .ok (row, attempt, invocation)) :
    store.jobs.get? job.jobId = some row := by
  simp only [unreleasedRows, currentRows, ok_iff] at done
  obtain ⟨_, ⟨_, current, _, _, _, _, rfl⟩, _, _, same⟩ := done
  cases same
  exact (Option.filter_eq_some_iff.mp current).1

theorem vector_of_releaseBlockers
    (clear : refreshed.releaseBlockers config job row refresh = .ok []) :
    legacyFullVectorBlockers row.claims config.capacities
      (refreshed.activeClaimsExcludingAttempt job.attemptId) config.impactIncompatibilities =
        .ok [] := by
  simp only [releaseBlockers, ok_iff] at clear
  obtain ⟨claimed, computed, empty⟩ := clear
  have none_ : claimed = [] := (List.append_eq_nil_iff.mp empty).2
  subst none_
  cases vector : legacyFullVectorBlockers row.claims config.capacities
      (refreshed.activeClaimsExcludingAttempt job.attemptId) config.impactIncompatibilities with
  | error error =>
    rw [vector] at computed
    cases computed
  | ok blockers =>
    rw [vector] at computed
    cases computed
    rfl

theorem rechecked_of_authorizeRelease {input : ReleaseInput}
    (done : store.authorizeRelease config input job = .ok (next, .authorized deadline expires)) :
    ∃ row, Rechecked store config input job row := by
  obtain ⟨⟨row, attempt, invocation⟩, rows, done⟩ := bind_eq_ok.mp done
  have found := found_of_unreleasedRows rows
  dsimp only at done
  split at done
  · cases done
  · simp only [bind_eq_ok] at done
    obtain ⟨⟨refreshed, refresh⟩, refreshing, done⟩ := done
    split at done
    · cases done
    · next unexpired =>
      simp only [bind_eq_ok] at done
      obtain ⟨blockers, computed, ⟨observed, satisfied, captured⟩, quiet, done⟩ := done
      split at done
      · cases done
      · next clear =>
        have empty : blockers ++ observed = [] := by
          by_contra present
          exact clear (.inl (mt collectBlockers_eq_nil.mp present))
        obtain ⟨rfl, rfl⟩ := List.append_eq_nil_iff.mp empty
        have same := activeClaimsExcludingAttempt_of_leases
          (leases_refreshConditions refreshing (by simpa using unexpired)) job.attemptId
        refine ⟨row, found, ?_, ?_⟩
        · rw [← same]
          exact vector_of_releaseBlockers computed
        · intro evaluate taken given _ _
          simp only [quietReleaseBlockers, given, ok_iff, Prod.mk.injEq,
            List.append_eq_nil_iff] at quiet
          obtain ⟨_, _, ⟨⟨silent, _⟩, _⟩, _⟩ := quiet
          rw [← same]
          exact silent

theorem rechecked_of_authorizeConditionRelease {input : ReleaseInput}
    (done : store.authorizeConditionRelease config input job =
      .ok (next, .authorized deadline expires)) : ∃ row, Rechecked store config input job row := by
  obtain ⟨⟨row, attempt, invocation⟩, rows, done⟩ := bind_eq_ok.mp done
  have found := found_of_unreleasedRows rows
  dsimp only at done
  split at done
  · cases done
  · simp only [bind_eq_ok] at done
    obtain ⟨⟨refreshed, refresh⟩, refreshing, done⟩ := done
    split at done
    · cases done
    · next unexpired =>
      simp only [bind_eq_ok] at done
      obtain ⟨blockers, computed, ⟨observed, captured⟩, sampled, done⟩ := done
      split at done
      · cases done
      · next clear =>
        have empty : blockers ++ observed = [] := by
          by_contra present
          exact clear (mt collectBlockers_eq_nil.mp present)
        obtain ⟨rfl, rfl⟩ := List.append_eq_nil_iff.mp empty
        have same := activeClaimsExcludingAttempt_of_leases
          (leases_refreshConditions refreshing (by simpa using unexpired)) job.attemptId
        refine ⟨row, found, ?_, ?_⟩
        · rw [← same]
          exact vector_of_releaseBlockers computed
        · intro evaluate taken given own required
          rw [← own] at required
          simp only [conditionReleaseBlockers, given, required, if_true, ok_iff, Prod.mk.injEq,
            List.append_eq_nil_iff] at sampled
          obtain ⟨_, _, ⟨⟨silent, _⟩, _⟩, _⟩ := sampled
          rw [← same, ← own]
          exact silent

/-! ## Every other debit -/

/-- The debits other than those of the Attempt: the granted Leases of other
Attempts and the outstanding Grants of the coordinator. -/
def otherDebits (store : NativeStore) (machine : MachineStore) (attempt : Uuid) :
    List ResolvedClaims :=
  store.activeClaimsExcludingAttempt attempt ++ machine.remoteDebits

/-- One of the two authorizations lets the root run. -/
def Authorizes (store : NativeStore) (config : DaemonConfig) (input : ReleaseInput)
    (job : PreparedJob) : Prop :=
  ∃ next deadline expires,
    store.authorizeRelease config input job = .ok (next, .authorized deadline expires) ∨
      store.authorizeConditionRelease config input job = .ok (next, .authorized deadline expires)

theorem Authorizes.rechecked (authorized : store.Authorizes config input job) :
    ∃ row, Rechecked store config input job row := by
  obtain ⟨next, deadline, expires, quiet | conditions⟩ := authorized
  · exact rechecked_of_authorizeRelease quiet
  · exact rechecked_of_authorizeConditionRelease conditions

end NativeStore

/-- What a sample shows, with the policy it is read under. -/
structure Sampled where
  host : ObservationConfig
  evidence : HostEvidence
  reports : JobSpec → DetectorReport
  now : Nat

/-- `evaluate_admission` of the sample. -/
def Sampled.evaluate (sample : Sampled) : Observation :=
  evaluateAdmission sample.host sample.evidence sample.reports sample.now

/-- The GPU that the sample shows for a Job. -/
def Sampled.gpu (sample : Sampled) (spec : JobSpec) : Option GpuEvidence :=
  (gpuEvidence sample.host sample.evidence sample.now spec.resources (sample.reports spec)).1

/-- `ResourceClaims::validate` refuses claims of nothing. -/
def ResourceClaims.nonzero (resources : ResourceClaims) : Bool :=
  resources.ramMb ≠ some 0 && resources.custom.values.all fun value => value ≠ 0

/-- A Job's memory claims and its claim vector hold against a list of debits. -/
structure Accounted (sample : Sampled) (config : DaemonConfig) (row : JobRow)
    (debits : List ResolvedClaims) : Prop where
  ram : ∀ requested, row.spec.resources.ramMb = some requested →
    ∃ memory, sample.evidence.memory.valueIfFresh sample.now sample.host.memoryMaxSampleAgeMillis =
        .ok memory ∧
      requested + sample.host.ramSafetyMarginMb + (debits.map ResolvedClaims.ramMb).sum ≤
        memory.headroomMb
  vram : ∀ name requested, (name, requested) ∈ row.spec.resources.custom.rows →
    isVram name = true →
    ∃ gpu, sample.gpu row.spec = some gpu ∧
      requested + sample.host.vramSafetyMarginMb +
          (debits.map fun claims => amount claims.custom (vramName gpu)).sum ≤
        gpu.freeMemoryMb
  vector : legacyFullVectorBlockers row.claims config.capacities debits
    config.impactIncompatibilities = .ok []

/-- A Grant and a Job that share nothing: the Grant holds no memory of a kind that
the Job claims and nothing of a scalar that it claims, and no fence or impact of
the two conflicts. -/
structure GrantApart (sample : Sampled) (config : DaemonConfig) (row : JobRow)
    (grant : ResolvedClaims) : Prop where
  ram : row.spec.resources.ramMb ≠ none → grant.ramMb = 0
  vram : row.spec.resources.custom.keys.any isVram = true → ∀ gpu,
    sample.gpu row.spec = some gpu → amount grant.custom (vramName gpu) = 0
  scalars : ∀ name, row.claims.debit name ≠ 0 → grant.debit name = 0
  conflicts : NonScalarClear row.claims [grant] config.impactIncompatibilities

/-- Grants that take no more than what the Job and the Leases leave of the observed
memory and of the capacities, and do not conflict with the Job. -/
structure GrantsFit (sample : Sampled) (config : DaemonConfig) (row : JobRow)
    (leases grants : List ResolvedClaims) : Prop where
  ram : ∀ requested memory, row.spec.resources.ramMb = some requested →
    sample.evidence.memory.valueIfFresh sample.now sample.host.memoryMaxSampleAgeMillis =
      .ok memory →
    (grants.map ResolvedClaims.ramMb).sum ≤ memory.headroomMb -
      (requested + sample.host.ramSafetyMarginMb + (leases.map ResolvedClaims.ramMb).sum)
  vram : ∀ name requested gpu, (name, requested) ∈ row.spec.resources.custom.rows →
    isVram name = true → sample.gpu row.spec = some gpu →
    (grants.map fun claims => amount claims.custom (vramName gpu)).sum ≤ gpu.freeMemoryMb -
      (requested + sample.host.vramSafetyMarginMb +
        (leases.map fun claims => amount claims.custom (vramName gpu)).sum)
  scalars : ∀ name, row.claims.debit name ≠ 0 →
    (grants.map fun claims => claims.debit name).sum ≤ config.capacities.of name -
      ((leases.map fun claims => claims.debit name).sum + row.claims.debit name)
  conflicts : NonScalarClear row.claims grants config.impactIncompatibilities

/-- Claims and capacities are vectors of `u64`. -/
structure RecheckWords (config : DaemonConfig) (row : JobRow) (debits : List ResolvedClaims) :
    Prop where
  own : row.claims.Words
  debits : ∀ held ∈ debits, held.Words
  capacities : ∀ name, config.capacities.of name < u64Bound

section Accounting

variable {sample : Sampled} {config : DaemonConfig} {row : JobRow} {debits : List ResolvedClaims}

theorem NonScalarClear.append_iff {claims : ResolvedClaims} {grants : List ResolvedClaims}
    {rules : Table String (List String)} :
    NonScalarClear claims (debits ++ grants) rules ↔
      NonScalarClear claims debits rules ∧ NonScalarClear claims grants rules :=
  List.forall_mem_append

/-- Grants that share nothing with a Job take nothing of what it needs. -/
theorem grantsFit_of_apart {leases grants : List ResolvedClaims}
    (apart : ∀ grant ∈ grants, GrantApart sample config row grant) :
    GrantsFit sample config row leases grants := by
  have nothing : ∀ {held : ResolvedClaims → Nat}, (∀ grant ∈ grants, held grant = 0) →
      ∀ room, (grants.map held).sum ≤ room := by
    intro held zero room
    have sum : (grants.map held).sum = 0 := List.sum_eq_zero (List.forall_mem_map.mpr zero)
    rw [sum]
    exact Nat.zero_le room
  constructor
  · intro requested memory claimed _
    exact nothing (fun grant member => (apart grant member).ram (by simp [claimed])) _
  · intro name requested gpu listed isMemory shown
    exact nothing (fun grant member => (apart grant member).vram
      (List.any_eq_true.mpr ⟨name, List.mem_map_of_mem listed, isMemory⟩) gpu shown) _
  · intro name claimed
    exact nothing (fun grant member => (apart grant member).scalars name claimed) _
  · intro grant member
    exact (apart grant member).conflicts grant List.mem_cons_self

/-- Where a Job is accounted for beside the Leases, it is so beside the Grants as well
exactly if these fit into what is left. -/
theorem accounted_append_iff {leases grants : List ResolvedClaims}
    (words : RecheckWords config row (leases ++ grants))
    (accounted : Accounted sample config row leases) :
    Accounted sample config row (leases ++ grants) ↔
      GrantsFit sample config row leases grants := by
  have vector := accounted.vector
  have others := words.debits
  rw [List.forall_mem_append] at others
  rw [legacyFullVectorBlockers_eq_nil words.own others.1 words.capacities] at vector
  obtain ⟨scalars, clear⟩ := vector
  constructor
  · intro all
    have joint := all.vector
    rw [legacyFullVectorBlockers_eq_nil words.own words.debits words.capacities,
      NonScalarClear.append_iff] at joint
    refine ⟨?_, ?_, ?_, joint.2.2⟩
    · intro requested memory claimed fresh
      obtain ⟨other, same, room⟩ := all.ram requested claimed
      cases fresh.symm.trans same
      rw [List.map_append, List.sum_append] at room
      omega
    · intro name requested gpu listed isMemory shown
      obtain ⟨other, same, room⟩ := all.vram name requested listed isMemory
      cases shown.symm.trans same
      rw [List.map_append, List.sum_append] at room
      omega
    · intro name claimed
      have room := joint.1 name claimed
      rw [List.map_append, List.sum_append] at room
      omega
  · intro fit
    refine ⟨?_, ?_, ?_⟩
    · intro requested claimed
      obtain ⟨memory, fresh, room⟩ := accounted.ram requested claimed
      have left := fit.ram requested memory claimed fresh
      refine ⟨memory, fresh, ?_⟩
      rw [List.map_append, List.sum_append]
      omega
    · intro name requested listed isMemory
      obtain ⟨gpu, shown, room⟩ := accounted.vram name requested listed isMemory
      have left := fit.vram name requested gpu listed isMemory shown
      refine ⟨gpu, shown, ?_⟩
      rw [List.map_append, List.sum_append]
      omega
    · rw [legacyFullVectorBlockers_eq_nil words.own words.debits words.capacities,
        NonScalarClear.append_iff]
      refine ⟨?_, clear, fit.conflicts⟩
      intro name claimed
      have room := scalars name claimed
      have left := fit.scalars name claimed
      rw [List.map_append, List.sum_append]
      omega

theorem ResourceClaims.claimsGpu_of_vram {resources : ResourceClaims}
    (listed : (name, requested) ∈ resources.custom.rows) (vram : isVram name = true) :
    resources.claimsGpu = true := by
  rw [claimsGpu, Bool.or_eq_true]
  exact .inr (List.any_eq_true.mpr ⟨name, List.mem_map_of_mem listed, vram⟩)

/-- A Job that claims a GPU is blocked where the sample shows none. -/
theorem gpuEvidence_of_clear (claims : resources.claimsGpu = true)
    (clear : (gpuEvidence host evidence now resources report).2.1 = []) :
    ∃ gpu, (gpuEvidence host evidence now resources report).1 = some gpu := by
  unfold gpuEvidence at clear ⊢
  simp only [claims, Bool.true_or, if_true] at clear ⊢
  split at clear
  · cases clear
  · next unneeded =>
    simp only [requiredGpuMaxAge, claims, if_true, List.filterMap_cons, id_eq] at unneeded
    exact absurd unneeded (by simp)
  · split at clear
    · cases clear
    · split at clear
      · exact ⟨_, rfl⟩
      · cases clear

theorem accounted_of_clear (positive : row.spec.resources.nonzero = true)
    (shown : (gpuEvidence sample.host sample.evidence sample.now row.spec.resources
      (sample.reports row.spec)).2.1 = [])
    (clear : debitBlockers sample.host sample.evidence sample.now row.spec.resources
      (sample.reports row.spec) debits = [])
    (vector : legacyFullVectorBlockers row.claims config.capacities debits
      config.impactIncompatibilities = .ok []) : Accounted sample config row debits := by
  rw [ResourceClaims.nonzero, Bool.and_eq_true, decide_eq_true_eq, List.all_eq_true] at positive
  obtain ⟨ram, vram⟩ := List.append_eq_nil_iff.mp clear
  refine ⟨?_, ?_, vector⟩
  · intro requested claimed
    simp only [ramBlockers, claimed] at ram
    split at ram
    · cases ram
    · next memory fresh =>
      refine ⟨memory, fresh, (memoryBlockers_eq_nil ?_ memory.headroomMb_lt).mp ram⟩
      rintro rfl
      exact positive.1 claimed
  · intro name requested listed isMemory
    have claims := ResourceClaims.claimsGpu_of_vram listed isMemory
    obtain ⟨gpu, found⟩ := gpuEvidence_of_clear claims shown
    rw [found] at vram
    have own := List.flatMap_eq_nil_iff.mp vram (name, requested)
      (List.mem_filter.mpr ⟨listed, isMemory⟩)
    refine ⟨gpu, found, (memoryBlockers_eq_nil ?_ gpu.bounded).mp own⟩
    exact of_decide_eq_true (positive.2 requested (List.mem_map_of_mem listed))

end Accounting

theorem JobSpec.requiresHostObservation_of_claimsGpu {spec : JobSpec}
    (claims : spec.resources.claimsGpu = true) : spec.requiresHostObservation = true := by
  have required : spec.resources.requireHostObservation = true := by
    rw [ResourceClaims.claimsGpu, Bool.or_eq_true] at claims
    rw [ResourceClaims.requireHostObservation, Bool.or_eq_true, Bool.or_eq_true]
    cases claims with
    | inl slots =>
      cases listed : spec.resources.gpuSlots with
      | none =>
        rw [listed] at slots
        cases slots
      | some slots => exact .inl (.inr rfl)
    | inr memory => exact .inr memory
  simp [requiresHostObservation, required]

theorem JobSpec.requiresHostObservation_of_ramMb {spec : JobSpec}
    (claimed : spec.resources.ramMb = some requested) : spec.requiresHostObservation = true := by
  simp [requiresHostObservation, ResourceClaims.requireHostObservation, claimed]

section Recheck

variable {store : NativeStore} {config : DaemonConfig} {input : ReleaseInput} {job : PreparedJob}
  {row : JobRow} {sample : Sampled}

/-- The blockers of a clear sample: those of the debits, and those of a GPU that is
not shown. -/
theorem NativeStore.Rechecked.clear (checked : NativeStore.Rechecked store config input job row)
    (prepared : job.spec = row.spec) (required : row.spec.requiresHostObservation = true)
    (used : ∃ captured, input.observation = some (.ok (sample.evaluate, captured))) :
    debitBlockers sample.host sample.evidence sample.now row.spec.resources
        (sample.reports row.spec) (store.activeClaimsExcludingAttempt job.attemptId) = [] ∧
      (gpuEvidence sample.host sample.evidence sample.now row.spec.resources
        (sample.reports row.spec)).2.1 = [] := by
  obtain ⟨captured, given⟩ := used
  have silent := checked.observed sample.evaluate captured given prepared required
  simp only [Sampled.evaluate, evaluateAdmission, sortBlockers_eq_nil,
    List.append_eq_nil_iff] at silent
  exact ⟨silent.1.1, silent.1.2⟩

/-- An authorized release accounts for the granted Leases of other Attempts. -/
theorem NativeStore.Rechecked.accounted (checked : NativeStore.Rechecked store config input job row)
    (prepared : job.spec = row.spec) (positive : row.spec.resources.nonzero = true)
    (used : row.spec.requiresHostObservation = true →
      ∃ captured, input.observation = some (.ok (sample.evaluate, captured))) :
    Accounted sample config row (store.activeClaimsExcludingAttempt job.attemptId) := by
  cases required : row.spec.requiresHostObservation with
  | true =>
    obtain ⟨debits, shown⟩ := checked.clear prepared required (used required)
    exact accounted_of_clear positive shown debits checked.vector
  | false =>
    refine ⟨?_, ?_, checked.vector⟩
    · intro requested claimed
      cases required.symm.trans (JobSpec.requiresHostObservation_of_ramMb claimed)
    · intro name requested listed vram
      cases required.symm.trans (JobSpec.requiresHostObservation_of_claimsGpu
        (ResourceClaims.claimsGpu_of_vram listed vram))

/-- An authorized release accounts for every other debit if no outstanding Grant of
the coordinator shares anything with the Job, and exactly if the outstanding
Grants fit into what the Job and the other Leases leave. -/
theorem authorized_accounts_for_grants_iff (machine : MachineStore)
    (found : store.jobs.get? job.jobId = some row) (prepared : job.spec = row.spec)
    (positive : row.spec.resources.nonzero = true) (used : row.spec.requiresHostObservation = true →
      ∃ captured, input.observation = some (.ok (sample.evaluate, captured)))
    (words : RecheckWords config row (store.otherDebits machine job.attemptId))
    (authorized : store.Authorizes config input job) :
    ((∀ grant ∈ machine.remoteDebits, GrantApart sample config row grant) →
      Accounted sample config row (store.otherDebits machine job.attemptId)) ∧
    (Accounted sample config row (store.otherDebits machine job.attemptId) ↔
      GrantsFit sample config row (store.activeClaimsExcludingAttempt job.attemptId)
        machine.remoteDebits) := by
  obtain ⟨checkedRow, checked⟩ := authorized.rechecked
  cases found.symm.trans checked.found
  have exact_ := accounted_append_iff words (checked.accounted prepared positive used)
  exact ⟨fun apart => exact_.mpr (grantsFit_of_apart apart), exact_⟩

end Recheck

/-- A Job that claims 300 MB and waits for a time that has passed. -/
def memorySpec : JobSpec where
  priority := 0
  fileStdin := false
  resources := { ResourceClaims.default with ramMb := some 300 }
  observed := false
  labels := []
  childSubmissionPolicy := none
  conditions := [⟨.notBefore 0, .none, .failed⟩]
  retry := ⟨1, 0, []⟩
  postconditions := 0
  timeoutSeconds := none
  quiet := none

def memoryRow : JobRow where
  state := .pending
  outcome := none
  reasonCode := none
  spec := memorySpec
  claims := { ResolvedClaims.default with ramMb := 300 }
  stdinHash := none
  stdinLen := none
  attemptId := none
  invocationId := none
  containmentId := none
  rootExitCode := none
  acceptedMs := 0
  startedMs := none
  finishedMs := none
  stdoutLen := 0
  stderrLen := 0
  cancelRequested := false
  retryNotBeforeMs := none
  reservationNotBeforeMs := none
  batchMember := none
  batchIndex := 0

def memoryConfig : DaemonConfig where
  capacities := soloConfig.capacities
  impactIncompatibilities := .empty
  hostId := none
  bootId := none
  daemonGeneration := 7
  conditionRescanIntervalMillis := 1000
  admissionWallClockLimitSeconds := 60
  quietMaxSampleGapMillis := 0
  preReleaseMaxDeferrals := 3
  preReleaseBackoffMillis := 1000
  resolve _ := .ok ResolvedClaims.default

/-- A fresh sample of a host with this much free memory; 50 MB stay free. -/
def memorySample (free : Nat) (bounded : free < u64Bound) : Sampled where
  host := ⟨1000, 50, 0, none⟩
  evidence := ⟨⟨0, 0, 0⟩, ⟨0, .available ⟨free, none, bounded⟩⟩, ⟨0, .unavailable "no GPU"⟩⟩
  reports _ := ⟨none, none, [], [], true⟩
  now := 0

def memoryPass (machine : MachineStore) : PassInput where
  now := 1
  refreshNow := 1
  evaluations := ⟨1, 0, fun _ => none⟩
  remote := machine.remoteView
  attachment := ⟨false, none, false, false⟩
  observation := some (.ok (memorySample 1000 (by decide)).evaluate)
  logDirectory := .ok ()

def memoryInput (free : Nat) (bounded : free < u64Bound) : ReleaseInput where
  now := 2
  startedNow := 2
  evaluations := ⟨2, 0, fun _ => none⟩
  observation := some (.ok ((memorySample free bounded).evaluate, 0))
  maxAge := some 1000
  conditionsExpire := 1000
  monotonicNow := 0

/-- The Job is accepted, planned and admitted beside the debits of a coordinator,
and its suspended root recorded. -/
def memoryAdmitted (machine : MachineStore) : StoreResult (NativeStore × PreparedJob) := do
  let inserted ← (NativeStore.initial.drawn 2).insertJob 1 memoryRow
  let accepted ← inserted.insertCondition 2
    ⟨1, 0, .waiting, ⟨.notBefore 0, .none, .failed⟩, none, false, none, none⟩
  let (planned, _) ← accepted.scheduleJob memoryConfig (memoryPass machine) 1 memorySpec
  match ← planned.scheduleJob memoryConfig (memoryPass machine) 1 memorySpec with
  | (admitted, .exit (.ready job)) =>
    let suspended ← admitted.recordSuspendedRoot job 99 (.linux "host" "boot" 99 1 1 0) (.ok ())
    return (suspended, job)
  | _ => .error (.invalidState "not admitted")

/-- A candidate of the other domain is offered beside the admitted Job. -/
def memoryOffers (scalar : String) (claimed : Nat) : List Event :=
  [.manager 6 (.enqueue 33 (.candidateUpsert
    { demoCandidate with claims := ⟨Table.empty.set scalar claimed, [], [], []⟩ }))] ++ roundTrip ++
    [.offers ⟨0, none, fun _ => ⟨50, 51⟩⟩ ⟨[memoryRow.claims], []⟩]

/-- Whether the admitted Job is released against a sample with this much free
memory, with what the Grants of the coordinator hold by then. -/
def memoryReleases (free : Nat) (bounded : free < u64Bound) (before after : MachineStore)
    (held : List ResolvedClaims) : Bool :=
  match memoryAdmitted before with
  | .error _ => false
  | .ok (store, job) =>
    decide (job.spec = memorySpec) &&
      ((store.jobs.get? job.jobId).any fun row =>
        row.spec = memorySpec && row.claims = memoryRow.claims) &&
      decide (store.otherDebits after job.attemptId = held) && decide (after.remoteDebits = held) &&
      match store.authorizeConditionRelease memoryConfig (memoryInput free bounded) job with
      | .ok (_, .authorized _ _) => true
      | _ => false

theorem memoryReleases_eq_true (released : memoryReleases free bounded before after held = true) :
    ∃ store job row, memoryAdmitted before = .ok (store, job) ∧
      store.jobs.get? job.jobId = some row ∧ job.spec = memorySpec ∧ row.spec = memorySpec ∧
      row.claims = memoryRow.claims ∧ store.otherDebits after job.attemptId = held ∧
      after.remoteDebits = held ∧ store.Authorizes memoryConfig (memoryInput free bounded) job := by
  unfold memoryReleases at released
  split at released
  · cases released
  · next store job admitted =>
    simp only [test_iff, Option.any_eq_true] at released
    obtain ⟨⟨⟨⟨prepared, row, found, own, claims⟩, debits⟩, grants⟩, authorized⟩ := released
    split at authorized
    · next next deadline expires computed =>
      exact ⟨store, job, row, admitted, found, prepared, own, claims, debits, grants,
        next, deadline, expires, .inr computed⟩
    · cases authorized

/-- A Grant of CPU units is offered between admission and release of a Job that
claims memory. -/
theorem memoryJob_accounts_beside_cpu_grant : ∃ before system store job row,
    System.Reached soloConfig (fun _ => 8) before ∧
      before.run soloConfig (memoryOffers "cpu_units" 2) = some system ∧
      memoryAdmitted before.coordinator.store = .ok (store, job) ∧
      store.jobs.get? job.jobId = some row ∧
      store.Authorizes memoryConfig (memoryInput 400 (by decide)) job ∧
      system.coordinator.store.remoteDebits = [{ ResolvedClaims.default with cpuUnits := 2 }] ∧
      Accounted (memorySample 400 (by decide)) memoryConfig row
        (store.otherDebits system.coordinator.store job.attemptId) := by
  have ran : ((System.initial soloConfig fun _ => 8).run soloConfig demoConnects).any
      (fun before => (before.run soloConfig (memoryOffers "cpu_units" 2)).any fun system =>
        memoryReleases 400 (by decide) before.coordinator.store system.coordinator.store
          [{ ResolvedClaims.default with cpuUnits := 2 }]) = true := by
    decide +kernel
  obtain ⟨before, connected, offers⟩ := (Option.any_eq_true _ _).mp ran
  obtain ⟨system, offered, released⟩ := (Option.any_eq_true _ _).mp offers
  obtain ⟨store, job, row, admitted, found, prepared, own, claims, debits, grants, authorized⟩ :=
    memoryReleases_eq_true released
  have words : RecheckWords memoryConfig row
      (store.otherDebits system.coordinator.store job.attemptId) := by
    rw [debits]
    refine ⟨?_, ?_, ?_⟩
    · rw [claims]
      exact words_of_rows (by decide)
    · simp only [List.mem_singleton, forall_eq]
      exact words_of_rows (by decide)
    · exact (forall_rows_amount (legacyCapacities memoryConfig.capacities)
        (fun _ value => value < u64Bound) fun _ => Nat.two_pow_pos 64).mp (by decide)
  have accounts := @authorized_accounts_for_grants_iff store memoryConfig
    (memoryInput 400 (by decide)) job row (memorySample 400 (by decide)) system.coordinator.store
    found (prepared.trans own.symm) (by rw [own]; decide) (fun _ => ⟨0, rfl⟩) words authorized
  refine ⟨before, system, store, job, row, System.reached_of_run connected, offered, admitted,
    found, authorized, grants, accounts.1 ?_⟩
  rw [grants]
  simp only [List.mem_singleton, forall_eq]
  refine ⟨fun _ => rfl, ?_, ?_, ?_⟩
  · rw [own]
    intro memory
    cases memory
  · rw [claims]
    exact (forall_rows_amount (scalarEntries memoryRow.claims) (fun name value => value ≠ 0 →
      ResolvedClaims.debit { ResolvedClaims.default with cpuUnits := 2 } name = 0)
        fun _ zero => absurd rfl zero).mp (by decide)
  · rw [claims]
    simp [NonScalarClear, memoryRow, ResolvedClaims.default, fenceConflicts]

/-- The Job and the offered Grant hold 600 MB of the 400 MB that the release
found free. -/
theorem authorized_beside_offered_grant : ∃ before system store job row,
    System.Reached soloConfig (fun _ => 8) before ∧
      before.run soloConfig (memoryOffers "ram_mb" 300) = some system ∧
      memoryAdmitted before.coordinator.store = .ok (store, job) ∧
      store.jobs.get? job.jobId = some row ∧ job.spec = row.spec ∧
      row.spec.resources.nonzero = true ∧
      store.Authorizes memoryConfig (memoryInput 400 (by decide)) job ∧
      ¬ Accounted (memorySample 400 (by decide)) memoryConfig row
        (store.otherDebits system.coordinator.store job.attemptId) := by
  have ran : ((System.initial soloConfig fun _ => 8).run soloConfig demoConnects).any
      (fun before => (before.run soloConfig (memoryOffers "ram_mb" 300)).any fun system =>
        memoryReleases 400 (by decide) before.coordinator.store system.coordinator.store
          [{ ResolvedClaims.default with ramMb := 300 }]) = true := by
    decide +kernel
  obtain ⟨before, connected, offers⟩ := (Option.any_eq_true _ _).mp ran
  obtain ⟨system, offered, released⟩ := (Option.any_eq_true _ _).mp offers
  obtain ⟨store, job, row, admitted, found, prepared, own, _, debits, _, authorized⟩ :=
    memoryReleases_eq_true released
  refine ⟨before, system, store, job, row, System.reached_of_run connected, offered, admitted,
    found, prepared.trans own.symm, by rw [own]; decide, authorized, ?_⟩
  rw [debits]
  intro accounted
  obtain ⟨memory, fresh, room⟩ := accounted.ram 300 (by rw [own]; rfl)
  cases fresh
  revert room
  decide

end Stillyard
