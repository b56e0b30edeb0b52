import Stillyard.Native.Release

/-!
# Host observation

`evaluate_request` compares what a Job wants with a sample of the host: the
observed free memory must hold the request, a safety margin and everything that
is granted already.  The utilization and quiet detectors look at the sample and
at the Job's policies only; what they report is an input.
-/

namespace Stillyard

open Relational

inductive ComponentValue (α : Type*) where
  | available (value : α)
  | unavailable (detail : String)
  | error (detail : String)

/-- `ComponentEvidence`, the part that the evaluation reads. -/
structure ComponentEvidence (α : Type*) where
  capturedMonotonicMillis : Nat
  value : ComponentValue α

inductive EvidenceFailure where
  | stale (ageMillis : Nat)
  | unavailable (detail : String)
  | error (detail : String)
  | clockDiscontinuity

def ComponentEvidence.valueIfFresh {α : Type*} (evidence : ComponentEvidence α)
    (now maxAge : Nat) : Except EvidenceFailure α :=
  if now < evidence.capturedMonotonicMillis then .error .clockDiscontinuity
  else if maxAge < now - evidence.capturedMonotonicMillis then
    .error (.stale (now - evidence.capturedMonotonicMillis))
  else match evidence.value with
    | .available value => .ok value
    | .unavailable detail => .error (.unavailable detail)
    | .error detail => .error (.error detail)

/-- `MemoryEvidence`; the amounts are `u64` in the program. -/
structure MemoryEvidence where
  availablePhysicalMb : Nat
  commitHeadroomMb : Option Nat
  bounded : availablePhysicalMb < u64Bound

def MemoryEvidence.headroomMb (memory : MemoryEvidence) : Nat :=
  match memory.commitHeadroomMb with
  | none => memory.availablePhysicalMb
  | some commit => min memory.availablePhysicalMb commit

theorem MemoryEvidence.headroomMb_lt (memory : MemoryEvidence) : memory.headroomMb < u64Bound := by
  have bounded := memory.bounded
  unfold headroomMb
  split
  · exact bounded
  · exact lt_of_le_of_lt (min_le_left _ _) bounded

/-- `GpuEvidence`, the part that the memory check reads. -/
structure GpuEvidence where
  uuid : String
  freeMemoryMb : Nat
  bounded : freeMemoryMb < u64Bound

/-- `HostSample` with its evidence about memory. -/
structure HostEvidence extends HostSample where
  memory : ComponentEvidence MemoryEvidence
  gpus : ComponentEvidence (Table String GpuEvidence)

/-- `HostObservationConfig`, the part that the memory check reads. -/
structure ObservationConfig where
  memoryMaxSampleAgeMillis : Nat
  ramSafetyMarginMb : Nat
  vramSafetyMarginMb : Nat
  gpuSlotUuid : Option String

/-- What the utilization and quiet detectors of a Job's policies say.  The ages
are those of policies that look at a GPU. -/
structure DetectorReport where
  observedGpuAge : Option Nat
  quietGpuAge : Option Nat
  observed : List Blocker
  quiet : List Blocker
  satisfied : Bool

def resourceEvidenceBlocker (name : String) : EvidenceFailure → Blocker
  | .stale age => ⟨"observation_stale", s!"{name} evidence age {age}ms exceeds host policy"⟩
  | .unavailable detail | .error detail => ⟨"observation_missing", s!"{name}: {detail}"⟩
  | .clockDiscontinuity =>
    ⟨"observation_stale", s!"{name}: monotonic clock moved behind capture"⟩

def evidenceBlocker (name : String) : EvidenceFailure → Blocker
  | .stale age => ⟨"observation_stale", s!"{name} evidence age {age}ms exceeds policy"⟩
  | .unavailable detail | .error detail => ⟨"detector_unavailable", s!"{name}: {detail}"⟩
  | .clockDiscontinuity =>
    ⟨"observation_stale", s!"{name}: monotonic clock moved behind capture"⟩

def observedResourceBlocker (name : String) (requested headroom margin granted : Nat) :
    Option Blocker :=
  if requested = 0 then none
  else if headroom < margin ∨ headroom - margin < granted then
    some ⟨"observation_unusable",
      s!"{name}: checked headroom arithmetic failed for observed {headroom}, " ++
        s!"margin {margin}, granted {granted}"⟩
  else if requested ≤ headroom - margin - granted then none
  else some ⟨"observed_resource_busy",
    s!"{name}: requested {requested}, observed {headroom}, margin {margin}, " ++
      s!"granted {granted}, available {headroom - margin - granted}"⟩

/-- The blockers of one request for memory, with `checked_granted`. -/
def memoryBlockers (name : String) (requested headroom margin : Nat) (granted : List Nat) :
    List Blocker :=
  match checkedTotal granted with
  | none => [⟨"observation_unusable", s!"{name}: granted debit sum overflow"⟩]
  | some total => (observedResourceBlocker name requested headroom margin total).toList

/-- The RAM part of `evaluate_request`. -/
def ramBlockers (config : ObservationConfig) (evidence : HostEvidence) (now : Nat)
    (resources : ResourceClaims) (granted : List ResolvedClaims) : List Blocker :=
  match resources.ramMb with
  | none => []
  | some requested =>
    match evidence.memory.valueIfFresh now config.memoryMaxSampleAgeMillis with
    | .error failure => [resourceEvidenceBlocker "ram_mb" failure]
    | .ok memory => memoryBlockers "ram_mb" requested memory.headroomMb config.ramSafetyMarginMb
        (granted.map ResolvedClaims.ramMb)

/-- What a GPU's memory is claimed under. -/
def vramName (gpu : GpuEvidence) : String := "vram_mb:" ++ gpu.uuid

/-- `evaluate_vram`. -/
def vramBlockers (config : ObservationConfig) (gpu : GpuEvidence) (resources : ResourceClaims)
    (granted : List ResolvedClaims) : List Blocker :=
  (resources.custom.rows.filter fun entry => isVram entry.1).flatMap fun entry =>
    memoryBlockers entry.1 entry.2 gpu.freeMemoryMb config.vramSafetyMarginMb
      (granted.map fun claims => amount claims.custom (vramName gpu))

/-- Does the Job's own claim name a GPU? -/
def ResourceClaims.claimsGpu (resources : ResourceClaims) : Bool :=
  0 < resources.gpuSlots.getD 0 || resources.custom.keys.any isVram

def requiredGpuMaxAge (config : ObservationConfig) (resources : ResourceClaims)
    (report : DetectorReport) : Option Nat :=
  ([if resources.claimsGpu then some config.memoryMaxSampleAgeMillis else none,
    report.observedGpuAge, report.quietGpuAge].filterMap id).min?

/-- The evidence of the configured GPU, with the blockers where it is missing:
those outside the quiet policy and those of the quiet policy. -/
def gpuEvidence (config : ObservationConfig) (evidence : HostEvidence) (now : Nat)
    (resources : ResourceClaims) (report : DetectorReport) :
    Option GpuEvidence × List Blocker × List Blocker :=
  let nonQuiet := resources.claimsGpu || report.observedGpuAge.isSome
  let quiet := report.quietGpuAge.isSome
  let blocked (plain quieted : Blocker) : Option GpuEvidence × List Blocker × List Blocker :=
    (none, if nonQuiet then [plain] else [], if quiet then [quieted] else [])
  match config.gpuSlotUuid.bind canonicalGpuUuid, requiredGpuMaxAge config resources report with
  | none, _ =>
    let blocker : Blocker :=
      ⟨"gpu_placement_unconfigured", "GPU-dependent Job requires host gpu_slot_uuid"⟩
    blocked blocker blocker
  | some _, none => (none, [], [])
  | some placement, some maxAge =>
    match evidence.gpus.valueIfFresh now maxAge with
    | .error failure =>
      blocked (resourceEvidenceBlocker "nvml" failure) (evidenceBlocker "nvml" failure)
    | .ok gpus => match gpus.get? placement with
      | some gpu => (some gpu, [], [])
      | none =>
        let detail := s!"configured GPU {placement} is absent from current NVML topology"
        blocked ⟨"observation_missing", detail⟩ ⟨"detector_unavailable", detail⟩

/-- The blockers that depend on what is granted: RAM, and the memory of the
configured GPU. -/
def debitBlockers (config : ObservationConfig) (evidence : HostEvidence) (now : Nat)
    (resources : ResourceClaims) (report : DetectorReport) (granted : List ResolvedClaims) :
    List Blocker :=
  ramBlockers config evidence now resources granted ++
    match (gpuEvidence config evidence now resources report).1 with
    | none => []
    | some gpu => vramBlockers config gpu resources granted

def evaluateAdmission (config : ObservationConfig) (evidence : HostEvidence)
    (reports : JobSpec → DetectorReport) (now : Nat) : Observation := fun spec granted =>
  let report := reports spec
  let gpu := gpuEvidence config evidence now spec.resources report
  { evaluatedMonotonicMillis := now
    observationGeneration := evidence.observationGeneration
    nonQuietBlockers := sortBlockers
      (debitBlockers config evidence now spec.resources report granted ++ gpu.2.1 ++
        report.observed)
    quietBlockers := sortBlockers (gpu.2.2 ++ report.quiet)
    quietSampleSatisfied := report.satisfied }

/-! ## What the memory check guarantees -/

section Memory

variable {name : String} {requested headroom margin : Nat} {granted : List Nat}

theorem observedResourceBlocker_eq_none (positive : requested ≠ 0) :
    observedResourceBlocker name requested headroom margin total = none ↔
      requested + margin + total ≤ headroom := by
  unfold observedResourceBlocker
  rw [if_neg positive]
  constructor
  · intro clear
    split at clear
    · cases clear
    · split at clear
      · omega
      · cases clear
  · intro room
    rw [if_neg (by omega), if_pos (by omega)]

/-- A request for memory is not blocked exactly if it fits beside the margin and
everything that is granted. -/
theorem memoryBlockers_eq_nil (positive : requested ≠ 0) (bounded : headroom < u64Bound) :
    memoryBlockers name requested headroom margin granted = [] ↔
      requested + margin + granted.sum ≤ headroom := by
  unfold memoryBlockers
  constructor
  · intro clear
    split at clear
    · cases clear
    · next total computed =>
      rw [Option.toList_eq_nil_iff, observedResourceBlocker_eq_none positive] at clear
      rwa [← checkedTotal_eq_some computed]
  · intro room
    have computed : checkedTotal granted = some granted.sum :=
      checkedTotal_of_lt (by omega)
    rw [computed]
    exact Option.toList_eq_nil_iff.mpr ((observedResourceBlocker_eq_none positive).mpr room)

end Memory

end Stillyard
