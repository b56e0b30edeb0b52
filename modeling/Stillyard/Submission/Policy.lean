import Stillyard.Submission.Fences

/-!
# Policies of managed submissions

A process that the daemon started may submit Jobs of its own.  Its Job is then
the parent, and the policy that the parent's specification delegates limits the
child.  The evaluator walks from the parent to the root, checks the child against
the policy of every Job on the way, and intersects the limits; a policy that the
child delegates in turn must lie within the intersection.
-/

namespace Stillyard

open Relational Fallible

/-- A durable identifier: an entity and the store that owns it. -/
structure DurableId where
  storeUuid : Uuid
  entityUuid : Uuid
  deriving DecidableEq, Repr

instance : ToString DurableId := ⟨fun id => s!"{id.storeUuid}~{id.entityUuid}"⟩

structure ManagedParent where
  jobId : DurableId
  attemptId : DurableId
  invocationId : DurableId
  deriving DecidableEq, Repr

inductive SubmissionScope where
  | unmanaged
  | managed (parent : ManagedParent)
  deriving DecidableEq, Repr

def SubmissionScope.parent : SubmissionScope → Option ManagedParent
  | .unmanaged => none
  | .managed parent => some parent

/-- `SubmissionScope::key`: the Job and the Attempt of the parent. -/
def SubmissionScope.key : SubmissionScope → Option (Uuid × Uuid)
  | .unmanaged => none
  | .managed parent => some (parent.jobId.entityUuid, parent.attemptId.entityUuid)

structure ManagedPolicyAdmissionSnapshot where
  parent : ManagedParent
  evaluatedUnixMillis : Int
  effectivePolicy : ChildSubmissionPolicy
  policyAncestors : List DurableId
  deriving DecidableEq

/-- The columns of `jobs` that say where a Job comes from.  They are written with
the Job, and never changed. -/
structure JobOrigin where
  submissionId : Uuid
  batchId : Option Uuid
  parentJobId : Option Uuid
  parentAttemptId : Option Uuid
  parentInvocationId : Option Uuid
  resolvedChildPolicy : Option ResolvedChildSubmissionPolicy
  managedPolicyAdmission : Option ManagedPolicyAdmissionSnapshot
  deriving DecidableEq

def managedParentFromColumns (storeUuid : Uuid) :
    Option Uuid → Option Uuid → Option Uuid → StoreResult (Option ManagedParent)
  | none, none, none => .ok none
  | some job, some attempt, some invocation =>
    .ok (some ⟨⟨storeUuid, job⟩, ⟨storeUuid, attempt⟩, ⟨storeUuid, invocation⟩⟩)
  | _, _, _ => .error (.invalidState "managed parent columns are only partially populated")

/-- The parent in the columns of a Job. -/
def JobOrigin.parent (origin : JobOrigin) (storeUuid : Uuid) :
    StoreResult (Option ManagedParent) :=
  managedParentFromColumns storeUuid origin.parentJobId origin.parentAttemptId
    origin.parentInvocationId

/-- The first characters of a text that fit into a number of bytes. -/
def truncateBytes : Nat → List Char → List Char
  | _, [] => []
  | limit, char :: rest =>
    if char.utf8Size ≤ limit then char :: truncateBytes (limit - char.utf8Size) rest else []

def truncatePolicyDetail (detail : String) : String :=
  String.ofList (truncateBytes 4096 detail.toList)

def policyRejection (code detail : String) : StoreError :=
  .operationRejected code (truncatePolicyDetail detail)

def contextualizePolicyRejection (parent : Option ManagedParent) (batchMember : Option String) :
    StoreError → StoreError
  | .operationRejected code detail => match parent with
    | none => .operationRejected code detail
    | some parent =>
      let member := batchMember.elim "" fun name => "; batch_member=" ++ name.quote
      .operationRejected code (truncatePolicyDetail
        (s!"parent_job={parent.jobId} parent_attempt={parent.attemptId} " ++
          s!"parent_invocation={parent.invocationId}" ++ member ++ "; " ++ detail))
  | error => error

/-- How `{:?}` shows an optional amount. -/
def debugAmount : Option Nat → String
  | none => "None"
  | some amount => s!"Some({amount})"

/-- Does the limit refuse the claim? -/
def exceeds (requested permitted : Option Nat) : Bool :=
  requested.any fun value => permitted.all fun maximum => maximum < value

/-- The built-in scalars of a claim, each with its limit. -/
def limitedScalars (resources : ResourceClaims) (limits : ResourceClaimLimits) :
    List (String × Option Nat × Option Nat) :=
  [("cpu_units", resources.cpuUnits, limits.cpuUnits), ("ram_mb", resources.ramMb, limits.ramMb),
    ("cargo_slots", resources.cargoSlots, limits.cargoSlots),
    ("gpu_slots", resources.gpuSlots, limits.gpuSlots)]

/-- One custom claim of `validate_resource_claims_against_limit`. -/
def validateCustomClaim (limits : ResourceClaimLimits) (ancestor : DurableId)
    (entry : String × Nat) : StoreResult Unit := do
  let canonicalName ← orError (canonicalCustomResourceName entry.1)
    (.invalidSpec invalidGpuUuid.text)
  require ((limits.custom.get? canonicalName).any (entry.2 ≤ ·))
    (policyRejection "child_claim_not_permitted"
      (s!"custom claim {entry.1.quote}={entry.2} is denied by policy ancestor {ancestor}"))

def validateResourceClaimsAgainstLimit (resources : ResourceClaims) (limits : ResourceClaimLimits)
    (ancestor : DurableId) : StoreResult Unit := do
  (limitedScalars resources limits).forM fun scalar =>
    require (!exceeds scalar.2.1 scalar.2.2)
      (policyRejection "child_claim_not_permitted"
        (s!"claim {scalar.1}=" ++ debugAmount scalar.2.1 ++ " exceeds " ++
          debugAmount scalar.2.2 ++ s!" at policy ancestor {ancestor}"))
  resources.custom.rows.forM (validateCustomClaim limits ancestor)

/-- The smaller of two limits; a missing one refuses. -/
def minimumLimit : Option Nat → Option Nat → Option Nat
  | some left, some right => some (min left right)
  | _, _ => none

def intersectClaimLimits (left right : ResourceClaimLimits) : ResourceClaimLimits where
  cpuUnits := minimumLimit left.cpuUnits right.cpuUnits
  ramMb := minimumLimit left.ramMb right.ramMb
  cargoSlots := minimumLimit left.cargoSlots right.cargoSlots
  gpuSlots := minimumLimit left.gpuSlots right.gpuSlots
  custom := (left.custom.filter fun name _ => (right.custom.get? name).isSome).modify
    fun name value => (right.custom.get? name).elim value (min value)

/-- A Job on the way to the root, with its policy. -/
abbrev PolicyAncestor := DurableId × ResolvedChildSubmissionPolicy

/-- The probes of a Job. -/
def JobSpec.probes (spec : JobSpec) : List ProbeCondition :=
  spec.conditions.filterMap fun condition => match condition.predicate with
    | .probe probe => some probe
    | _ => none

/-- Every impact is allowed.  The subject says whose impacts they are. -/
def checkImpacts (subject : String) (impacts : List String) (ancestor : PolicyAncestor) :
    StoreResult Unit :=
  impacts.forM fun impact => require (ancestor.2.policy.allowedImpacts.contains impact)
    (policyRejection "child_impact_not_permitted"
      (subject ++ s!"impact {impact.quote} is denied by policy ancestor {ancestor.1}"))

/-- Every path is allowed by an ancestor. -/
def checkPaths (subject : String) (denied : String → StoreError)
    (allows : String → Except IoError Bool) (paths : List String) (ancestor : DurableId) :
    StoreResult Unit :=
  paths.forM fun path => do
    let allowed ← (allows path).mapError fun error => .invalidSpec
      ("cannot resolve " ++ subject ++
        s!" fence while checking policy ancestor {ancestor}: {error.text}")
    require allowed (denied path)

/-- Every fence is allowed.  The subject says whose fences they are and of which
kind. -/
def checkFences (subject : String) (allows : String → Except IoError Bool) (fences : List String)
    (ancestor : DurableId) : StoreResult Unit :=
  checkPaths ("requested " ++ subject)
    (fun fence => policyRejection "child_fence_not_permitted"
      (subject ++ s!" fence {fence.quote} is denied by policy ancestor {ancestor}"))
    allows fences ancestor

/-- The impacts and fences of one set of claims. -/
def checkUses (view : FileView) (subject : String) (resources : ResourceClaims)
    (ancestor : PolicyAncestor) : StoreResult Unit := do
  checkImpacts subject resources.impacts ancestor
  checkFences (subject ++ "shared") (ancestor.2.allowsShared view) resources.sharedFences ancestor.1
  checkFences (subject ++ "exclusive") (ancestor.2.allowsExclusive view) resources.exclusiveFences
    ancestor.1

/-- The claims, impacts and fences of a probe. -/
def checkProbe (view : FileView) (ancestor : PolicyAncestor) (probe : ProbeCondition) :
    StoreResult Unit := do
  validateResourceClaimsAgainstLimit probe.resources ancestor.2.policy.maxClaims ancestor.1
  checkUses view "probe " probe.resources ancestor

/-- The checks of a child against one ancestor. -/
def checkAncestor (view : FileView) (spec : JobSpec) (ancestor : PolicyAncestor) :
    StoreResult Unit := do
  let policy := ancestor.2.policy
  require (policy.minPriority ≤ spec.priority && spec.priority ≤ policy.maxPriority)
    (policyRejection "child_priority_not_permitted"
      (s!"requested priority {spec.priority} is outside allowed inclusive range " ++
        s!"{policy.minPriority}..={policy.maxPriority} at policy ancestor {ancestor.1}"))
  validateResourceClaimsAgainstLimit spec.resources policy.maxClaims ancestor.1
  spec.probes.forM (checkProbe view ancestor)
  checkUses view "" spec.resources ancestor
  require (!spec.observed || policy.allowObserved)
    (policyRejection "child_observed_not_permitted"
      (s!"observed policy is denied by policy ancestor {ancestor.1}"))
  require (spec.quiet.isNone || policy.allowQuiet)
    (policyRejection "child_quiet_not_permitted"
      (s!"quiet policy is denied by policy ancestor {ancestor.1}"))

/-! ## The intersection of the ancestors -/

/-- The accumulators of the loop over the ancestors. -/
structure EffectivePolicy where
  minPriority : Int
  maxPriority : Int
  claims : ResourceClaimLimits
  impacts : List String
  /-- The required labels, each with the Job that asked for it first. -/
  required : Table String (String × DurableId)
  allowObserved : Bool
  allowQuiet : Bool
  allowDelegation : Bool

/-- The accumulators before the loop, from the policy of the parent. -/
def EffectivePolicy.start (policy : ChildSubmissionPolicy) : EffectivePolicy where
  minPriority := policy.minPriority
  maxPriority := policy.maxPriority
  claims := policy.maxClaims
  impacts := policy.allowedImpacts
  required := .empty
  allowObserved := true
  allowQuiet := true
  allowDelegation := true

/-- Require one label of an ancestor. -/
def requireLabel (ancestor : DurableId) (required : Table String (String × DurableId))
    (label : Label) : StoreResult (Table String (String × DurableId)) :=
  match required.get? label.key with
  | some (value, _) =>
    if value = label.value then .ok required
    else .error (.invalidState
      (s!"policy ancestors disagree on required label {label.key.quote}"))
  | none => .ok (required.set label.key (label.value, ancestor))

/-- Intersect with the policy of one ancestor. -/
def EffectivePolicy.absorb (effective : EffectivePolicy) (ancestor : PolicyAncestor) :
    StoreResult EffectivePolicy := do
  let policy := ancestor.2.policy
  let required ← policy.requiredLabels.foldlM (requireLabel ancestor.1) effective.required
  return {
    minPriority := max effective.minPriority policy.minPriority
    maxPriority := min effective.maxPriority policy.maxPriority
    claims := intersectClaimLimits effective.claims policy.maxClaims
    impacts := effective.impacts.filter fun impact => policy.allowedImpacts.contains impact
    required
    allowObserved := effective.allowObserved && policy.allowObserved
    allowQuiet := effective.allowQuiet && policy.allowQuiet
    allowDelegation := effective.allowDelegation && policy.allowDelegation }

/-- One round of the loop over the ancestors. -/
def EffectivePolicy.round (view : FileView) (spec : JobSpec) (effective : EffectivePolicy)
    (ancestor : PolicyAncestor) : StoreResult EffectivePolicy := do
  checkAncestor view spec ancestor
  effective.absorb ancestor

/-- Labels by their key; a later label wins. -/
def labelTable (labels : List Label) : Table String String :=
  labels.foldl (fun table label => table.set label.key label.value) .empty

/-- The check of one required label. -/
def checkRequiredLabel (labels : List Label) (entry : String × String × DurableId) :
    StoreResult Unit := do
  let actual ← orError ((labelTable labels).get? entry.1)
    (policyRejection "child_required_label_missing"
      (s!"required label {entry.1.quote} from policy ancestor {entry.2.2} is absent"))
  require (actual = entry.2.1)
    (policyRejection "child_required_label_conflict"
      (s!"label {entry.1.quote} conflicts with policy ancestor {entry.2.2}: " ++
        s!"expected {entry.2.1.quote}"))

/-- The claims of the envelope that stands for the limits of a policy. -/
def ResourceClaimLimits.envelope (limits : ResourceClaimLimits) : ResourceClaims :=
  ⟨limits.cpuUnits, limits.ramMb, limits.cargoSlots, limits.gpuSlots, limits.custom, [], [], []⟩

/-- The error of a policy that is wider than an ancestor's. -/
def childPolicyEscalation (detail : String) : StoreError :=
  policyRejection "child_policy_escalation" detail

/-- Every delegated root of one kind is allowed by an ancestor. -/
def checkRoots (kind : String) (allows : String → Except IoError Bool) (roots : List String)
    (ancestor : DurableId) : StoreResult Unit :=
  checkPaths ("delegated " ++ kind)
    (fun _ => childPolicyEscalation
      ("delegated " ++ kind ++ s!" fence is denied by ancestor {ancestor}"))
    allows roots ancestor

/-- Every delegated root is allowed by an ancestor. -/
def checkDelegatedRoots (view : FileView) (delegated : ChildSubmissionPolicy)
    (ancestor : PolicyAncestor) : StoreResult Unit := do
  checkRoots "shared" (ancestor.2.allowsShared view) delegated.sharedRoots ancestor.1
  checkRoots "exclusive" (ancestor.2.allowsExclusive view) delegated.exclusiveRoots ancestor.1

/-- Are the delegated labels at least the required ones? -/
def labelsCover (labels : List Label) (required : Table String (String × DurableId)) : Bool :=
  required.rows.all fun entry => (labelTable labels).get? entry.1 = some entry.2.1

def validateDelegatedPolicy (view : FileView) (delegated : ChildSubmissionPolicy)
    (effective : EffectivePolicy) (first : PolicyAncestor) (rest : List PolicyAncestor) :
    StoreResult Unit := do
  (validateResourceClaimsAgainstLimit delegated.maxClaims.envelope effective.claims
    first.1).mapError fun _ =>
      childPolicyEscalation "delegated claim limits widen the effective ancestor policy"
  require (effective.minPriority ≤ delegated.minPriority &&
      delegated.maxPriority ≤ effective.maxPriority)
    (childPolicyEscalation "delegated priority range widens the effective ancestor policy")
  require (delegated.allowedImpacts.all effective.impacts.contains &&
      (!delegated.allowObserved || effective.allowObserved) &&
      (!delegated.allowQuiet || effective.allowQuiet) &&
      (!delegated.allowDelegation || effective.allowDelegation))
    (childPolicyEscalation "delegated impacts or booleans widen the effective ancestor policy")
  require (labelsCover delegated.requiredLabels effective.required)
    (childPolicyEscalation "delegated required labels are not a consistent superset")
  (first :: rest).forM (checkDelegatedRoots view delegated)

/-- The check of the policy that the child delegates, if it does. -/
def checkDelegation (view : FileView) (spec : JobSpec) (parent : ManagedParent)
    (effective : EffectivePolicy) (first : PolicyAncestor) (rest : List PolicyAncestor) :
    StoreResult Unit :=
  match spec.childSubmissionPolicy with
  | none => .ok ()
  | some delegated => do
      require effective.allowDelegation (childPolicyEscalation
        (s!"policy delegation is denied by an ancestor of {parent.jobId}"))
      validateDelegatedPolicy view delegated effective first rest

/-! ## The evaluator -/

def maxManagedPolicyDepth : Nat := 64

/-- The policy of one Job on the way to the root. -/
def ancestorPolicy (job : DurableId) (origin : JobOrigin) :
    StoreResult ResolvedChildSubmissionPolicy := do
  let stored ← orError origin.resolvedChildPolicy
    (policyRejection "child_submission_disabled"
      (s!"policy ancestor {job} has no child submission policy"))
  stored.canonicalizeCustomClaims.mapError fun error => .invalidState
    (s!"managed policy ancestor {job} has invalid custom claims: {error.text}")

/-- The walk from a Job to the root.  It may visit `budget` more Jobs, and the
Jobs in `visited` were met before. -/
def managedAncestors (storeUuid : Uuid) (origins : Table Uuid JobOrigin) :
    (budget : Nat) → (visited : List Uuid) → DurableId →
    StoreResult (PolicyAncestor × List PolicyAncestor)
  | 0, _, _ => .error (policyRejection "child_policy_depth_exceeded"
      (s!"managed ancestry would exceed {maxManagedPolicyDepth} Jobs"))
  | budget + 1, visited, job => do
      require (!visited.contains job.entityUuid)
        (.invalidState "managed policy ancestry contains a cycle")
      let origin ← orError (origins.get? job.entityUuid)
        (.invalidState s!"managed policy ancestor {job} is missing")
      let resolved ← ancestorPolicy job origin
      match ← origin.parent storeUuid with
      | none => return ((job, resolved), [])
      | some parent =>
        let (next, rest) ← managedAncestors storeUuid origins budget (job.entityUuid :: visited)
          parent.jobId
        return ((job, resolved), next :: rest)

/-- The policy that a child is shown to be under. -/
def EffectivePolicy.shown (effective : EffectivePolicy) (parent : ResolvedChildSubmissionPolicy) :
    ChildSubmissionPolicy where
  minPriority := effective.minPriority
  maxPriority := effective.maxPriority
  maxClaims := effective.claims
  allowedImpacts := effective.impacts
  requiredLabels := effective.required.rows.map fun entry => ⟨entry.1, entry.2.1⟩
  sharedRoots := parent.sharedFences.map ResolvedPolicyFence.displayPath
  exclusiveRoots := parent.exclusiveFences.map ResolvedPolicyFence.displayPath
  allowObserved := effective.allowObserved
  allowQuiet := effective.allowQuiet
  allowDelegation := effective.allowDelegation

/-- The evaluation of a child against the Jobs on the way to the root. -/
def evaluateAncestors (view : FileView) (spec : JobSpec) (parent : ManagedParent)
    (first : PolicyAncestor) (rest : List PolicyAncestor) : StoreResult EffectivePolicy := do
  let effective ← (first :: rest).foldlM (EffectivePolicy.round view spec)
    (EffectivePolicy.start first.2.policy)
  effective.required.rows.forM (checkRequiredLabel spec.labels)
  checkDelegation view spec parent effective first rest
  return effective

def evaluateManagedPolicy (storeUuid : Uuid) (origins : Table Uuid JobOrigin) (view : FileView)
    (scope : SubmissionScope) (spec : JobSpec) (evaluatedUnixMillis : Int) :
    StoreResult (Option ManagedPolicyAdmissionSnapshot) :=
  match scope with
  | .unmanaged => .ok none
  | .managed parent => do
      -- The child counts as one of the Jobs of its ancestry.
      let (first, rest) ← managedAncestors storeUuid origins (maxManagedPolicyDepth - 1) []
        parent.jobId
      let effective ← evaluateAncestors view spec parent first rest
      return some ⟨parent, evaluatedUnixMillis, effective.shown first.2,
        (first :: rest).map Prod.fst⟩

end Stillyard
