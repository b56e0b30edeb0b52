import Stillyard.Submission.Policy

/-!
# Children stay within the policies of their ancestors

What the evaluator guarantees when it accepts a child.  The parent chain is read
from the stored columns, and the guarantee speaks of every Job on it: the child's
own submission is within that Job's policy, and the policy that the child
delegates is no wider in any component.
-/

namespace Stillyard

open Relational Fallible

/-- A claim that is made is limited, and at most its limit. -/
def Capped (requested permitted : Option Nat) : Prop :=
  ∀ value, requested = some value → ∃ maximum, permitted = some maximum ∧ value ≤ maximum

theorem Capped.trans (lower : Capped first second) (upper : Capped second third) :
    Capped first third := by
  intro value requested
  obtain ⟨middle, limited, small⟩ := lower value requested
  obtain ⟨maximum, permitted, large⟩ := upper middle limited
  exact ⟨maximum, permitted, small.trans large⟩

theorem capped_iff : exceeds requested permitted = false ↔ Capped requested permitted := by
  cases requested with
  | none => simp [exceeds, Capped]
  | some value =>
    cases permitted with
    | none | some maximum => simp [exceeds, Capped]

theorem capped_minimumLimit (left right : Option Nat) :
    Capped (minimumLimit left right) left ∧ Capped (minimumLimit left right) right := by
  cases left with
  | none => simp [minimumLimit, Capped]
  | some first => cases right <;> simp [minimumLimit, Capped]

/-- Claims that a policy's limits allow: every built-in scalar, and every custom
scalar under its canonical name. -/
structure ClaimsWithin (resources : ResourceClaims) (limits : ResourceClaimLimits) : Prop where
  cpuUnits : Capped resources.cpuUnits limits.cpuUnits
  ramMb : Capped resources.ramMb limits.ramMb
  cargoSlots : Capped resources.cargoSlots limits.cargoSlots
  gpuSlots : Capped resources.gpuSlots limits.gpuSlots
  custom : ∀ entry ∈ resources.custom.rows, ∃ name,
    canonicalCustomResourceName entry.1 = some name ∧
    Capped (some entry.2) (limits.custom.get? name)

/-- Limits that are nowhere above others. -/
structure LimitsWithin (limits others : ResourceClaimLimits) : Prop where
  cpuUnits : Capped limits.cpuUnits others.cpuUnits
  ramMb : Capped limits.ramMb others.ramMb
  cargoSlots : Capped limits.cargoSlots others.cargoSlots
  gpuSlots : Capped limits.gpuSlots others.gpuSlots
  custom : ∀ name, Capped (limits.custom.get? name) (others.custom.get? name)

theorem LimitsWithin.trans (lower : LimitsWithin first second) (upper : LimitsWithin second third) :
    LimitsWithin first third where
  cpuUnits := lower.cpuUnits.trans upper.cpuUnits
  ramMb := lower.ramMb.trans upper.ramMb
  cargoSlots := lower.cargoSlots.trans upper.cargoSlots
  gpuSlots := lower.gpuSlots.trans upper.gpuSlots
  custom name := (lower.custom name).trans (upper.custom name)

theorem custom_intersectClaimLimits (left right : ResourceClaimLimits) (name : String) :
    (intersectClaimLimits left right).custom.get? name =
      minimumLimit (left.custom.get? name) (right.custom.get? name) := by
  simp only [intersectClaimLimits, Table.get?_modify, Table.get?_filter]
  cases left.custom.get? name <;> cases right.custom.get? name <;>
    simp [minimumLimit, Option.filter]

theorem intersectClaimLimits_within (left right : ResourceClaimLimits) :
    LimitsWithin (intersectClaimLimits left right) left ∧
      LimitsWithin (intersectClaimLimits left right) right := by
  have capped := capped_minimumLimit
  constructor
  · refine ⟨(capped _ _).1, (capped _ _).1, (capped _ _).1, (capped _ _).1, fun name => ?_⟩
    rw [custom_intersectClaimLimits]
    exact (capped _ _).1
  · refine ⟨(capped _ _).2, (capped _ _).2, (capped _ _).2, (capped _ _).2, fun name => ?_⟩
    rw [custom_intersectClaimLimits]
    exact (capped _ _).2

variable {resources : ResourceClaims} {limits : ResourceClaimLimits}

theorem validateResourceClaimsAgainstLimit_eq_ok
    (checked : validateResourceClaimsAgainstLimit resources limits ancestor = .ok done) :
    ClaimsWithin resources limits := by
  simp only [validateResourceClaimsAgainstLimit, bind_eq_ok] at checked
  obtain ⟨_, scalars, customs⟩ := checked
  have scalar : ∀ entry ∈ limitedScalars resources limits, Capped entry.2.1 entry.2.2 := by
    intro entry member
    have passed := of_forM scalars entry member
    rw [require_eq_ok, Bool.not_eq_true'] at passed
    exact capped_iff.mp passed
  constructor
  · exact scalar ("cpu_units", _, _) (by simp [limitedScalars])
  · exact scalar ("ram_mb", _, _) (by simp [limitedScalars])
  · exact scalar ("cargo_slots", _, _) (by simp [limitedScalars])
  · exact scalar ("gpu_slots", _, _) (by simp [limitedScalars])
  · intro entry member
    have passed := of_forM customs entry member
    simp only [validateCustomClaim, ok_iff, Option.any_eq_true, decide_eq_true_eq] at passed
    obtain ⟨name, canonical, maximum, limited, small⟩ := passed
    refine ⟨name, canonical, ?_⟩
    rintro value ⟨⟩
    exact ⟨maximum, limited, small⟩

/-! ## What a policy allows -/

/-- The claims of a Job: its own and those of its probes. -/
def JobSpec.claimed (spec : JobSpec) : List ResourceClaims :=
  spec.resources :: spec.probes.map ProbeCondition.resources

/-- The shared fences of a Job, of its probes and of the policy that it delegates. -/
def JobSpec.sharedPaths (spec : JobSpec) : List String :=
  spec.claimed.flatMap ResourceClaims.sharedFences ++
    spec.childSubmissionPolicy.elim [] ChildSubmissionPolicy.sharedRoots

/-- The exclusive ones. -/
def JobSpec.exclusivePaths (spec : JobSpec) : List String :=
  spec.claimed.flatMap ResourceClaims.exclusiveFences ++
    spec.childSubmissionPolicy.elim [] ChildSubmissionPolicy.exclusiveRoots

/-- Priority, claims and uses of a submission that a policy allows. -/
structure RequestWithin (spec : JobSpec) (limit : ChildSubmissionPolicy) : Prop where
  minPriority : limit.minPriority ≤ spec.priority
  maxPriority : spec.priority ≤ limit.maxPriority
  claims : ∀ resources ∈ spec.claimed, ClaimsWithin resources limit.maxClaims
  impacts : ∀ resources ∈ spec.claimed, ∀ impact ∈ resources.impacts,
    impact ∈ limit.allowedImpacts
  observed : spec.observed = true → limit.allowObserved = true
  quiet : spec.quiet.isSome = true → limit.allowQuiet = true

/-- A submission that a policy allows, with its labels and its delegation. -/
structure SpecWithin (spec : JobSpec) (limit : ChildSubmissionPolicy) : Prop
    extends RequestWithin spec limit where
  labels : ∀ label ∈ limit.requiredLabels,
    (labelTable spec.labels).get? label.key = some label.value
  delegation : spec.childSubmissionPolicy.isSome = true → limit.allowDelegation = true

/-- A policy that is no wider than another in any component but its fences. -/
structure PolicyWithin (delegated limit : ChildSubmissionPolicy) : Prop where
  minPriority : limit.minPriority ≤ delegated.minPriority
  maxPriority : delegated.maxPriority ≤ limit.maxPriority
  claims : LimitsWithin delegated.maxClaims limit.maxClaims
  impacts : ∀ impact ∈ delegated.allowedImpacts, impact ∈ limit.allowedImpacts
  labels : ∀ label ∈ limit.requiredLabels,
    (labelTable delegated.requiredLabels).get? label.key = some label.value
  observed : delegated.allowObserved = true → limit.allowObserved = true
  quiet : delegated.allowQuiet = true → limit.allowQuiet = true
  delegation : delegated.allowDelegation = true → limit.allowDelegation = true

/-- Fences of both kinds that passed the check of a policy. -/
structure FencesAllowed (view : FileView) (shared exclusive : List String)
    (limit : ResolvedChildSubmissionPolicy) : Prop where
  shared : ∀ fence ∈ shared, limit.allowsShared view fence = .ok true
  exclusive : ∀ fence ∈ exclusive, limit.allowsExclusive view fence = .ok true

theorem FencesAllowed.append {fences exclusives : List String}
    (first : FencesAllowed view fences exclusives limit)
    (second : FencesAllowed view roots exclusiveRoots limit) :
    FencesAllowed view (fences ++ roots) (exclusives ++ exclusiveRoots) limit where
  shared := List.forall_mem_append.mpr ⟨first.shared, second.shared⟩
  exclusive := List.forall_mem_append.mpr ⟨first.exclusive, second.exclusive⟩

/-- Fences of one kind that lie inside the fences of a policy: the paths that a Job
names, the keys that it holds, and the roots that it delegates. -/
structure FencesWithin (view : FileView) (scopes : List ResolvedPolicyFence)
    (paths held : List String) (roots : List ResolvedPolicyFence) : Prop where
  named : ∀ fence ∈ paths, view.Confined scopes fence
  held : ∀ key ∈ held, ∃ fence keys, view.Confined scopes fence ∧
    view.resolveFence fence = .ok keys ∧ key ∈ keys
  delegated : ∀ root ∈ roots, ∃ fence, view.Confined scopes fence ∧
    view.resolvePolicyFence fence = .ok root

section Fences

variable {view : FileView} {scopes roots : List ResolvedPolicyFence}
variable {paths own stated keys : List String}

theorem fencesWithin_of_allowed (rooted : view.Rooted)
    (unfollowed : ∀ fence ∈ paths, view.Unfollowed fence)
    (allowed : ∀ fence ∈ paths, view.policyFencesAllow scopes fence = .ok true)
    (held : view.resolveFences own = .ok keys) (asked : own ⊆ paths)
    (delegated : stated.mapM view.resolvePolicyFence = .ok roots) (named : stated ⊆ paths) :
    FencesWithin view scopes paths keys roots := by
  have confined : ∀ fence ∈ paths, view.Confined scopes fence := fun fence member =>
    FileView.policyFencesAllow_confined rooted (unfollowed fence member) (allowed fence member)
  constructor
  · exact confined
  · intro key member
    simp only [FileView.resolveFences, map_eq_ok] at held
    obtain ⟨lists, resolved, rfl⟩ := held
    simp only [List.mem_insertionSort, List.mem_dedup, List.mem_flatten] at member
    obtain ⟨keys, listed, among⟩ := member
    obtain ⟨fence, asks, same⟩ := mem_of_mapM resolved keys listed
    exact ⟨fence, keys, confined fence (asked asks), same, among⟩
  · intro root member
    obtain ⟨fence, states, resolved⟩ := mem_of_mapM delegated root member
    exact ⟨fence, confined fence (named states), resolved⟩

end Fences

section Checks

variable {view : FileView} {spec : JobSpec} {ancestor : PolicyAncestor} {done : Unit}
variable {subject : String} {allows : String → Except IoError Bool}

theorem checkImpacts_eq_ok (checked : checkImpacts subject impacts ancestor = .ok done) :
    ∀ impact ∈ impacts, impact ∈ ancestor.2.policy.allowedImpacts := by
  intro impact member
  have passed := of_forM checked impact member
  rw [require_eq_ok] at passed
  simpa using passed

theorem checkPaths_eq_ok (checked : checkPaths subject denied allows paths job = .ok done) :
    ∀ path ∈ paths, allows path = .ok true := by
  intro path member
  have passed := of_forM checked path member
  simp only [ok_iff, mapError_eq_ok] at passed
  obtain ⟨_, allowed, rfl⟩ := passed
  exact allowed

theorem checkUses_eq_ok (checked : checkUses view subject resources ancestor = .ok done) :
    (∀ impact ∈ resources.impacts, impact ∈ ancestor.2.policy.allowedImpacts) ∧
      FencesAllowed view resources.sharedFences resources.exclusiveFences ancestor.2 := by
  simp only [checkUses, checkFences, bind_eq_ok] at checked
  obtain ⟨_, impacts, _, shared, exclusive⟩ := checked
  exact ⟨checkImpacts_eq_ok impacts, checkPaths_eq_ok shared, checkPaths_eq_ok exclusive⟩

theorem checkAncestor_eq_ok (checked : checkAncestor view spec ancestor = .ok done) :
    RequestWithin spec ancestor.2.policy ∧
      FencesAllowed view (spec.claimed.flatMap ResourceClaims.sharedFences)
        (spec.claimed.flatMap ResourceClaims.exclusiveFences) ancestor.2 := by
  simp only [checkAncestor, ok_iff, Bool.and_eq_true, Bool.or_eq_true, Bool.not_eq_true',
    decide_eq_true_eq] at checked
  obtain ⟨_, ⟨minPriority, maxPriority⟩, _, claims, _, probes, _, uses, _, observed, quiet⟩ :=
    checked
  have claimed : ∀ resources ∈ spec.claimed,
      ClaimsWithin resources ancestor.2.policy.maxClaims ∧
      (∀ impact ∈ resources.impacts, impact ∈ ancestor.2.policy.allowedImpacts) ∧
      FencesAllowed view resources.sharedFences resources.exclusiveFences ancestor.2 := by
    intro resources member
    simp only [JobSpec.claimed, List.mem_cons, List.mem_map] at member
    obtain rfl | ⟨condition, listed, rfl⟩ := member
    · exact ⟨validateResourceClaimsAgainstLimit_eq_ok claims, checkUses_eq_ok uses⟩
    · have passed := of_forM probes condition listed
      simp only [checkProbe, bind_eq_ok] at passed
      obtain ⟨_, limited, used⟩ := passed
      exact ⟨validateResourceClaimsAgainstLimit_eq_ok limited, checkUses_eq_ok used⟩
  refine ⟨⟨minPriority, maxPriority, fun resources member => (claimed resources member).1,
    fun resources member => (claimed resources member).2.1, ?_, ?_⟩, ?_, ?_⟩
  · intro used
    simpa [used] using observed
  · intro used
    cases quiet with
    | inl absent =>
      rw [Option.isNone_iff_eq_none] at absent
      simp [absent] at used
    | inr allowed => exact allowed
  · intro fence member
    obtain ⟨resources, listed, asked⟩ := List.mem_flatMap.mp member
    exact (claimed resources listed).2.2.shared fence asked
  · intro fence member
    obtain ⟨resources, listed, asked⟩ := List.mem_flatMap.mp member
    exact (claimed resources listed).2.2.exclusive fence asked

end Checks

/-- Accumulators that have taken a policy into account. -/
structure EffectivePolicy.Within (effective : EffectivePolicy) (policy : ChildSubmissionPolicy) :
    Prop where
  minPriority : policy.minPriority ≤ effective.minPriority
  maxPriority : effective.maxPriority ≤ policy.maxPriority
  claims : LimitsWithin effective.claims policy.maxClaims
  impacts : ∀ impact ∈ effective.impacts, impact ∈ policy.allowedImpacts
  labels : ∀ label ∈ policy.requiredLabels,
    ∃ job, effective.required.get? label.key = some (label.value, job)
  observed : effective.allowObserved = true → policy.allowObserved = true
  quiet : effective.allowQuiet = true → policy.allowQuiet = true
  delegation : effective.allowDelegation = true → policy.allowDelegation = true

variable {labels : List Label}

section Intersection

variable {effective next : EffectivePolicy} {ancestor : PolicyAncestor}
  {required after : Table String (String × DurableId)} {job : DurableId}

theorem requireLabel_eq_ok (done : requireLabel job required label = .ok after) :
    (∃ asker, after.get? label.key = some (label.value, asker)) ∧
      ∀ key entry, required.get? key = some entry → after.get? key = some entry := by
  unfold requireLabel at done
  split at done
  next value asker found =>
    split at done
    next same =>
      cases done
      exact ⟨⟨asker, by rw [found, same]⟩, fun _ _ known => known⟩
    next => cases done
  next absent =>
    cases done
    constructor
    · exact ⟨job, by simp⟩
    · intro key entry known
      rw [Table.get?_set, if_neg]
      · exact known
      · rintro rfl
        simp [absent] at known

theorem requireLabels_eq_ok (done : labels.foldlM (requireLabel job) required = .ok after) :
    (∀ label ∈ labels, ∃ asker, after.get? label.key = some (label.value, asker)) ∧
      ∀ key entry, required.get? key = some entry → after.get? key = some entry := by
  constructor
  · apply foldlM_establishes
      (fun label state => ∃ asker, state.get? label.key = some (label.value, asker)) _ _ done
    · intro state label next required
      exact (requireLabel_eq_ok required).1
    · rintro state label next other ⟨asker, known⟩ required
      exact ⟨asker, (requireLabel_eq_ok required).2 _ _ known⟩
  · intro key entry
    apply foldlM_invariant
      (fun state => required.get? key = some entry → state.get? key = some entry) _ id done
    intro state label next _ held added known
    exact (requireLabel_eq_ok added).2 _ _ (held known)

theorem absorb_eq_ok (done : effective.absorb ancestor = .ok next) :
    next.Within ancestor.2.policy ∧ ∀ policy, effective.Within policy → next.Within policy := by
  simp only [EffectivePolicy.absorb, ok_iff] at done
  obtain ⟨required, labelled, rfl⟩ := done
  obtain ⟨added, kept⟩ := requireLabels_eq_ok labelled
  constructor
  · constructor
    · exact le_max_right _ _
    · exact min_le_right _ _
    · exact (intersectClaimLimits_within _ _).2
    · intro impact member
      simpa using (List.mem_filter.mp member).2
    · exact added
    · intro allowed
      exact (Bool.and_eq_true_iff.mp allowed).2
    · intro allowed
      exact (Bool.and_eq_true_iff.mp allowed).2
    · intro allowed
      exact (Bool.and_eq_true_iff.mp allowed).2
  · intro policy within
    constructor
    · exact within.minPriority.trans (le_max_left _ _)
    · exact (min_le_left _ _).trans within.maxPriority
    · exact (intersectClaimLimits_within _ _).1.trans within.claims
    · intro impact member
      exact within.impacts impact (List.mem_filter.mp member).1
    · intro label member
      obtain ⟨asker, known⟩ := within.labels label member
      exact ⟨asker, kept _ _ known⟩
    · intro allowed
      exact within.observed (Bool.and_eq_true_iff.mp allowed).1
    · intro allowed
      exact within.quiet (Bool.and_eq_true_iff.mp allowed).1
    · intro allowed
      exact within.delegation (Bool.and_eq_true_iff.mp allowed).1

/-- The loop checks the child against every ancestor and takes every policy into
account. -/
theorem rounds_eq_ok {ancestors : List PolicyAncestor}
    (done : ancestors.foldlM (EffectivePolicy.round view spec) effective = .ok next) :
    ∀ ancestor ∈ ancestors, (RequestWithin spec ancestor.2.policy ∧
      FencesAllowed view (spec.claimed.flatMap ResourceClaims.sharedFences)
        (spec.claimed.flatMap ResourceClaims.exclusiveFences) ancestor.2) ∧
      next.Within ancestor.2.policy := by
  apply foldlM_establishes
    (fun ancestor state => (RequestWithin spec ancestor.2.policy ∧
      FencesAllowed view (spec.claimed.flatMap ResourceClaims.sharedFences)
        (spec.claimed.flatMap ResourceClaims.exclusiveFences) ancestor.2) ∧
      EffectivePolicy.Within state ancestor.2.policy) _ _ done
  · intro state ancestor next round
    simp only [EffectivePolicy.round, bind_eq_ok] at round
    obtain ⟨_, checked, absorbed⟩ := round
    exact ⟨checkAncestor_eq_ok checked, (absorb_eq_ok absorbed).1⟩
  · rintro state ancestor next other ⟨passed, within⟩ round
    simp only [EffectivePolicy.round, bind_eq_ok] at round
    obtain ⟨_, _, absorbed⟩ := round
    exact ⟨passed, (absorb_eq_ok absorbed).2 _ within⟩

end Intersection

theorem labelsCover_iff :
    labelsCover labels required = true ↔
      ∀ key value job, required.get? key = some (value, job) →
        (labelTable labels).get? key = some value := by
  simp only [labelsCover, List.all_eq_true, decide_eq_true_eq]
  constructor
  · intro covered key value job known
    exact covered (key, value, job) (Table.mem_rows.mpr known)
  · intro covered entry member
    exact covered entry.1 entry.2.1 entry.2.2 (Table.mem_rows.mp member)

theorem checkRequiredLabels_eq_ok {required : Table String (String × DurableId)}
    (checked : required.rows.forM (checkRequiredLabel labels) = .ok done)
    (known : required.get? key = some (value, job)) :
    (labelTable labels).get? key = some value := by
  have passed := of_forM checked (key, value, job) (Table.mem_rows.mpr known)
  simp only [checkRequiredLabel, ok_iff, decide_eq_true_eq] at passed
  obtain ⟨_, found, rfl⟩ := passed
  exact found

/-- The limits of a resolved policy, under canonical names. -/
theorem limitsWithin_of_envelope {stated : ResourceClaimLimits}
    (within : ClaimsWithin stated.envelope limits)
    (canonical : canonicalCustom duplicate stated.custom = .ok custom) :
    LimitsWithin { stated with custom } limits where
  cpuUnits := within.cpuUnits
  ramMb := within.ramMb
  cargoSlots := within.cargoSlots
  gpuSlots := within.gpuSlots
  custom name := by
    intro amount found
    obtain ⟨written, member, named⟩ := (get?_canonicalCustom canonical).mp found
    obtain ⟨other, resolved, capped⟩ := within.custom _ member
    cases named.symm.trans resolved
    exact capped amount rfl

theorem resolve_eq_ok (done : ResolvedChildSubmissionPolicy.resolve view policy = .ok resolved) :
    policy.sharedRoots.mapM view.resolvePolicyFence = .ok resolved.sharedFences ∧
      policy.exclusiveRoots.mapM view.resolvePolicyFence = .ok resolved.exclusiveFences ∧
      ∃ custom, canonicalCustom "duplicate canonical child-policy custom resource"
        policy.maxClaims.custom = .ok custom ∧
      resolved.policy = { policy with maxClaims := { policy.maxClaims with custom } } := by
  simp only [ResolvedChildSubmissionPolicy.resolve, bind_eq_ok,
    ResolvedChildSubmissionPolicy.canonicalizeCustomClaims, map_eq_ok] at done
  obtain ⟨_, shared, _, exclusive, _, _, _, _, custom, canonical, rfl⟩ := done
  exact ⟨shared, exclusive, custom, canonical, rfl⟩

theorem resolvedClaims_eq_ok (done : ResolvedClaims.resolve view resources = .ok claims) :
    view.resolveFences resources.sharedFences = .ok claims.sharedFences ∧
      view.resolveFences resources.exclusiveFences = .ok claims.exclusiveFences := by
  simp only [ResolvedClaims.resolve, ok_iff] at done
  obtain ⟨_, _, _, shared, _, exclusive, _, _, rfl⟩ := done
  exact ⟨shared, exclusive⟩

theorem validateDelegatedPolicy_eq_ok
    (checked : validateDelegatedPolicy view delegated effective first rest = .ok done)
    (member : ancestor ∈ first :: rest) (within : effective.Within ancestor.2.policy) :
    FencesAllowed view delegated.sharedRoots delegated.exclusiveRoots ancestor.2 ∧
      ∀ resolving resolved,
        ResolvedChildSubmissionPolicy.resolve resolving delegated = .ok resolved →
        PolicyWithin resolved.policy ancestor.2.policy := by
  simp only [validateDelegatedPolicy, ok_iff, mapError_eq_ok, Bool.and_eq_true, Bool.or_eq_true,
    Bool.not_eq_true', decide_eq_true_eq, List.all_eq_true, List.contains_iff_mem] at checked
  obtain ⟨_, claims, _, ⟨minPriority, maxPriority⟩, _, ⟨⟨⟨impacts, observed⟩, quiet⟩, delegation⟩,
    _, labels, roots⟩ := checked
  have rooted := of_forM roots ancestor member
  simp only [checkDelegatedRoots, checkRoots, bind_eq_ok] at rooted
  obtain ⟨_, shared, exclusive⟩ := rooted
  refine ⟨⟨checkPaths_eq_ok shared, checkPaths_eq_ok exclusive⟩, ?_⟩
  intro resolving resolved stored
  obtain ⟨_, _, custom, canonical, same⟩ := resolve_eq_ok stored
  rw [same]
  constructor
  · exact within.minPriority.trans minPriority
  · exact maxPriority.trans within.maxPriority
  · exact (limitsWithin_of_envelope (validateResourceClaimsAgainstLimit_eq_ok claims)
      canonical).trans within.claims
  · exact fun impact listed => within.impacts impact (impacts impact listed)
  · intro label required
    obtain ⟨job, known⟩ := within.labels label required
    exact labelsCover_iff.mp labels _ _ _ known
  · intro allowed
    exact within.observed (observed.resolve_left (by simpa using allowed))
  · intro allowed
    exact within.quiet (quiet.resolve_left (by simpa using allowed))
  · intro allowed
    exact within.delegation (delegation.resolve_left (by simpa using allowed))

/-! ## The parent chain -/

/-- The Job in the parent column of a Job. -/
def ParentOf (origins : Table Uuid JobOrigin) (child parent : Uuid) : Prop :=
  ∃ origin, origins.get? child = some origin ∧ origin.parentJobId = some parent

/-- The policy of a stored Job, under canonical names. -/
def PolicyOf (origins : Table Uuid JobOrigin) (job : Uuid)
    (limit : ResolvedChildSubmissionPolicy) : Prop :=
  ∃ origin stored, origins.get? job = some origin ∧ origin.resolvedChildPolicy = some stored ∧
    stored.canonicalizeCustomClaims = .ok limit

section Chain

variable {storeUuid : Uuid} {origins : Table Uuid JobOrigin}

theorem parent_eq_ok {origin : JobOrigin} {parent : Option ManagedParent}
    (read : origin.parent storeUuid = .ok parent) :
    origin.parentJobId = parent.map fun parent => parent.jobId.entityUuid := by
  unfold JobOrigin.parent managedParentFromColumns at read
  split at read
  next absent _ _ =>
    cases read
    simpa using absent
  next job _ _ found _ _ =>
    cases read
    simpa using found
  next => cases read

theorem ancestorPolicy_eq_ok (done : ancestorPolicy job origin = .ok limit) :
    ∃ stored, origin.resolvedChildPolicy = some stored ∧
      stored.canonicalizeCustomClaims = .ok limit := by
  simpa only [ancestorPolicy, bind_eq_ok, orError_eq_ok,
    mapError_eq_ok] using done

/-- The walk visits every Job of the parent chain, with its policy. -/
theorem managedAncestors_eq_ok
    (walked : managedAncestors storeUuid origins budget visited job = .ok (first, rest))
    (above : Relation.ReflTransGen (ParentOf origins) job.entityUuid ancestor) :
    ∃ entry ∈ first :: rest, entry.1.entityUuid = ancestor ∧ PolicyOf origins ancestor entry.2 := by
  induction budget generalizing visited job first rest with
  | zero => cases walked
  | succ budget ih =>
    simp only [managedAncestors, ok_iff] at walked
    obtain ⟨_, _, origin, found, limit, policy, parent, read, continued⟩ := walked
    obtain ⟨stored, kept, canonical⟩ := ancestorPolicy_eq_ok policy
    have column := parent_eq_ok read
    have own : ∀ others, ∃ entry ∈ (job, limit) :: others, entry.1.entityUuid = job.entityUuid ∧
        PolicyOf origins job.entityUuid entry.2 :=
      fun _ => ⟨_, List.mem_cons_self, rfl, origin, stored, found, kept, canonical⟩
    cases parent with
    | none =>
      cases pure_eq_ok.mp continued
      cases above.cases_head with
      | inl same => exact same ▸ own []
      | inr higher =>
        obtain ⟨_, ⟨other, known, named⟩, _⟩ := higher
        cases found.symm.trans known
        simp [column] at named
    | some parent =>
      obtain ⟨⟨next, others⟩, walked, same⟩ := bind_eq_ok.mp continued
      cases pure_eq_ok.mp same
      cases above.cases_head with
      | inl same => exact same ▸ own _
      | inr higher =>
        obtain ⟨middle, ⟨other, known, named⟩, upward⟩ := higher
        cases found.symm.trans known
        simp only [column, Option.map_some, Option.some.injEq] at named
        subst named
        obtain ⟨entry, member, facts⟩ := ih walked upward
        exact ⟨entry, List.mem_cons_of_mem _ member, facts⟩

/-- A child that the evaluator accepts is within the policy of every Job on its
parent chain, and so is the policy that it delegates. -/
theorem evaluateManagedPolicy_eq_ok {parent : ManagedParent} {spec : JobSpec}
    (accepted : evaluateManagedPolicy storeUuid origins view (.managed parent) spec now =
      .ok admission)
    (above : Relation.ReflTransGen (ParentOf origins) parent.jobId.entityUuid ancestor) :
    ∃ limit, PolicyOf origins ancestor limit ∧ SpecWithin spec limit.policy ∧
      FencesAllowed view spec.sharedPaths spec.exclusivePaths limit ∧
      ∀ delegated resolving resolved, spec.childSubmissionPolicy = some delegated →
        ResolvedChildSubmissionPolicy.resolve resolving delegated = .ok resolved →
        PolicyWithin resolved.policy limit.policy := by
  simp only [evaluateManagedPolicy, evaluateAncestors, bind_eq_ok] at accepted
  obtain ⟨⟨first, rest⟩, walked, effective, ⟨_, rounds, _, labels, _, delegates, same⟩, _⟩ :=
    accepted
  cases pure_eq_ok.mp same
  obtain ⟨entry, member, _, policy⟩ := managedAncestors_eq_ok walked above
  obtain ⟨⟨passed, fenced⟩, within⟩ := rounds_eq_ok rounds entry member
  have roots : ∀ delegated, spec.childSubmissionPolicy = some delegated →
      FencesAllowed view delegated.sharedRoots delegated.exclusiveRoots entry.2 ∧
        ∀ resolving resolved,
          ResolvedChildSubmissionPolicy.resolve resolving delegated = .ok resolved →
          PolicyWithin resolved.policy entry.2.policy := by
    intro delegated stated
    simp only [checkDelegation, stated, ok_iff] at delegates
    obtain ⟨_, _, checked⟩ := delegates
    exact validateDelegatedPolicy_eq_ok checked member within
  refine ⟨entry.2, policy, ⟨passed, ?_, ?_⟩, ?_, ?_⟩
  · intro label required
    obtain ⟨job, known⟩ := within.labels label required
    exact checkRequiredLabels_eq_ok labels known
  · intro delegating
    obtain ⟨delegated, stated⟩ := Option.isSome_iff_exists.mp delegating
    simp only [checkDelegation, stated, ok_iff] at delegates
    obtain ⟨_, allowed, _⟩ := delegates
    exact within.delegation allowed
  · cases stated : spec.childSubmissionPolicy with
    | none => simpa [JobSpec.sharedPaths, JobSpec.exclusivePaths, stated] using fenced
    | some delegated =>
      simpa [JobSpec.sharedPaths, JobSpec.exclusivePaths, stated] using
        fenced.append (roots delegated stated).1
  · exact fun delegated resolving resolved stated => (roots delegated stated).2 resolving resolved

end Chain

end Stillyard
