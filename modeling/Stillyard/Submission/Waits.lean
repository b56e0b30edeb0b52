import Stillyard.Admission.Ancestors
import Stillyard.Lib.Worklist
import Stillyard.Submission.Lineage

/-!
# Managed waits

A managed process may wait for Jobs that descend from its own Job.  Its Attempt
and those of its ancestors keep their Leases meanwhile, so a Job that cannot be
admitted next to them would never finish.  `validate_managed_wait_targets` walks
from the targets over all unfinished predecessors, and tests every claim it meets
against the Leases of the lineage.

Of the Leases of an Attempt it reads one row only, although an Attempt has one row
for each of its probes and for each plan of its work.  An accepted wait is free
of conflicts with all Leases of the lineage if the row it reads is the only
granted one.
-/

namespace Stillyard

open Relational Fallible

/-- The Job and the Attempt by which a walk knows an ancestor. -/
def ManagedParent.pair (parent : ManagedParent) : Uuid × Uuid :=
  (parent.jobId.entityUuid, parent.attemptId.entityUuid)

namespace SubmissionStore

variable (store : SubmissionStore)

def requireCurrentParentPolicy (parent : ManagedParent) : StoreResult Unit :=
  require
    ((store.origins.get? parent.jobId.entityUuid).any fun origin =>
      origin.resolvedChildPolicy.isSome)
    (policyRejection "child_submission_disabled"
      (s!"parent {parent.jobId} has no child submission policy"))

/-- The Leases of an Attempt of the Job, in the order of their rows. -/
def attemptLeases (ancestor : ManagedParent) : List LeaseRow :=
  if (store.native.attempts.get? ancestor.attemptId.entityUuid).any
      (fun row => row.jobId = ancestor.jobId.entityUuid) then
    store.native.leases.values.filter fun row => row.attemptId = ancestor.attemptId.entityUuid
  else []

/-- The claims that `managed_ancestor_claims` takes from one ancestor.  Its query
has no order and may match several rows; `query_row` takes the first of a scan. -/
def ancestorClaim (ancestor : ManagedParent) : StoreResult (List ResolvedClaims) := do
  let lease ← orError (store.attemptLeases ancestor).head?
    (.invalidState (s!"managed ancestor {ancestor.jobId} has no Lease for " ++
      s!"Attempt {ancestor.attemptId}"))
  return if lease.state = .granted then [lease.claims] else []

/-- What one round of `managed_ancestor_claims` reads: the claims of the ancestor
and its parent. -/
def readAncestor (ancestor : ManagedParent) :
    StoreResult (List ResolvedClaims × Option ManagedParent) := do
  let own ← store.ancestorClaim ancestor
  let origin ← orError (store.origins.get? ancestor.jobId.entityUuid)
    (.sqlite "Query returned no rows")
  return (own, ← origin.parent store.storeUuid)

/-- `managed_ancestor_claims`, `none` when the rounds run out. -/
def managedAncestorClaims : (rounds : Nat) → (visited : List (Uuid × Uuid)) → ManagedParent →
    Option (StoreResult (List ResolvedClaims))
  | 0, _, _ => none
  | rounds + 1, visited, ancestor =>
    if ancestor.pair ∈ visited then
      some (.error (.invalidState "managed ancestor graph contains a cycle"))
    else match store.readAncestor ancestor with
      | .error reason => some (.error reason)
      | .ok (own, none) => some (.ok own)
      | .ok (own, some parent) =>
        (managedAncestorClaims rounds (ancestor.pair :: visited) parent).map fun rest =>
          rest.map (own ++ ·)

/-- `job_descends_from`: may `budget` more Jobs be visited? -/
def jobDescendsFrom (ancestor : DurableId) : (budget : Nat) → (visited : List Uuid) → DurableId →
    StoreResult Bool
  | 0, visited, current => do
      require (!visited.contains current.entityUuid)
        (.invalidState "managed parent graph contains a cycle")
      .error (.invalidState s!"managed parent graph exceeds {maxManagedPolicyDepth} Jobs")
  | budget + 1, visited, current => do
      require (!visited.contains current.entityUuid)
        (.invalidState "managed parent graph contains a cycle")
      let origin ← orError (store.origins.get? current.entityUuid)
        (.notFound (toString current))
      match ← origin.parent store.storeUuid with
      | none => return false
      | some parent =>
        if parent.jobId = ancestor then return true
        else jobDescendsFrom ancestor budget (current.entityUuid :: visited) parent.jobId

/-! ## The walk -/

/-- One entry of `waited_claims`. -/
structure WaitedClaims where
  jobId : DurableId
  displayName : String
  claims : ResolvedClaims

/-- The unfinished predecessors of a Job, in the order of their acceptance. -/
def unfinishedPredecessors (job : Uuid) : List DurableId :=
  ((store.native.jobs.rows.filter fun row => row.2.state ≠ .final &&
      store.native.dependencies.any fun dependency =>
        dependency.successorId = job && dependency.predecessorId = row.1).insertionSort
    fun left right => left.2.acceptedMs ≤ right.2.acceptedMs).map fun row =>
      ⟨store.storeUuid, row.1⟩

/-- One round of the walk: the claims of an unfinished Job and of its probes, and
its unfinished predecessors. -/
def visitTarget (daemon : DaemonConfig) (parent : ManagedParent) (job : DurableId) :
    StoreResult (List WaitedClaims × List DurableId) := do
  require (job.storeUuid = store.storeUuid)
    (.rejected s!"managed wait target {job} belongs to a foreign store")
  require (job ≠ parent.jobId)
    (.blockedByAncestor "the dependency closure reaches the waiting Job itself")
  let descends ← store.jobDescendsFrom parent.jobId maxManagedPolicyDepth [] job
  require descends (.rejected (s!"managed wait target {job} is not an authenticated " ++
    s!"descendant of {parent.jobId}"))
  let row ← orError (store.native.jobs.get? job.entityUuid) (.notFound (toString job))
  if row.state = .final then return ([], [])
  else
    let displayName := row.batchMember.getD (toString job.entityUuid)
    let probes ← row.spec.probes.mapM fun probe => do
      let claims ← daemon.resolve probe.resources
      return ⟨job, displayName ++ " probe", claims⟩
    return (⟨job, displayName, row.claims⟩ :: probes, store.unfinishedPredecessors job.entityUuid)

/-- Refuse a wait for claims that the lineage blocks. -/
def checkWaited (daemon : DaemonConfig) (ancestors : List ResolvedClaims) (waited : WaitedClaims) :
    StoreResult Unit :=
  let blockers := waited.claims.ancestorBlockers daemon.capacities ancestors
    daemon.impactIncompatibilities
  if blockers.isEmpty then .ok ()
  else
    let detail := s!"target {waited.displayName} ({waited.jobId}): " ++
      "; ".intercalate (blockers.map Blocker.detail)
    if blockers.any fun blocker => blocker.code = "resource_capacity" then
      .error (.managedWaitRejected "resource_capacity" detail)
    else .error (.blockedByAncestor detail)

/-- Every Job is visited once, and its visit queues its predecessors. -/
def waitFuel (targets : List DurableId) : Nat :=
  targets.length + (store.native.jobs.keys.map fun job =>
    (store.unfinishedPredecessors job).length).sum

def validateManagedWaitTargets (daemon : DaemonConfig) (scope : SubmissionScope)
    (targets : List DurableId) : StoreResult Unit :=
  match scope with
  | .unmanaged => .ok ()
  | .managed parent => do
      require (!targets.isEmpty) (.rejected "managed wait requires at least one target")
      store.validateCurrentParentIdentity daemon.daemonGeneration scope
      store.requireCurrentParentPolicy parent
      let ancestors ← (store.managedAncestorClaims (store.origins.rows.length + 2) [] parent).getD
        (.error (.invalidState "the walk over the ancestors did not end"))
      match Worklist.run (store.visitTarget daemon parent) (store.waitFuel targets) [] targets with
      | none => .error (.invalidState "the walk over the predecessors did not end")
      | some walked => do
          let waited ← walked
          waited.forM (checkWaited daemon ancestors)

end SubmissionStore

/-- The call with `validate_managed_wait_targets` for the waits. -/
def SubmissionCall.withWaitCheck (call : SubmissionCall) : SubmissionCall :=
  { call with
    waitTargets := fun store parent jobs =>
      let targets := jobs.map (DurableId.mk store.storeUuid)
      store.validateManagedWaitTargets call.daemon (.managed parent) targets }

namespace SubmissionStore

variable (store : SubmissionStore)

/-! ## What the check is for -/

/-- The Attempts that keep their Leases during a wait: that of the waiting
process, and those on its parent chain. -/
inductive Lineage : ManagedParent → List ManagedParent → Prop where
  | root {origin : JobOrigin} (stored : store.origins.get? ancestor.jobId.entityUuid = some origin)
      (top : origin.parent store.storeUuid = .ok none) : Lineage ancestor [ancestor]
  | step {rest : List ManagedParent}
      (stored : store.origins.get? ancestor.jobId.entityUuid = some origin)
      (up : origin.parent store.storeUuid = .ok (some parent)) (above : Lineage parent rest) :
      Lineage ancestor (ancestor :: rest)

/-- The parent columns lead from a Job to a root, over the Jobs of a chain. -/
inductive Rooted (origins : Table Uuid JobOrigin) : Uuid → List Uuid → Prop where
  | root {origin : JobOrigin} (stored : origins.get? job = some origin)
      (top : ∀ storeUuid, origin.parent storeUuid = .ok none) : Rooted origins job [job]
  | child {origin : JobOrigin} (stored : origins.get? job = some origin)
      (up : ∀ storeUuid, ∃ parent, origin.parent storeUuid = .ok (some parent) ∧
        parent.jobId = ⟨storeUuid, above⟩)
      (higher : Rooted origins above rest) (new : job ∉ rest) : Rooted origins job (job :: rest)

/-- The claims of all granted Leases of an Attempt. -/
def grantedClaims (ancestor : ManagedParent) : List ResolvedClaims :=
  (store.attemptLeases ancestor).filterMap fun row =>
    if row.state = .granted then some row.claims else none

/-- No Lease of the Attempt but the first is granted. -/
def FirstLeaseOnly (ancestor : ManagedParent) : Prop :=
  ∀ row ∈ (store.attemptLeases ancestor).tail, row.state ≠ .granted

/-- A Job that is not final. -/
def Unfinished (job : Uuid) : Prop :=
  ∃ row, store.native.jobs.get? job = some row ∧ row.state ≠ .final

/-- The first Job waits for the second. -/
def DependsOn (job other : Uuid) : Prop :=
  ∃ dependency ∈ store.native.dependencies,
    dependency.successorId = job ∧ dependency.predecessorId = other

/-- No finished Job among the dependencies of the targets depends on an
unfinished one. -/
def FinishedClosed (targets : List DurableId) : Prop :=
  ∀ target ∈ targets, ∀ job other,
    Relation.ReflTransGen store.DependsOn target.entityUuid job → store.DependsOn job other →
    ¬store.Unfinished job → ¬store.Unfinished other

/-- Stored and resolved claims are vectors of `u64`. -/
structure WordClaims (daemon : DaemonConfig) : Prop where
  jobs : ∀ job row, store.native.jobs.get? job = some row → row.claims.Words
  probes : ∀ job row, store.native.jobs.get? job = some row → ∀ probe ∈ row.spec.probes,
    ∀ claims, daemon.resolve probe.resources = .ok claims → claims.Words
  leases : ∀ id row, store.native.leases.get? id = some row → row.claims.Words

/-- No claim of an unfinished Job, or of one of its probes, has a full-vector
blocker against the Leases. -/
def ClearOf (daemon : DaemonConfig) (leases : List ResolvedClaims) (row : JobRow) : Prop :=
  legacyFullVectorBlockers row.claims daemon.capacities leases daemon.impactIncompatibilities =
      .ok [] ∧
    ∀ probe ∈ row.spec.probes, ∃ claims, daemon.resolve probe.resources = .ok claims ∧
      legacyFullVectorBlockers claims daemon.capacities leases daemon.impactIncompatibilities =
        .ok []

section

variable {store}
variable {ancestor : ManagedParent} {claims : List ResolvedClaims} {budget : Nat} {α β : Type}
variable {origin : JobOrigin} {job : Uuid} {chain : List ManagedParent} {targets : List DurableId}

/-- The claims that are read from one ancestor. -/
def firstGranted (store : SubmissionStore) (ancestor : ManagedParent) : List ResolvedClaims :=
  (store.attemptLeases ancestor).head?.toList.filterMap fun row =>
    if row.state = .granted then some row.claims else none

private theorem ancestorClaim_eq_ok (read : store.ancestorClaim ancestor = .ok claims) :
    claims = firstGranted store ancestor := by
  simp only [ancestorClaim, ok_iff] at read
  obtain ⟨lease, first, rfl⟩ := read
  rw [firstGranted, first]
  by_cases granted : lease.state = .granted <;> simp [granted]

/-- What a successful round read. -/
private theorem readAncestor_eq_ok (read : store.readAncestor ancestor = .ok (claims, parent)) :
    claims = firstGranted store ancestor ∧
      ∃ origin, store.origins.get? ancestor.jobId.entityUuid = some origin ∧
        origin.parent store.storeUuid = .ok parent := by
  simp only [readAncestor, ok_iff, Prod.mk.injEq] at read
  obtain ⟨own, ownRead, origin, stored, other, up, rfl, rfl⟩ := read
  exact ⟨ancestorClaim_eq_ok ownRead, origin, stored, up⟩

/-- The claims that a walk returns are read along the whole lineage, and no Attempt
of it is met twice. -/
theorem lineage_of_managedAncestorClaims
    (read : store.managedAncestorClaims rounds visited ancestor = some (.ok claims)) :
    ∃ chain, store.Lineage ancestor chain ∧ claims = chain.flatMap (firstGranted store) ∧
      (chain.map ManagedParent.pair).Nodup ∧ ∀ met ∈ chain, met.pair ∉ visited := by
  induction rounds generalizing visited ancestor claims with
  | zero => cases read
  | succ rounds ih =>
    rw [managedAncestorClaims] at read
    split at read
    · cases read
    · next fresh =>
      split at read
      · cases read
      · next own round =>
        cases read
        obtain ⟨rfl, origin, stored, top⟩ := readAncestor_eq_ok round
        exact ⟨[ancestor], .root stored top, by simp, by simp, by simpa using fresh⟩
      · next own parent round =>
        obtain ⟨rfl, origin, stored, up⟩ := readAncestor_eq_ok round
        obtain ⟨rest, above, same⟩ := Option.map_eq_some_iff.mp read
        obtain ⟨others, rfl, rfl⟩ := map_eq_ok.mp same
        obtain ⟨chain, lineage, rfl, distinct, apart⟩ := ih above
        refine ⟨ancestor :: chain, .step stored up lineage, by rw [List.flatMap_cons], ?_, ?_⟩
        · rw [List.map_cons, List.nodup_cons]
          refine ⟨?_, distinct⟩
          intro again
          obtain ⟨met, member, same⟩ := List.mem_map.mp again
          exact apart met member (same ▸ List.mem_cons_self)
        · intro met member
          cases List.mem_cons.mp member with
          | inl same => exact same ▸ fresh
          | inr later => exact fun seen => apart met later (List.mem_cons_of_mem _ seen)

private theorem flatMap_append_eq_iff {first other : α → List β} (items : List α) :
    items.flatMap first = items.flatMap (fun item => first item ++ other item) ↔
      ∀ item ∈ items, other item = [] := by
  have shorter : ∀ rest : List α, (rest.flatMap first).length ≤
      (rest.flatMap fun item => first item ++ other item).length := by
    intro rest
    simp only [List.length_flatMap, List.length_append]
    exact List.sum_le_sum fun item _ => Nat.le_add_right _ _
  induction items with
  | nil => simp
  | cons item rest ih =>
    rw [List.flatMap_cons, List.flatMap_cons, List.append_assoc, List.append_cancel_left_eq,
      List.forall_mem_cons]
    constructor
    · intro same
      have lengths := congrArg List.length same
      have bound := shorter rest
      rw [List.length_append] at lengths
      have none_ : other item = [] := List.eq_nil_of_length_eq_zero (by omega)
      rw [none_, List.nil_append] at same
      exact ⟨none_, ih.mp same⟩
    · rintro ⟨none_, others⟩
      rw [none_, List.nil_append]
      exact ih.mpr others

private theorem grantedClaims_eq (ancestor : ManagedParent) :
    store.grantedClaims ancestor = firstGranted store ancestor ++
      (store.attemptLeases ancestor).tail.filterMap fun row =>
        if row.state = .granted then some row.claims else none := by
  rw [grantedClaims, firstGranted]
  cases store.attemptLeases ancestor with
  | nil => rfl
  | cons lease rest =>
    rw [List.head?_cons, List.tail_cons, Option.toList_some, ← List.filterMap_append]
    rfl

/-- All granted Leases of the lineage are read exactly if every Attempt has its
granted Lease in its first row. -/
theorem readsAll_iff (chain : List ManagedParent) :
    chain.flatMap (firstGranted store) = chain.flatMap store.grantedClaims ↔
      ∀ ancestor ∈ chain, store.FirstLeaseOnly ancestor := by
  have same : store.grantedClaims = fun ancestor => firstGranted store ancestor ++
      (store.attemptLeases ancestor).tail.filterMap fun row =>
        if row.state = .granted then some row.claims else none := funext grantedClaims_eq
  rw [same, flatMap_append_eq_iff]
  simp [FirstLeaseOnly, List.filterMap_eq_nil_iff]

/-- The walk goes on from the first ancestor to the second. -/
def Ascends (store : SubmissionStore) (ancestor above : ManagedParent) : Prop :=
  ∃ claims, store.readAncestor ancestor = .ok (claims, some above)

/-- The pairs that a walk can meet: its start and those in the parent columns. -/
def ancestorPairs (store : SubmissionStore) (start : ManagedParent) : List (Uuid × Uuid) :=
  start.pair :: store.origins.values.filterMap fun origin =>
    (origin.parent store.storeUuid).toOption.join.map ManagedParent.pair

theorem Ascends.mem_ancestorPairs (ascends : store.Ascends ancestor above) (start : ManagedParent) :
    above.pair ∈ store.ancestorPairs start := by
  obtain ⟨claims, round⟩ := ascends
  obtain ⟨_, origin, stored, up⟩ := readAncestor_eq_ok round
  apply List.mem_cons_of_mem
  apply List.mem_filterMap.mpr
  exact ⟨origin, Table.mem_values.mpr ⟨_, stored⟩, by rw [up]; rfl⟩

/-- More rounds than there are pairs left are not used up. -/
theorem managedAncestorClaims_of_few (start : ManagedParent) (extra : Nat)
    (known : ancestor.pair ∈ store.ancestorPairs start)
    (few : ((store.ancestorPairs start).toFinset \ visited.toFinset).card < rounds) :
    ∃ result, store.managedAncestorClaims rounds visited ancestor = some result ∧
      store.managedAncestorClaims (rounds + extra) visited ancestor = some result := by
  induction rounds generalizing visited ancestor with
  | zero => exact absurd few (Nat.not_lt_zero _)
  | succ rounds ih =>
    rw [Nat.add_right_comm]
    simp only [managedAncestorClaims]
    split
    · exact ⟨_, rfl, rfl⟩
    · next fresh =>
      split
      · exact ⟨_, rfl, rfl⟩
      · exact ⟨_, rfl, rfl⟩
      · next own parent round =>
        have left : ancestor.pair ∈ (store.ancestorPairs start).toFinset \ visited.toFinset := by
          simpa [known] using fresh
        have fewer := Finset.card_erase_lt_of_mem left
        obtain ⟨result, ended, same⟩ := @ih parent (ancestor.pair :: visited)
          (Ascends.mem_ancestorPairs ⟨own, round⟩ start) (by
            rw [List.toFinset_cons, Finset.sdiff_insert]
            exact fewer.trans_le (Nat.le_of_lt_succ few))
        rw [ended, same]
        exact ⟨_, rfl, rfl⟩

/-- Where every ancestor has a parent the walk can only end at a pair it met. -/
theorem managedAncestorClaims_of_endless
    (endless : ∀ met, Relation.ReflTransGen store.Ascends ancestor met →
      ∃ above, store.Ascends met above)
    (ended : store.managedAncestorClaims rounds visited ancestor = some result) :
    result = .error (.invalidState "managed ancestor graph contains a cycle") := by
  induction rounds generalizing visited ancestor result with
  | zero => cases ended
  | succ rounds ih =>
    obtain ⟨above, claims, round⟩ := endless ancestor .refl
    rw [managedAncestorClaims, round] at ended
    split at ended
    · exact (Option.some.inj ended).symm
    · obtain ⟨rest, walked, rfl⟩ := Option.map_eq_some_iff.mp ended
      rw [ih (fun met path => endless met (.head ⟨claims, round⟩ path)) walked]
      rfl

/-- The walk over the lineage ends in every store, with a result that does not depend
on the number of rounds.  Claims are those of a lineage in which nothing is met
twice, and where the parents never end the result is the error for a cycle. -/
theorem managedAncestorClaims_ends (start : ManagedParent) :
    ∃ result, (∀ extra, store.managedAncestorClaims (store.origins.rows.length + 2 + extra) []
        start = some result) ∧
      (∀ claims, result = .ok claims → ∃ chain, store.Lineage start chain ∧
        (chain.map ManagedParent.pair).Nodup ∧ claims = chain.flatMap (firstGranted store)) ∧
      ((∀ met, Relation.ReflTransGen store.Ascends start met → ∃ above, store.Ascends met above) →
        result = .error (.invalidState "managed ancestor graph contains a cycle")) := by
  have few : ((store.ancestorPairs start).toFinset \ ([] : List (Uuid × Uuid)).toFinset).card <
      store.origins.rows.length + 2 := by
    have listed : (store.ancestorPairs start).length ≤ store.origins.rows.length + 1 :=
      Nat.succ_le_succ ((List.length_filterMap_le _ _).trans_eq (List.length_map _))
    rw [List.toFinset_nil, Finset.sdiff_empty]
    exact (List.toFinset_card_le _).trans_lt (Nat.lt_succ_of_le listed)
  obtain ⟨result, ended, _⟩ := managedAncestorClaims_of_few start 0 List.mem_cons_self few
  refine ⟨result, ?_, ?_, fun endless => managedAncestorClaims_of_endless endless ended⟩
  · intro extra
    obtain ⟨other, same, longer⟩ := managedAncestorClaims_of_few start extra List.mem_cons_self few
    rw [longer, ← same, ended]
  · rintro claims rfl
    obtain ⟨chain, lineage, read, distinct, _⟩ := lineage_of_managedAncestorClaims ended
    exact ⟨chain, lineage, distinct, read⟩

private theorem parentOf_of_parent (stored : store.origins.get? job = some origin)
    (up : origin.parent store.storeUuid = .ok (some parent)) :
    ParentOf store.origins job parent.jobId.entityUuid ∧
      ∀ other, ParentOf store.origins job other → other = parent.jobId.entityUuid := by
  unfold JobOrigin.parent managedParentFromColumns at up
  split at up
  · cases up
  · next parentJob _ _ column _ _ =>
    cases up
    refine ⟨⟨origin, stored, column⟩, ?_⟩
    rintro other ⟨_, found, named⟩
    cases stored.symm.trans found
    exact Option.some.inj (named.symm.trans column)
  · cases up

private theorem no_parentOf (stored : store.origins.get? job = some origin)
    (top : origin.parent store.storeUuid = .ok none) (other : Uuid) :
    ¬ParentOf store.origins job other := by
  unfold JobOrigin.parent managedParentFromColumns at top
  split at top
  · next column _ _ =>
    rintro ⟨_, found, named⟩
    cases stored.symm.trans found
    rw [column] at named
    cases named
  · cases top
  · cases top

/-- A finite lineage has no cycle. -/
private theorem Lineage.acc (lineage : store.Lineage ancestor chain) :
    Acc (fun parent child => ParentOf store.origins child parent) ancestor.jobId.entityUuid := by
  induction lineage with
  | root stored top => exact ⟨_, fun other up => absurd up (no_parentOf stored top other)⟩
  | step stored up _ ih =>
    refine ⟨_, fun other above => ?_⟩
    rw [(parentOf_of_parent stored up).2 other above]
    exact ih

private theorem Lineage.reaches (lineage : store.Lineage ancestor chain) (listed : member ∈ chain) :
    Relation.ReflTransGen (ParentOf store.origins) ancestor.jobId.entityUuid
      member.jobId.entityUuid := by
  induction lineage with
  | root =>
    rw [List.mem_singleton.mp listed]
  | step stored up _ ih =>
    cases List.mem_cons.mp listed with
    | inl same => rw [same]
    | inr above => exact .head (parentOf_of_parent stored up).1 (ih above)

private theorem transGen_of_jobDescendsFrom {ancestor job : DurableId} {visited : List Uuid}
    (descends : store.jobDescendsFrom ancestor budget visited job = .ok true) :
    Relation.TransGen (ParentOf store.origins) job.entityUuid ancestor.entityUuid := by
  induction budget generalizing visited job with
  | zero =>
    simp only [jobDescendsFrom, bind_eq_ok] at descends
    obtain ⟨_, _, impossible⟩ := descends
    cases impossible
  | succ budget ih =>
    simp only [jobDescendsFrom, ok_iff] at descends
    obtain ⟨_, _, origin, stored, parent, up, descends⟩ := descends
    cases parent with
    | none => cases descends
    | some parent =>
      have above := (parentOf_of_parent stored up).1
      dsimp only at descends
      split at descends
      · next same =>
        rw [← same]
        exact .single above
      · exact .head above (ih descends)

private theorem not_transGen_self {relation : α → α → Prop} {start : α}
    (accessible : Acc (fun parent child => relation child parent) start) :
    ¬Relation.TransGen relation start start := by
  induction accessible with
  | intro item _ ih =>
    intro cycle
    obtain ⟨next, first, rest⟩ := Relation.TransGen.head'_iff.mp cycle
    exact ih next first (.tail' rest first)

variable {daemon : DaemonConfig} {parent : ManagedParent}

/-- What a round of the walk reports about an unfinished Job. -/
private structure Reports (store : SubmissionStore) (daemon : DaemonConfig) (job : Uuid)
    (row : JobRow) (findings : List WaitedClaims) (next : List DurableId) : Prop where
  next_eq : next = store.unfinishedPredecessors job
  claims : ∃ entry ∈ findings, entry.claims = row.claims
  probes : ∀ probe ∈ row.spec.probes, ∃ entry ∈ findings,
    daemon.resolve probe.resources = .ok entry.claims

private theorem visitTarget_eq_ok {job : DurableId} {findings : List WaitedClaims}
    {next : List DurableId} (visited : store.visitTarget daemon parent job = .ok (findings, next)) :
    job.storeUuid = store.storeUuid ∧
      store.jobDescendsFrom parent.jobId maxManagedPolicyDepth [] job = .ok true ∧
      ∃ row, store.native.jobs.get? job.entityUuid = some row ∧
        (row.state = .final ∧ next = [] ∨
          row.state ≠ .final ∧ Reports store daemon job.entityUuid row findings next) := by
  simp only [visitTarget, ok_iff, decide_eq_true_eq] at visited
  obtain ⟨_, own, _, _, descends, computed, _, rfl, row, stored, visited⟩ := visited
  refine ⟨own, computed, row, stored, ?_⟩
  split at visited
  · next final =>
    rw [pure_eq_ok] at visited
    cases visited
    exact .inl ⟨final, rfl⟩
  · next unfinished =>
    simp only [ok_iff] at visited
    obtain ⟨probes, resolved, same⟩ := visited
    cases same
    refine .inr ⟨unfinished, rfl, ⟨_, List.mem_cons_self, rfl⟩, ?_⟩
    intro probe member
    obtain ⟨entry, listed, computed⟩ := result_of_mapM resolved probe member
    simp only [ok_iff] at computed
    obtain ⟨claims, succeeded, rfl⟩ := computed
    exact ⟨_, List.mem_cons_of_mem _ listed, succeeded⟩

private theorem mem_unfinishedPredecessors :
    other ∈ store.unfinishedPredecessors job ↔
      other.storeUuid = store.storeUuid ∧ store.Unfinished other.entityUuid ∧
        store.DependsOn job other.entityUuid := by
  simp only [unfinishedPredecessors, List.mem_map, List.mem_insertionSort, List.mem_filter,
    test_iff, List.any_eq_true]
  constructor
  · rintro ⟨row, ⟨listed, unfinished, dependency, member, successor, predecessor⟩, rfl⟩
    exact ⟨rfl, ⟨row.2, Table.mem_rows.mp listed, unfinished⟩, dependency, member, successor,
      predecessor⟩
  · rintro ⟨own, ⟨row, stored, unfinished⟩, dependency, member, successor, predecessor⟩
    refine ⟨(other.entityUuid, row), ⟨Table.mem_rows.mpr stored, unfinished, dependency, member,
      successor, predecessor⟩, ?_⟩
    rw [← own]

/-- The walk over the predecessors ends. -/
theorem waitWalk_ends (targets : List DurableId) :
    (Worklist.run (store.visitTarget daemon parent)
      (store.waitFuel targets) [] targets).isSome := by
  have known : ∀ (job : DurableId) findings next,
      store.visitTarget daemon parent job = .ok (findings, next) →
      job ∈ (store.native.jobs.keys.map (DurableId.mk store.storeUuid)).toFinset ∧
        next.length ≤ (store.unfinishedPredecessors job.entityUuid).length := by
    intro job findings next visited
    obtain ⟨own, _, row, stored, effect⟩ := visitTarget_eq_ok visited
    constructor
    · rw [List.mem_toFinset, ← own]
      apply List.mem_map_of_mem
      rw [← Table.get?_isSome, stored]
      rfl
    · obtain ⟨_, rfl⟩ | ⟨_, reports⟩ := effect
      · exact Nat.zero_le _
      · rw [reports.next_eq]
  apply Worklist.run_isSome known
  rw [waitFuel, List.toFinset_nil, Finset.sdiff_empty, List.sum_toFinset, List.map_map]
  · rfl
  · exact store.native.jobs.nodup.map fun _ _ same => congrArg DurableId.entityUuid same

/-- Every unfinished Job that a target depends on is met, and its claims pass the
check. -/
private theorem walk_meets {waited : List WaitedClaims} {fuel : Nat}
    (walked : Worklist.run (store.visitTarget daemon parent) fuel [] targets = some (.ok waited))
    (closed : store.FinishedClosed targets) {target : DurableId} (listed : target ∈ targets)
    (depends : Relation.ReflTransGen store.DependsOn target.entityUuid job)
    (unfinished : store.Unfinished job) :
    Relation.ReflTransGen (Worklist.Queues (store.visitTarget daemon parent)) target
      ⟨store.storeUuid, job⟩ := by
  induction depends with
  | refl =>
    obtain ⟨_, _, visited, _⟩ := Worklist.run_reaches walked listed .refl
    have own := (visitTarget_eq_ok visited).1
    rw [← own]
  | @tail middle last before depends ih =>
    have open_ : store.Unfinished middle := by
      by_contra finished
      exact closed target listed middle last before depends finished unfinished
    have reached := ih open_
    obtain ⟨findings, next, visited, _⟩ := Worklist.run_reaches walked listed reached
    obtain ⟨_, _, row, stored, effect⟩ := visitTarget_eq_ok visited
    obtain ⟨present, found, running⟩ := open_
    cases stored.symm.trans found
    obtain ⟨final, _⟩ | ⟨_, reports⟩ := effect
    · exact absurd final running
    · refine reached.tail ⟨findings, next, visited, ?_⟩
      rw [reports.next_eq]
      exact mem_unfinishedPredecessors.mpr ⟨rfl, unfinished, depends⟩

/-! ## Accepted waits -/

private theorem validateManagedWaitTargets_eq_ok
    (accepted : store.validateManagedWaitTargets daemon (.managed parent) targets = .ok ()) :
    ∃ read waited,
      store.managedAncestorClaims (store.origins.rows.length + 2) [] parent = some (.ok read) ∧
      Worklist.run (store.visitTarget daemon parent) (store.waitFuel targets) [] targets =
        some (.ok waited) ∧
      ∀ entry ∈ waited, entry.claims.ancestorBlockers daemon.capacities read
        daemon.impactIncompatibilities = [] := by
  simp only [validateManagedWaitTargets, bind_eq_ok] at accepted
  obtain ⟨_, _, _, _, _, _, read, ancestors, accepted⟩ := accepted
  have claims : store.managedAncestorClaims (store.origins.rows.length + 2) [] parent =
      some (.ok read) := by
    cases ended : store.managedAncestorClaims (store.origins.rows.length + 2) [] parent with
    | none =>
      rw [ended] at ancestors
      cases ancestors
    | some result =>
      rw [ended] at ancestors
      exact congrArg some ancestors
  split at accepted
  · cases accepted
  · next walked ran =>
    obtain ⟨waited, same, checked⟩ := bind_eq_ok.mp accepted
    refine ⟨read, waited, claims, same ▸ ran, ?_⟩
    intro entry member
    have passed := of_forM checked entry member
    simp only [checkWaited] at passed
    split at passed
    · next empty => exact List.isEmpty_iff.mp empty
    · split at passed <;> cases passed

private theorem words_granted (words : store.WordClaims daemon) :
    ∀ held ∈ chain.flatMap store.grantedClaims, held.Words := by
  intro held member
  obtain ⟨ancestor, _, listed⟩ := List.mem_flatMap.mp member
  obtain ⟨row, leased, picked⟩ := List.mem_filterMap.mp listed
  split at picked
  · cases picked
    unfold attemptLeases at leased
    split at leased
    · obtain ⟨id, stored⟩ := Table.mem_values.mp (List.mem_filter.mp leased).1
      exact words.leases id row stored
    · cases leased
  · cases picked

/-- An accepted wait is not for a Job of the lineage.  All granted Leases of the
lineage are read exactly if each is in the first row of its Attempt; then no
unfinished Job that a target depends on is blocked by them, provided no finished
Job stands in between. -/
theorem accepted_wait_clear {targets : List DurableId} (words : store.WordClaims daemon)
    (accepted : store.validateManagedWaitTargets daemon (.managed parent) targets = .ok ()) :
    ∃ chain, store.Lineage parent chain ∧
      (∀ target ∈ targets, target ∉ chain.map ManagedParent.jobId) ∧
      (store.managedAncestorClaims (store.origins.rows.length + 2) [] parent =
          some (.ok (chain.flatMap store.grantedClaims)) ↔
        ∀ ancestor ∈ chain, store.FirstLeaseOnly ancestor) ∧
      ((∀ ancestor ∈ chain, store.FirstLeaseOnly ancestor) → store.FinishedClosed targets →
        ∀ target ∈ targets, ∀ job row,
          Relation.ReflTransGen store.DependsOn target.entityUuid job →
          store.native.jobs.get? job = some row → row.state ≠ .final →
          ClearOf daemon (chain.flatMap store.grantedClaims) row) := by
  obtain ⟨read, waited, claims, walked, clear⟩ := validateManagedWaitTargets_eq_ok accepted
  obtain ⟨chain, lineage, rfl, _⟩ := lineage_of_managedAncestorClaims claims
  refine ⟨chain, lineage, ?_, ?_, ?_⟩
  · intro target listed onLineage
    obtain ⟨_, _, visited, _⟩ := Worklist.run_reaches walked listed .refl
    have down := transGen_of_jobDescendsFrom (visitTarget_eq_ok visited).2.1
    obtain ⟨member, inChain, rfl⟩ := List.mem_map.mp onLineage
    exact not_transGen_self lineage.acc (.trans_right (lineage.reaches inChain) down)
  · rw [claims, Option.some.injEq, Except.ok.injEq]
    exact readsAll_iff chain
  · intro single closed target listed job row depends stored unfinished
    have reached := walk_meets walked closed listed depends ⟨row, stored, unfinished⟩
    obtain ⟨findings, next, visited, reported⟩ := Worklist.run_reaches walked listed reached
    obtain ⟨_, _, found, same, effect⟩ := visitTarget_eq_ok visited
    cases stored.symm.trans same
    rw [(readsAll_iff chain).mpr single] at clear
    obtain ⟨final, _⟩ | ⟨_, reports⟩ := effect
    · exact absurd final unfinished
    · constructor
      · obtain ⟨entry, member, own⟩ := reports.claims
        have quiet := clear entry (reported member)
        rw [own] at quiet
        exact legacyFullVectorBlockers_of_ancestorBlockers (words.jobs job row stored)
          (words_granted words) quiet
      · intro probe member
        obtain ⟨entry, inFindings, resolved⟩ := reports.probes probe member
        exact ⟨entry.claims, resolved, legacyFullVectorBlockers_of_ancestorBlockers
          (words.probes job row stored probe member _ resolved) (words_granted words)
            (clear entry (reported inFindings))⟩

section

variable {before after origins : Table Uuid JobOrigin} {path : List Uuid}

theorem Rooted.extend (rooted : Rooted before job path) (extended : before.Extends after) :
    Rooted after job path := by
  induction rooted with
  | root stored top => exact .root (extended.lookup stored) top
  | child stored up _ new ih => exact .child (extended.lookup stored) up ih new

theorem Rooted.stored (rooted : Rooted origins job path) (listed : other ∈ path) :
    origins.get? other ≠ none := by
  induction rooted with
  | root stored => simp [List.mem_singleton.mp listed, stored]
  | child stored _ _ _ ih =>
    cases List.mem_cons.mp listed with
    | inl same => simp [same, stored]
    | inr above => exact ih above

/-- The evaluator accepts a child only below a chain of its length. -/
theorem Rooted.length_le {storeUuid : Uuid} {visited : List Uuid} {current : DurableId}
    (rooted : Rooted origins current.entityUuid path)
    (walked : managedAncestors storeUuid origins budget visited current = .ok met) :
    path.length ≤ budget := by
  induction budget generalizing visited current met path with
  | zero => cases walked
  | succ budget ih =>
    simp only [managedAncestors, ok_iff] at walked
    obtain ⟨_, _, origin, found, _, _, parent, read, walked⟩ := walked
    cases rooted with
    | root => exact Nat.succ_le_succ (Nat.zero_le _)
    | child stored up higher =>
      cases stored.symm.trans found
      obtain ⟨parent, named, same⟩ := up storeUuid
      cases named.symm.trans read
      obtain ⟨_, walked, _⟩ := bind_eq_ok.mp walked
      rw [same] at walked
      exact Nat.succ_le_succ (ih higher walked)

end

theorem Reached.rooted (reached : store.Reached) :
    ∀ job origin, store.origins.get? job = some origin →
      ∃ path, Rooted store.origins job path ∧ path.length ≤ maxManagedPolicyDepth := by
  apply Reached.invariant _ _ reached
  · intro _ _ _ stored
    cases stored
  · intro before after _ held move job origin stored
    have extended := move.descends.origins
    cases old : before.origins.get? job with
    | some known =>
      obtain ⟨path, rooted, bounded⟩ := held job known old
      exact ⟨path, rooted.extend extended, bounded⟩
    | none =>
      cases move with
      | receive _ received =>
        obtain ⟨_, _, rfl⟩ := receive_eq_ok received
        cases old.symm.trans stored
      | noteWait | reject | work => cases old.symm.trans stored
      | @accept _ _ _ _ scope _ _ _ _ creates =>
        have listed := Table.mem_rows.mpr stored
        rw [creates.origins, List.mem_append] at listed
        obtain ⟨entry, member, written⟩ := List.mem_map.mp
          (listed.resolve_left fun known => by cases old.symm.trans (Table.mem_rows.mp known))
        have admitted := creates.admitted entry member
        cases written
        cases scope with
        | unmanaged => exact ⟨_, .root stored fun _ => rfl, Nat.succ_pos 63⟩
        | managed parent =>
          simp only [evaluateManagedPolicy, bind_eq_ok] at admitted
          obtain ⟨_, walked, _⟩ := admitted
          -- The parent is stored, and the new Job is not on its path.
          obtain ⟨_, _, _, known, _, found, _⟩ := managedAncestors_eq_ok walked .refl
          obtain ⟨path, rooted, _⟩ := held _ known found
          refine ⟨_, .child stored (fun _ => ⟨_, rfl, rfl⟩) (rooted.extend extended) ?_,
            Nat.succ_le_succ (rooted.length_le walked)⟩
          exact fun met => rooted.stored met old

theorem Rooted.decides {path visited : List Uuid} {current : DurableId}
    (rooted : Rooted store.origins current.entityUuid path) (enough : path.length ≤ budget)
    (apart : ∀ job ∈ path, job ∉ visited) (target : Uuid) :
    store.jobDescendsFrom ⟨store.storeUuid, target⟩ budget visited current =
      .ok (path.tail.contains target) := by
  induction budget generalizing path visited current with
  | zero => cases rooted <;> cases enough
  | succ budget ih =>
    simp only [jobDescendsFrom, ok_iff]
    cases rooted with
    | @root _ origin stored top =>
      exact ⟨(), by simpa using apart, origin, stored, none, top _, rfl⟩
    | @child _ above rest origin stored up higher new =>
      obtain ⟨parent, named, same⟩ := up store.storeUuid
      refine ⟨(), by simpa using apart _ List.mem_cons_self, origin, stored, some parent, named, ?_⟩
      have first : rest = above :: rest.tail := by cases higher <;> rfl
      have walked := @ih rest (current.entityUuid :: visited) ⟨store.storeUuid, above⟩ higher
        (Nat.le_of_succ_le_succ enough) (by grind)
      dsimp only
      rw [same, walked, List.tail_cons, first, List.contains_cons]
      by_cases found : above = target
      · simp [found, pure_eq_ok]
      · simp [found, Ne.symm found]

/-- In every run the parent columns of a stored Job lead to a root, over as many
Jobs as an ancestry may have, and `job_descends_from` decides which Jobs are among
them. -/
theorem jobDescendsFrom_decides {current : DurableId} (reached : store.Reached)
    (stored : store.origins.get? current.entityUuid = some origin) :
    ∃ path, Rooted store.origins current.entityUuid path ∧ path.length ≤ maxManagedPolicyDepth ∧
      ∀ target, store.jobDescendsFrom ⟨store.storeUuid, target⟩ maxManagedPolicyDepth [] current =
        .ok (path.tail.contains target) := by
  obtain ⟨path, rooted, bounded⟩ := Reached.rooted reached _ _ stored
  exact ⟨path, rooted, bounded, rooted.decides bounded fun _ _ => List.not_mem_nil⟩

/-- In no run is a Job above itself. -/
theorem parents_wellFounded (reached : store.Reached) :
    WellFounded fun parent child => ParentOf store.origins child parent := by
  refine ⟨fun job => ?_⟩
  cases known : store.origins.get? job with
  | none =>
    refine ⟨job, ?_⟩
    rintro _ ⟨_, found, _⟩
    cases known.symm.trans found
  | some origin =>
    obtain ⟨_, rooted, -⟩ := Reached.rooted reached job origin known
    clear known
    induction rooted with
    | root stored top => exact ⟨_, fun other up => absurd up (no_parentOf stored (top _) other)⟩
    | child stored up _ _ ih =>
      obtain ⟨parent, named, same⟩ := up store.storeUuid
      refine ⟨_, fun other above => ?_⟩
      rw [(parentOf_of_parent stored named).2 other above, same]
      exact ih

end

end SubmissionStore

private theorem SubmissionStore.Steps.started (store : SubmissionStore) (job attempt : Uuid) :
    store.Steps (store.started job attempt) :=
  ⟨_, .work _ _ ⟨Table.evolves_update (fun _ _ => ⟨rfl, rfl, rfl⟩) fun _ _ => ⟨rfl, rfl, rfl⟩,
    rfl, le_rfl⟩⟩

private theorem cpuFamily_reached : cpuFamily.Reached :=
  .next (.next (.next (.next (.start ⟨1, rfl⟩) ⟨_, .submit ..⟩) (.started _ 2 100))
    ⟨_, .submit ..⟩) (.started _ 5 101)

theorem cpuFamily_descent_decided :
    ∃ path, SubmissionStore.Rooted cpuFamily.origins 5 path ∧
      cpuFamily.jobDescendsFrom ⟨1, 2⟩ maxManagedPolicyDepth [] ⟨1, 5⟩ =
        .ok (path.tail.contains 2) := by
  obtain ⟨origin, stored⟩ : ∃ origin, cpuFamily.origins.get? 5 = some origin :=
    Option.isSome_iff_exists.mp (by decide +kernel)
  obtain ⟨path, rooted, _, decides⟩ :=
    @SubmissionStore.jobDescendsFrom_decides _ _ ⟨1, 5⟩ cpuFamily_reached stored
  exact ⟨path, rooted, decides 2⟩

theorem cpuFamily_acyclic : ¬ParentOf cpuFamily.origins 2 5 :=
  (SubmissionStore.parents_wellFounded cpuFamily_reached).asymmetric 2 5
    (parentOf_of_eq (by decide +kernel))

/-- Claims of CPU units only. -/
def cpuClaims (cpuUnits : Nat) : ResolvedClaims := { ResolvedClaims.default with cpuUnits }

/-- A Job that uses CPU units after a probe with one unit. -/
def probedSpec (cpuUnits : Nat) : JobSpec :=
  { cpuSpec cpuUnits [] (some (cpuPolicy 8 "/work")) with
    conditions := [⟨.probe ⟨{ ResourceClaims.default with cpuUnits := some 1 }, 10, 60, [0]⟩,
      .none, .failed⟩] }

/-- The probe succeeded and the Job runs; its Attempt has the Lease of the probe,
which was released, and its own.  A child needs one unit. -/
def probedFamily (cpuUnits : Nat) (leases : Table Uuid LeaseRow) : SubmissionStore :=
  let parent := ((SubmissionStore.initial 1).respond plainCall
    (cpuRequest .unmanaged 1 (probedSpec cpuUnits))).1
  let child := ((parent.started 2 100).respond plainCall
    (cpuRequest (parentScope 2 100) 1 (cpuSpec 1 [] none))).1
  { child with
    native := { child.native with
      conditions := child.native.conditions.update 4 fun row =>
        { row with state := .satisfied, nextProbeMs := none }
      invocations := child.native.invocations.set 91
        ⟨100, .probe, 0, some 4, .resolved, some 0, none, none, none⟩
      containments := child.native.containments.set 91 ⟨91, .empty, none, none, none, 0, none⟩
      leases } }

/-- The Lease of the probe, and then that of the Job. -/
def probedLeases (cpuUnits : Nat) : Table Uuid LeaseRow :=
  (Table.empty.set 90 ⟨100, some 91, .released, cpuClaims 1, false⟩).set 92
    ⟨100, none, .granted, cpuClaims cpuUnits, false⟩

/-- The Lease of the Job, and then that of a later probe. -/
def workLeases : Table Uuid LeaseRow :=
  (Table.empty.set 92 ⟨100, none, .granted, cpuClaims 4, false⟩).set 93
    ⟨100, some 94, .released, cpuClaims 1, false⟩

/-- The Job submits a batch and waits for it. -/
def waitingBatch : SubmitRequest :=
  ⟨parentScope 2 100, 2, "hash", .batch
    [⟨"build", probedSpec 2, []⟩, ⟨"test", cpuSpec 3 [] none, [⟨"build", .success⟩]⟩] .empty, true⟩

/-- The store after that submission. -/
def workFamily : SubmissionStore :=
  ((probedFamily 4 workLeases).respond plainCall.withWaitCheck waitingBatch).1

def waitingParent : ManagedParent := ⟨⟨1, 2⟩, ⟨1, 100⟩, ⟨1, 100⟩⟩

private theorem words_cpuClaims (bounded : cpuUnits < u64Bound) : (cpuClaims cpuUnits).Words := by
  intro name
  have positive : 0 < u64Bound := by decide
  simp only [ResolvedClaims.debit, amount, scalarEntries, cpuClaims, ResolvedClaims.default,
    Table.get?_set, Table.get?_empty]
  split
  · exact positive
  · split
    · exact positive
    · split
      · exact positive
      · split
        · exact bounded
        · exact positive

private theorem words_workFamily : workFamily.WordClaims plainDaemon where
  jobs job row stored := by
    have listed : ∀ entry ∈ workFamily.native.jobs.rows,
        entry.2.claims = cpuClaims entry.2.claims.cpuUnits ∧
          entry.2.claims.cpuUnits < u64Bound := by decide +kernel
    obtain ⟨same, bounded⟩ := listed (job, row) (Table.mem_rows.mpr stored)
    exact same ▸ words_cpuClaims bounded
  probes job row stored probe member claims resolved := by
    have listed : ∀ entry ∈ workFamily.native.jobs.rows, ∀ probe ∈ entry.2.spec.probes,
        (plainDaemon.resolve probe.resources).toOption = some (cpuClaims 1) := by decide +kernel
    have same := listed (job, row) (Table.mem_rows.mpr stored) probe member
    rw [resolved] at same
    cases same
    exact words_cpuClaims (by decide)
  leases id row stored := by
    have listed : ∀ entry ∈ workFamily.native.leases.rows,
        entry.2.claims = cpuClaims 4 ∨ entry.2.claims = cpuClaims 1 := by decide +kernel
    obtain same | same := listed (id, row) (Table.mem_rows.mpr stored) <;> rw [same] <;>
      exact words_cpuClaims (by decide)

/-- The wait for both members of the batch is accepted with the batch, and the
predecessor of the second one is clear of the Lease of the Job. -/
theorem workFamily_wait_clear :
    ((probedFamily 4 workLeases).respond plainCall.withWaitCheck waitingBatch).2 =
        .submitted [10, 11] ∧
      workFamily.validateManagedWaitTargets plainDaemon (.managed waitingParent) [⟨1, 11⟩] =
        .ok () ∧
      ∃ row, workFamily.native.jobs.get? 10 = some row ∧
        SubmissionStore.ClearOf plainDaemon [cpuClaims 4] row := by
  have accepted : workFamily.validateManagedWaitTargets plainDaemon (.managed waitingParent)
      [⟨1, 11⟩] = .ok () := by decide +kernel
  refine ⟨by decide +kernel, accepted, ?_⟩
  obtain ⟨chain, lineage, _, _, clear⟩ :=
    SubmissionStore.accepted_wait_clear words_workFamily accepted
  have alone : chain = [waitingParent] := by
    cases lineage with
    | root => rfl
    | step stored up =>
      have top : (workFamily.origins.get? 2).bind JobOrigin.parentJobId = none := by
        decide +kernel
      rw [show workFamily.origins.get? 2 = some _ from stored, Option.bind_some,
        parent_eq_ok up] at top
      cases top
  subst alone
  have pending : ∀ entry ∈ workFamily.native.jobs.rows, entry.2.state ≠ .final := by
    decide +kernel
  obtain ⟨row, stored⟩ : ∃ row, workFamily.native.jobs.get? 10 = some row :=
    Option.isSome_iff_exists.mp (by decide +kernel)
  have depends : workFamily.DependsOn 11 10 :=
    ⟨⟨10, 11, .success⟩, by decide +kernel, rfl, rfl⟩
  have granted : [waitingParent].flatMap workFamily.grantedClaims = [cpuClaims 4] := by
    decide +kernel
  rw [granted] at clear
  refine ⟨row, stored, clear ?_ ?_ ⟨1, 11⟩ List.mem_cons_self 10 row (.single depends) stored
    (pending (10, row) (Table.mem_rows.mpr stored))⟩
  · intro ancestor member
    rw [List.mem_singleton.mp member]
    have later : ∀ row ∈ (workFamily.attemptLeases waitingParent).tail, row.state ≠ .granted := by
      decide +kernel
    exact later
  · rintro _ _ job other _ ⟨dependency, member, rfl, _⟩ finished
    have known : ∀ dependency ∈ workFamily.native.dependencies,
        (workFamily.native.jobs.get? dependency.successorId).isSome := by decide +kernel
    obtain ⟨successor, found⟩ := Option.isSome_iff_exists.mp (known dependency member)
    exact absurd ⟨successor, found, pending _ (Table.mem_rows.mpr found)⟩ finished

/-- With the Lease of a probe in the first row the wait for the child is
accepted, although the Job keeps all eight units. -/
theorem probed_wait_accepted :
    (probedFamily 8 (probedLeases 8)).validateManagedWaitTargets plainDaemon
        (.managed waitingParent) [⟨1, 6⟩] = .ok () ∧
      (probedFamily 8 (probedLeases 8)).Lineage waitingParent [waitingParent] ∧
      ∃ row, (probedFamily 8 (probedLeases 8)).native.jobs.get? 6 = some row ∧
        row.state ≠ .final ∧
        legacyFullVectorBlockers row.claims plainDaemon.capacities
          ((probedFamily 8 (probedLeases 8)).grantedClaims waitingParent)
          plainDaemon.impactIncompatibilities =
            .ok [⟨"resource_busy", "cpu_units: requested 1, available 0, configured 8"⟩] := by
  refine ⟨by rfl, .root (by rfl) (by rfl), _, by rfl, ?_, by rfl⟩
  decide

/-- A store in which the waiting Job is its own parent. -/
def selfFamily : SubmissionStore :=
  { probedFamily 4 workLeases with
    origins := (probedFamily 4 workLeases).origins.update 2 fun origin =>
      { origin with
        parentJobId := some 2
        parentAttemptId := some 100
        parentInvocationId := some 100 } }

theorem selfFamily_cycle : ∀ extra,
    selfFamily.managedAncestorClaims (selfFamily.origins.rows.length + 2 + extra) []
        waitingParent =
      some (.error (.invalidState "managed ancestor graph contains a cycle")) := by
  have read : selfFamily.readAncestor waitingParent = .ok ([cpuClaims 4], some waitingParent) := by
    rfl
  obtain ⟨result, ended, _, cyclic⟩ := selfFamily.managedAncestorClaims_ends waitingParent
  intro extra
  rw [ended, cyclic]
  intro met path
  suffices same : met = waitingParent from ⟨waitingParent, [cpuClaims 4], same ▸ read⟩
  induction path with
  | refl => rfl
  | tail _ ascends ih =>
    obtain ⟨claims, round⟩ := ascends
    rw [ih, read] at round
    cases round
    rfl

end Stillyard
