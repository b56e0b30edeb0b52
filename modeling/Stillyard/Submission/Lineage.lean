import Stillyard.Submission.Limits
import Stillyard.Submission.Runs

/-!
# The lineage of managed Jobs

The evaluator reads the parent chain as it is when the child is accepted.  The
rows on the chain never change, so the chain of a Job is the same in every later
store, and what was checked of it stays true.
-/

namespace Stillyard

open Relational Fallible

/-- Origins are only added, and the specification of a Job stays. -/
structure SubmissionStore.Descends (before after : SubmissionStore) : Prop where
  origins : before.origins.Extends after.origins
  specs : ∀ job row, before.native.jobs.get? job = some row →
    ∃ new, after.native.jobs.get? job = some new ∧ new.spec = row.spec

theorem SubmissionStore.Descends.refl (store : SubmissionStore) : store.Descends store :=
  ⟨.refl _, fun _ row found => ⟨row, found, rfl⟩⟩

theorem SubmissionStore.Descends.trans {first : SubmissionStore} (earlier : first.Descends second)
    (later : second.Descends third) : first.Descends third where
  origins := earlier.origins.trans later.origins
  specs job row found := by
    obtain ⟨middle, present, same⟩ := earlier.specs job row found
    obtain ⟨new, last, equal⟩ := later.specs job middle present
    exact ⟨new, last, equal.trans same⟩

section Moves

variable {decides : Uuid → SubmissionCall → Prop} {store next : SubmissionStore}

theorem SubmissionMove.descends (move : SubmissionMove decides store next) :
    store.Descends next := by
  cases move with
  | receive absent received =>
    obtain ⟨_, _, rfl⟩ := receive_eq_ok received
    exact ⟨.refl _, fun _ row found => ⟨row, found, rfl⟩⟩
  | noteWait | reject => exact ⟨.refl _, fun _ row found => ⟨row, found, rfl⟩⟩
  | accept decided found creates =>
    have extended : store.native.jobs.Extends next.native.jobs := ⟨_, creates.jobs⟩
    exact ⟨⟨_, creates.origins⟩, fun _ row present => ⟨row, extended.lookup present, rfl⟩⟩
  | work _ processes works =>
    refine ⟨.refl _, fun job row found => ?_⟩
    obtain ⟨new, present, same, _⟩ := works.jobs.lookup found
    exact ⟨new, present, same⟩

theorem SubmissionStore.Run.descends (run : store.Run next) : store.Descends next :=
  run.moves .refl fun earlier move => earlier.trans move.descends

/-- What an acceptance checked of a Job: it evaluated the specification against
the origins of that moment, and wrote the parent, the claims and the resolved
policy. -/
structure Admitted (call : SubmissionCall) (before : SubmissionStore) (origin : JobOrigin)
    (row : JobRow) : Prop where
  evaluated : ∃ scope admission,
    evaluateManagedPolicy before.storeUuid before.origins call.checking scope row.spec
        call.acceptedMs = .ok admission ∧
      origin.parentJobId = scope.parent.map fun parent => parent.jobId.entityUuid
  claimed : ResolvedClaims.resolve call.resolving row.spec.resources = .ok row.claims
  resolved : row.spec.childSubmissionPolicy.mapM
    (ResolvedChildSubmissionPolicy.resolve call.resolving) = .ok origin.resolvedChildPolicy

/-- A move that creates a Job admits it. -/
theorem SubmissionMove.admits (move : SubmissionMove decides store next)
    (absent : store.origins.get? job = none) (created : next.origins.get? job = some origin) :
    ∃ call row, decides origin.submissionId call ∧ next.native.jobs.get? job = some row ∧
      Admitted call store origin row := by
  cases move with
  | receive _ received =>
    obtain ⟨_, _, rfl⟩ := receive_eq_ok received
    cases absent.symm.trans created
  | noteWait | reject | work => cases absent.symm.trans created
  | @accept _ call id pending scope target entries decided found creates =>
    have listed := Table.mem_rows.mpr created
    rw [creates.origins, List.mem_append] at listed
    cases listed with
    | inl old => cases absent.symm.trans (Table.mem_rows.mp old)
    | inr new =>
      obtain ⟨entry, member, same⟩ := List.mem_map.mp new
      cases same
      have inserted : next.native.jobs.get? entry.1.id = some (entry.1.row call.acceptedMs) := by
        rw [← Table.mem_rows, creates.jobs]
        exact List.mem_append_right _ (List.mem_map.mpr ⟨entry, member, rfl⟩)
      obtain ⟨_, _, _, _, claimed, policy⟩ := resolveJob_eq_ok (creates.resolved entry member)
      exact ⟨call, _, decided, inserted,
        ⟨scope, entry.2, creates.admitted entry member, rfl⟩, claimed, policy⟩

/-- The moves of an event that decides submissions only add Jobs. -/
theorem SubmissionMove.jobs_extend (move : SubmissionMove decides store next)
    (decided : decides submission call) : store.native.jobs.Extends next.native.jobs := by
  cases move with
  | receive _ received =>
    obtain ⟨_, _, rfl⟩ := receive_eq_ok received
    exact .refl _
  | noteWait | reject => exact .refl _
  | accept _ _ creates => exact ⟨_, creates.jobs⟩
  | work idle => exact absurd decided (idle submission call)

/-- A Job that a step created was admitted by one of its moves, and its row is the
one that this move wrote. -/
theorem SubmissionMoves.admits (moves : SubmissionMoves decides store next) {job : Uuid}
    {origin : JobOrigin} (absent : store.origins.get? job = none)
    (created : next.origins.get? job = some origin) :
    ∃ call before row, decides origin.submissionId call ∧ before.Descends next ∧
      next.native.jobs.get? job = some row ∧ Admitted call before origin row := by
  induction moves with
  | refl => cases absent.symm.trans created
  | @tail middle last earlier move ih =>
    cases known : middle.origins.get? job with
    | none =>
      obtain ⟨call, row, decided, found, admitted⟩ := move.admits known created
      exact ⟨call, middle, row, decided, move.descends, found, admitted⟩
    | some other =>
      cases (move.descends.origins.lookup known).symm.trans created
      obtain ⟨call, before, row, decided, descends, found, admitted⟩ := ih known
      exact ⟨call, before, row, decided, descends.trans move.descends,
        (move.jobs_extend decided).lookup found, admitted⟩

/-! ## The chain of an admitted Job -/

/-- The file system stays the same while a submission is resolved and checked, and
no path of the submission ends in a link that is followed. -/
structure SubmissionCall.Settled (call : SubmissionCall) (spec : JobSpec) : Prop where
  same : call.checking = call.resolving
  rooted : call.resolving.Rooted
  unfollowed : ∀ fence ∈ spec.sharedPaths ++ spec.exclusivePaths,
    call.resolving.Unfollowed fence

/-- The fences of both kinds that a Job asks for, holds and delegates lie inside
those of a policy. -/
def JobFencesWithin (view : FileView) (row : JobRow)
    (delegated : Option ResolvedChildSubmissionPolicy) (limit : ResolvedChildSubmissionPolicy) :
    Prop :=
  FencesWithin view limit.sharedFences row.spec.sharedPaths row.claims.sharedFences
      (delegated.elim [] ResolvedChildSubmissionPolicy.sharedFences) ∧
    FencesWithin view limit.exclusiveFences row.spec.exclusivePaths row.claims.exclusiveFences
      (delegated.elim [] ResolvedChildSubmissionPolicy.exclusiveFences)

/-- The policy that an admitted Job delegates is the one it asked for, resolved. -/
theorem Admitted.delegated (admitted : Admitted call before origin row) :
    (row.spec.childSubmissionPolicy = none ∧ origin.resolvedChildPolicy = none) ∨
      ∃ asked policy, row.spec.childSubmissionPolicy = some asked ∧
        origin.resolvedChildPolicy = some policy ∧
        ResolvedChildSubmissionPolicy.resolve call.resolving asked = .ok policy := by
  have resolved := admitted.resolved
  cases stated : row.spec.childSubmissionPolicy with
  | none =>
    rw [stated, Option.mapM_none, pure_eq_ok] at resolved
    exact .inl ⟨rfl, resolved.symm⟩
  | some asked =>
    simp only [stated, Option.mapM_some, Functor.map, map_eq_ok] at resolved
    obtain ⟨policy, done, same⟩ := resolved
    exact .inr ⟨asked, policy, rfl, same.symm, done⟩

theorem Admitted.roots (admitted : Admitted call before origin row) :
    (row.spec.childSubmissionPolicy.elim [] ChildSubmissionPolicy.sharedRoots).mapM
        call.resolving.resolvePolicyFence =
      .ok (origin.resolvedChildPolicy.elim [] ResolvedChildSubmissionPolicy.sharedFences) ∧
    (row.spec.childSubmissionPolicy.elim [] ChildSubmissionPolicy.exclusiveRoots).mapM
        call.resolving.resolvePolicyFence =
      .ok (origin.resolvedChildPolicy.elim [] ResolvedChildSubmissionPolicy.exclusiveFences) := by
  obtain ⟨unstated, undelegated⟩ | ⟨asked, policy, stated, delegated, resolved⟩ :=
    admitted.delegated
  · rw [unstated, undelegated]
    exact ⟨rfl, rfl⟩
  · obtain ⟨shared, exclusive, _⟩ := resolve_eq_ok resolved
    rw [stated, delegated]
    exact ⟨shared, exclusive⟩

/-- Where the fences of an admitted Job passed the check of a policy, they lie
inside its fences. -/
theorem Admitted.fenced (admitted : Admitted call before origin row)
    (settled : call.Settled row.spec)
    (allowed : FencesAllowed call.resolving row.spec.sharedPaths row.spec.exclusivePaths limit) :
    JobFencesWithin call.resolving row origin.resolvedChildPolicy limit := by
  obtain ⟨shared, exclusive⟩ := resolvedClaims_eq_ok admitted.claimed
  obtain ⟨sharedRoots, exclusiveRoots⟩ := admitted.roots
  obtain ⟨sharedPlain, exclusivePlain⟩ := List.forall_mem_append.mp settled.unfollowed
  constructor
  · apply fencesWithin_of_allowed settled.rooted sharedPlain allowed.shared shared _ sharedRoots
    · exact List.subset_append_right _ _
    · exact List.subset_append_of_subset_left _ (List.subset_append_left _ _)
  · apply fencesWithin_of_allowed settled.rooted exclusivePlain allowed.exclusive exclusive _
      exclusiveRoots
    · exact List.subset_append_right _ _
    · exact List.subset_append_of_subset_left _ (List.subset_append_left _ _)

/-- The parent chain of an admitted Job is the same in every later store, and
every Job on it allows the child. -/
theorem Admitted.within (admitted : Admitted call before origin row)
    (descends : before.Descends later) (child : origin.parentJobId = some parent)
    (above : Relation.ReflTransGen (ParentOf later.origins) parent ancestor) :
    ∃ limit, PolicyOf later.origins ancestor limit ∧ SpecWithin row.spec limit.policy ∧
      (∀ policy, origin.resolvedChildPolicy = some policy →
        PolicyWithin policy.policy limit.policy) ∧
      (call.Settled row.spec →
        JobFencesWithin call.resolving row origin.resolvedChildPolicy limit) := by
  obtain ⟨scope, admission, evaluated, written⟩ := admitted.evaluated
  cases scope with
  | unmanaged =>
    rw [child] at written
    cases written
  | managed managed =>
    rw [child] at written
    cases written
    -- Going up, the walk knew every Job, so the column it read is the stored one.
    have known : ∀ {job : Uuid},
        Relation.ReflTransGen (ParentOf later.origins) managed.jobId.entityUuid job →
        Relation.ReflTransGen (ParentOf before.origins) managed.jobId.entityUuid job := by
      intro job upward
      induction upward with
      | refl => exact .refl
      | @tail lower upper _ parentOf ih =>
        obtain ⟨_, ⟨row, _, found, _⟩, _⟩ := evaluateManagedPolicy_eq_ok evaluated ih
        obtain ⟨stored, present, named⟩ := parentOf
        cases (descends.origins.lookup found).symm.trans present
        exact ih.tail ⟨_, found, named⟩
    obtain ⟨limit, ⟨holder, stored, found, kept, canonical⟩, within, fenced, delegates⟩ :=
      evaluateManagedPolicy_eq_ok evaluated (known above)
    refine ⟨limit, ⟨holder, stored, descends.origins.lookup found, kept, canonical⟩, within,
      ?_, ?_⟩
    · intro policy delegated
      obtain ⟨_, undelegated⟩ | ⟨asked, other, stated, same, resolved⟩ := admitted.delegated
      · cases delegated.symm.trans undelegated
      · cases delegated.symm.trans same
        exact delegates asked _ _ stated resolved
    · intro settled
      rw [settled.same] at fenced
      exact admitted.fenced settled fenced

end Moves

/-- A Job that a step creates is within the policy of every Job above it, at any
depth and in every later store, and so is the policy that it delegates.  Its
fences lie inside those of every Job above it if the file system stays the same
during the call and none of their paths ends in a link that is followed. -/
theorem children_within_every_ancestor {store next later : SubmissionStore}
    {event : SubmissionEvent} {job ancestor : Uuid} {origin : JobOrigin} {row kept : JobRow}
    (step : SubmissionStep store event next) (run : next.Run later)
    (absent : store.origins.get? job = none) (created : next.origins.get? job = some origin)
    (written : next.native.jobs.get? job = some row)
    (found : later.native.jobs.get? job = some kept)
    (above : Relation.TransGen (ParentOf later.origins) job ancestor) :
    ∃ call limit, event.Decides origin.submissionId call ∧ PolicyOf later.origins ancestor limit ∧
      SpecWithin kept.spec limit.policy ∧
      (∀ policy, origin.resolvedChildPolicy = some policy →
        PolicyWithin policy.policy limit.policy) ∧
      (call.Settled kept.spec →
        JobFencesWithin call.resolving row origin.resolvedChildPolicy limit) := by
  obtain ⟨call, before, first, decided, descends, inserted, admitted⟩ :=
    step.moves.admits absent created
  cases inserted.symm.trans written
  obtain ⟨new, present, same⟩ := run.descends.specs job row written
  cases present.symm.trans found
  obtain ⟨parent, ⟨stored, known, child⟩, upward⟩ := Relation.TransGen.head'_iff.mp above
  cases (run.descends.origins.lookup created).symm.trans known
  obtain ⟨limit, policy, within, delegates, fences⟩ :=
    admitted.within (descends.trans run.descends) child upward
  rw [same]
  exact ⟨call, limit, decided, policy, within, delegates, fences⟩

/-- A policy with a limit on the CPU and one shared root. -/
def cpuPolicy (cpuUnits : Nat) (root : String) : ChildSubmissionPolicy where
  minPriority := -1
  maxPriority := 1
  maxClaims := ⟨some cpuUnits, none, none, none, .empty⟩
  allowedImpacts := []
  requiredLabels := []
  sharedRoots := [root]
  exclusiveRoots := []
  allowObserved := false
  allowQuiet := false
  allowDelegation := true

/-- The primary Invocation of a Job runs. -/
def SubmissionStore.started (store : SubmissionStore) (job attempt : Uuid) : SubmissionStore :=
  { store with
    native := { store.native with
      jobs := store.native.jobs.update job fun row =>
        { row with state := .active, attemptId := some attempt, invocationId := some attempt }
      attempts := store.native.attempts.set attempt
        ⟨job, .running, 1, none, none, none, none, none, none⟩
      invocations := store.native.invocations.set attempt
        ⟨attempt, .primary, 0, none, .started, none, none, none, none⟩
      containments := store.native.containments.set attempt
        ⟨attempt, .live, none, none, none, 0, none⟩ }
    processes := store.processes.set attempt ⟨some 1, some plainDaemon.daemonGeneration⟩ }

/-- The scope of a running Job. -/
def parentScope (job attempt : Uuid) : SubmissionScope :=
  .managed ⟨⟨1, job⟩, ⟨1, attempt⟩, ⟨1, attempt⟩⟩

/-- The names of a path, with the link `/work/a/link` to `/outside` followed. -/
def followLink : List String → List String
  | "work" :: "a" :: "link" :: rest => "outside" :: rest
  | names => names

/-- A file system with one link, in which every object exists. -/
def linkedFiles : FileView where
  symlinkMetadata path := .ok (path = ⟨["work", "a", "link"], false⟩)
  policyIdentityKey path leaf := .ok (renderPath
    (if path = ⟨["work", "a", "link"], false⟩ ∧ leaf = true then path.names
      else followLink path.names))
  canonicalize names := .ok (followLink names)

/-- A call that sees this file system throughout. -/
def linkedCall : SubmissionCall :=
  { plainCall with resolving := linkedFiles, checking := linkedFiles }

/-- A Job with four CPU units to delegate, and a child of it with two. -/
def cpuFamily : SubmissionStore :=
  let parent := ((SubmissionStore.initial 1).respond linkedCall
    (cpuRequest .unmanaged 1 (cpuSpec 0 [] (some (cpuPolicy 4 "/work"))))).1
  let child := ((parent.started 2 100).respond linkedCall
    (cpuRequest (parentScope 2 100) 1 (cpuSpec 3 ["/work/a"] (some (cpuPolicy 2 "/work/a"))))).1
  child.started 5 101

/-- The request of the child's child, with a fence on the link. -/
def grandchildRequest (fence : String) : SubmitRequest :=
  cpuRequest (parentScope 5 101) 1 (cpuSpec 2 ["/work/a/b", fence] none)

/-- The store after that request. -/
def withGrandchild (fence : String) : SubmissionStore :=
  (cpuFamily.respond linkedCall (grandchildRequest fence)).1

theorem parentOf_of_eq (column : (origins.get? child).bind JobOrigin.parentJobId = some parent) :
    ParentOf origins child parent :=
  Option.bind_eq_some_iff.mp column

theorem grandchild_within_root :
    (cpuFamily.respond linkedCall (grandchildRequest "/work/a/link")).2 = .submitted [8] ∧
      ∃ origin row, (withGrandchild "/work/a/link").origins.get? 8 = some origin ∧
        (withGrandchild "/work/a/link").native.jobs.get? 8 = some row ∧
        ∃ limit, PolicyOf (withGrandchild "/work/a/link").origins 2 limit ∧
          SpecWithin row.spec limit.policy ∧
          JobFencesWithin linkedFiles row origin.resolvedChildPolicy limit := by
  obtain ⟨origin, created⟩ : ∃ origin,
      (withGrandchild "/work/a/link").origins.get? 8 = some origin :=
    Option.isSome_iff_exists.mp (by decide +kernel)
  obtain ⟨row, found⟩ : ∃ row, (withGrandchild "/work/a/link").native.jobs.get? 8 = some row :=
    Option.isSome_iff_exists.mp (by decide +kernel)
  have parent : ParentOf (withGrandchild "/work/a/link").origins 8 5 :=
    parentOf_of_eq (by decide +kernel)
  have root : ParentOf (withGrandchild "/work/a/link").origins 5 2 :=
    parentOf_of_eq (by decide +kernel)
  obtain ⟨_, limit, rfl, policy, within, _, fences⟩ := children_within_every_ancestor
    (.submit cpuFamily linkedCall (grandchildRequest "/work/a/link")) .refl (by decide +kernel)
    created found found (.tail (.single parent) root)
  have asked : ((withGrandchild "/work/a/link").native.jobs.get? 8).all fun row =>
      row.spec.sharedPaths ++ row.spec.exclusivePaths = ["/work/a/b", "/work/a/link"] := by
    decide +kernel
  have settled : linkedCall.Settled row.spec := by
    refine ⟨rfl, ?_, ?_⟩
    · rintro names more detail found ⟨⟩
    · rw [found, Option.all_some, decide_eq_true_eq] at asked
      rw [asked]
      simp only [FileView.Unfollowed]
      decide +kernel
  exact ⟨by decide +kernel, origin, row, created, found, limit, policy, within, fences settled⟩

/-- With a separator after the link, the child's child gets a fence on the object
outside, which it may not ask for under its own path. -/
theorem grandchild_escapes :
    (cpuFamily.respond linkedCall (grandchildRequest "/work/a/link/")).2 = .submitted [8] ∧
      ((withGrandchild "/work/a/link/").native.jobs.get? 8).any (fun row =>
        row.claims.sharedFences.contains "identity:/outside:") = true ∧
      linkedFiles.resolveFence "/outside" = .ok ["identity:/outside:", "path:/outside"] ∧
      ∀ ancestor ∈ [5, 2],
        ((withGrandchild "/work/a/link/").origins.get? ancestor).any (fun origin =>
          origin.resolvedChildPolicy.any fun policy =>
            policy.allowsShared linkedFiles "/outside" = .ok false) = true := by
  decide +kernel

end Stillyard
