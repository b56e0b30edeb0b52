import Stillyard.Submission.Requests

/-!
# What an acceptance writes

An acceptance that creates Jobs appends their rows, and changes no row of an
earlier Job.  The Jobs of a batch are created together with their dependencies.
-/

namespace Stillyard

open Relational Fallible

namespace NativeStore

/-- Only Conditions and observations were written. -/
structure WritesConditions (before after : NativeStore) : Prop where
  jobs : after.jobs = before.jobs
  dependencies : after.dependencies = before.dependencies
  nextUuid : before.nextUuid ≤ after.nextUuid

theorem WritesConditions.refl (store : NativeStore) : WritesConditions store store :=
  ⟨rfl, rfl, le_rfl⟩

theorem WritesConditions.trans (earlier : WritesConditions first second)
    (later : WritesConditions second third) : WritesConditions first third :=
  ⟨later.jobs.trans earlier.jobs, later.dependencies.trans earlier.dependencies,
    earlier.nextUuid.trans later.nextUuid⟩

variable {job : Uuid}

theorem evaluateOne_writes {observedMs : Int} {id : Uuid}
    (done : store.evaluateOne context observedMs id = .ok next) : WritesConditions store next := by
  simp only [evaluateOne, insertObservation, ok_iff] at done
  obtain ⟨_, _, _, _, _, ⟨_, _, rfl⟩, rfl⟩ := done
  exact ⟨rfl, rfl, Nat.le_succ _⟩

theorem insertConditionRow_writes
    (done : store.insertConditionRow job acceptedMs context entry = .ok next) :
    WritesConditions store next := by
  simp only [insertConditionRow, insertCondition, ok_iff] at done
  obtain ⟨inserted, ⟨_, _, rfl⟩, continued⟩ := done
  split at continued
  · cases pure_eq_ok.mp continued
    exact ⟨rfl, rfl, Nat.le_succ _⟩
  · apply WritesConditions.trans _ (evaluateOne_writes continued)
    exact ⟨rfl, rfl, Nat.le_succ _⟩

theorem insertConditions_writes {conditions : List ConditionSpec}
    (done : store.insertConditions job conditions acceptedMs context = .ok next) :
    WritesConditions store next :=
  foldlM_invariant (WritesConditions store)
    (fun _ _ _ _ held round => held.trans (insertConditionRow_writes round)) (.refl store) done

end NativeStore

namespace SubmissionStore

variable {call : SubmissionCall} {submission : Uuid} {batch : Option Uuid} {scope : SubmissionScope}

/-- Rows of Jobs were appended, and nothing else was written that a submission
reads back. -/
structure Appends (before after : SubmissionStore) (jobs : List (Uuid × JobRow))
    (origins : List (Uuid × JobOrigin)) : Prop where
  storeUuid : after.storeUuid = before.storeUuid
  jobs : after.native.jobs.rows = before.native.jobs.rows ++ jobs
  origins : after.origins.rows = before.origins.rows ++ origins
  dependencies : after.native.dependencies = before.native.dependencies
  submissions : after.submissions = before.submissions
  nextUuid : before.native.nextUuid ≤ after.native.nextUuid

theorem Appends.trans {first : SubmissionStore} {jobs others : List (Uuid × JobRow)}
    {origins further : List (Uuid × JobOrigin)} (earlier : Appends first second jobs origins)
    (later : Appends second third others further) :
    Appends first third (jobs ++ others) (origins ++ further) where
  storeUuid := later.storeUuid.trans earlier.storeUuid
  jobs := by rw [later.jobs, earlier.jobs, List.append_assoc]
  origins := by rw [later.origins, earlier.origins, List.append_assoc]
  dependencies := later.dependencies.trans earlier.dependencies
  submissions := later.submissions.trans earlier.submissions
  nextUuid := earlier.nextUuid.trans later.nextUuid

/-- The row of a Job that is created, under its identifier. -/
def jobEntry (call : SubmissionCall)
    (entry : ResolvedJob × Option ManagedPolicyAdmissionSnapshot) : Uuid × JobRow :=
  (entry.1.id, entry.1.row call.acceptedMs)

/-- The origin of a Job that is created, under its identifier. -/
def originEntry (submission : Uuid) (batch : Option Uuid) (scope : SubmissionScope)
    (entry : ResolvedJob × Option ManagedPolicyAdmissionSnapshot) : Uuid × JobOrigin :=
  (entry.1.id, entry.1.origin submission batch scope entry.2)

theorem insertJob_eq_ok (done : store.insertJob call submission batch scope entry = .ok next) :
    Appends store next [jobEntry call entry] [originEntry submission batch scope entry] := by
  simp only [insertJob, NativeStore.insertJob, ok_iff] at done
  obtain ⟨origins, added, inserted, ⟨jobs, created, rfl⟩, native, conditions, rfl⟩ := done
  have written := NativeStore.insertConditions_writes conditions
  constructor
  · rfl
  · rw [written.jobs]
    exact (Table.rows_insert? created).2
  · exact (Table.rows_insert? added).2
  · exact written.dependencies
  · rfl
  · exact written.nextUuid

theorem createJobs_eq_ok (done : store.createJobs call submission batch scope entries = .ok next) :
    Appends store next (entries.map (jobEntry call))
        (entries.map (originEntry submission batch scope)) ∧
      store.native.nextUuid + entries.length < next.native.nextUuid := by
  suffices general : ∀ (entries : List (ResolvedJob × Option ManagedPolicyAdmissionSnapshot))
      (start : SubmissionStore),
      entries.foldlM (fun state entry => state.insertJob call submission batch scope entry) start =
        .ok next →
      Appends start next (entries.map (jobEntry call))
        (entries.map (originEntry submission batch scope)) by
    have appended := general entries _ done
    have drawn : store.native.nextUuid + (entries.length + 1) ≤ next.native.nextUuid :=
      appended.nextUuid
    constructor
    · exact { appended with nextUuid := (Nat.le_add_right _ _).trans drawn }
    · exact drawn
  intro entries
  induction entries with
  | nil =>
    intro start completed
    cases pure_eq_ok.mp completed
    exact ⟨rfl, by simp, by simp, rfl, rfl, le_rfl⟩
  | cons entry rest ih =>
    intro start completed
    simp only [List.foldlM_cons, bind_eq_ok] at completed
    obtain ⟨middle, first, others⟩ := completed
    exact (insertJob_eq_ok first).trans (ih middle others)

end SubmissionStore

/-! ## Acceptances -/

/-- The batch of a target. -/
def Target.batchId : Target → Option Uuid
  | .job _ => none
  | .batch id => some id

/-- How an acceptance changes the row of its submission. -/
def Target.record (daemonGeneration : Uuid) (row : SubmissionRow) : Target → SubmissionRow
  | .job id => { row with
      state := .accepted
      jobId := some id
      daemonGeneration := some daemonGeneration }
  | .batch id => { row with
      state := .accepted
      batchId := some id
      daemonGeneration := some daemonGeneration }

/-- The Jobs that a payload asks for, with their names and indices in a batch. -/
def Payload.members : Payload → List (Option (String × Nat) × JobSpec)
  | .job spec _ => [(none, spec)]
  | .batch members _ => members.zipIdx.map fun entry => (some (entry.1.name, entry.2), entry.1.spec)

/-- The dependencies of a payload are all there, between the Jobs of its
members. -/
def Payload.Linked (payload : Payload) (jobs : List ResolvedJob) (dependencies : List Dependency) :
    Prop :=
  match payload with
  | .job _ _ => True
  | .batch members _ => ∀ entry ∈ members.zip jobs, ∀ dependency ∈ entry.1.dependencies,
      ∃ predecessor ∈ jobs, predecessor.member.map Prod.fst = some dependency.job ∧
        ⟨predecessor.id, entry.2.id, dependency.kind⟩ ∈ dependencies

/-- An acceptance that created Jobs for a received submission. -/
structure Creates (call : SubmissionCall) (id : Uuid) (payload : Payload) (scope : SubmissionScope)
    (target : Target) (entries : List (ResolvedJob × Option ManagedPolicyAdmissionSnapshot))
    (before after : SubmissionStore) : Prop where
  pending : ∃ row, before.submissions.get? id = some row ∧ row.state = .received
  parent : before.validateCurrentParentIdentity call.daemon.daemonGeneration scope = .ok ()
  members : entries.map (fun entry => (entry.1.member, entry.1.spec)) = payload.members
  resolved : ∀ entry ∈ entries,
    resolveJob call entry.1.id entry.1.spec entry.1.stdin entry.1.member = .ok entry.1
  admitted : ∀ entry ∈ entries, evaluateManagedPolicy before.storeUuid before.origins call.checking
    scope entry.1.spec call.acceptedMs = .ok entry.2
  ids : ∃ first, before.native.nextUuid ≤ first ∧
    entries.map (fun entry => entry.1.id) = List.range' first entries.length
  named : match target with
    | .job job => entries.map (fun entry => entry.1.id) = [job]
    | .batch batch => batch = before.native.nextUuid
  kind : target.batchId.isSome = payload.isBatch
  storeUuid : after.storeUuid = before.storeUuid
  jobs : after.native.jobs.rows =
    before.native.jobs.rows ++ entries.map (SubmissionStore.jobEntry call)
  origins : after.origins.rows =
    before.origins.rows ++ entries.map (SubmissionStore.originEntry id target.batchId scope)
  kept : ∀ dependency ∈ before.native.dependencies, dependency ∈ after.native.dependencies
  linked : payload.Linked (entries.map Prod.fst) after.native.dependencies
  submissions : after.submissions = before.submissions.update id fun row =>
    target.record call.daemon.daemonGeneration row
  drawn : ∀ entry ∈ entries, entry.1.id < after.native.nextUuid
  nextUuid : before.native.nextUuid < after.native.nextUuid

/-- What a decision that succeeded did: it found the submission accepted, or it
created its Jobs. -/
inductive Accepts (call : SubmissionCall) (id : Uuid) (payload : Payload)
    (scope : SubmissionScope) (before : SubmissionStore) : SubmissionStore → Target → Prop where
  | known {target : Target}
      (found : before.submissions.get? id = some row) (accepted : row.state = .accepted)
      (recorded : match target with
        | .job job => row.jobId = some job
        | .batch batch => row.batchId = some batch)
      (kind : target.batchId.isSome = payload.isBatch) :
      Accepts call id payload scope before before target
  | created {entries : List (ResolvedJob × Option ManagedPolicyAdmissionSnapshot)}
      (creates : Creates call id payload scope target entries before after) :
      Accepts call id payload scope before after target

variable {spec : JobSpec} {stdin : Option StagedInputRef}

theorem resolveJob_eq_ok {call : SubmissionCall} {id : Uuid} {member : Option (String × Nat)}
    {job : ResolvedJob} (done : resolveJob call id spec stdin member = .ok job) :
    job.id = id ∧ job.spec = spec ∧ job.stdin = stdin ∧ job.member = member ∧
      ResolvedClaims.resolve call.resolving spec.resources = .ok job.claims ∧
      spec.childSubmissionPolicy.mapM (ResolvedChildSubmissionPolicy.resolve call.resolving) =
        .ok job.policy := by
  simp only [resolveJob, ok_iff] at done
  obtain ⟨claims, claimed, policy, resolved, rfl⟩ := done
  exact ⟨rfl, rfl, rfl, rfl, claimed, resolved⟩

namespace SubmissionStore

variable {store : SubmissionStore} {call : SubmissionCall} {id : Uuid} {scope : SubmissionScope}
variable {row : SubmissionRow} {acceptance : SubmissionStore.Acceptance}

theorem pendingSubmission_eq_ok (found : store.pendingSubmission id = .ok row) :
    store.submissions.get? id = some row ∧ row.state ≠ .rejected := by
  simp only [pendingSubmission, ok_iff, decide_eq_true_eq] at found
  obtain ⟨_, stored, _, open_, rfl⟩ := found
  exact ⟨stored, open_⟩

theorem received_of_open (open_ : row.state ≠ .rejected) (undecided : row.state ≠ .accepted) :
    row.state = .received := by
  cases state : row.state with
  | received => rfl
  | accepted => exact absurd state undecided
  | rejected => exact absurd state open_

theorem acceptJob_eq_ok (done : store.acceptJob call id spec stdin scope wait = .ok acceptance) :
    Accepts call id (.job spec stdin) scope store acceptance.1 acceptance.2.1 := by
  simp only [acceptJob, bind_eq_ok, mapError_eq_ok] at done
  obtain ⟨_, _, job, resolved, row, found, continued⟩ := done
  obtain ⟨stored, open_⟩ := pendingSubmission_eq_ok found
  split at continued
  next accepted =>
    simp only [ok_iff] at continued
    obtain ⟨existing, recorded, rfl⟩ := continued
    exact .known stored accepted recorded rfl
  next undecided =>
    simp only [ok_iff, mapError_eq_ok] at continued
    obtain ⟨_, parent, admission, admitted, created, inserted, _, _, rfl⟩ := continued
    obtain ⟨named, spelled, staged, single, _⟩ := resolveJob_eq_ok resolved
    obtain ⟨appended, drawn⟩ := createJobs_eq_ok inserted
    have creates : Creates call id (.job spec stdin) scope (.job job.id) [(job, admission)] store
        (created.updateSubmission id fun row =>
          Target.record call.daemon.daemonGeneration row (.job job.id)) :=
      { pending := ⟨row, stored, received_of_open open_ undecided⟩
        parent
        members := by simp [Payload.members, spelled, single]
        resolved := by simpa [named, spelled, staged, single] using resolved
        admitted := by simpa [spelled] using admitted
        ids := ⟨store.native.nextUuid, le_rfl, by simp [named]⟩
        named := rfl
        kind := rfl
        storeUuid := appended.storeUuid
        jobs := appended.jobs
        origins := appended.origins
        kept := fun dependency member => by
          simpa [updateSubmission, appended.dependencies] using member
        linked := trivial
        submissions := by simp [updateSubmission, appended.submissions]
        drawn := by
          simp only [List.mem_singleton, forall_eq, named]
          exact (Nat.lt_succ_self _).trans drawn
        nextUuid := (Nat.lt_succ_self _).trans drawn }
    exact .created creates

/-- Only dependencies were added. -/
structure Links (before after : SubmissionStore) : Prop where
  same : after = { before with
    native := { before.native with dependencies := after.native.dependencies } }
  kept : ∀ dependency ∈ before.native.dependencies, dependency ∈ after.native.dependencies

theorem Links.refl (store : SubmissionStore) : Links store store := ⟨rfl, fun _ => id⟩

theorem Links.trans (earlier : Links first second) (later : Links second third) :
    Links first third := by
  constructor
  · rw [later.same, earlier.same]
  · exact fun dependency member => later.kept dependency (earlier.kept dependency member)

section Links

variable {jobs : List ResolvedJob}

theorem memberJob_eq_some (found : memberJob jobs name = some job) :
    ∃ predecessor ∈ jobs, predecessor.member.map Prod.fst = some name ∧ predecessor.id = job := by
  simp only [memberJob, Option.map_eq_some_iff] at found
  obtain ⟨predecessor, located, rfl⟩ := found
  rw [List.findRev?_eq_find?_reverse] at located
  refine ⟨predecessor, ?_, ?_, rfl⟩
  · simpa using List.mem_of_find?_eq_some located
  · simpa using List.find?_some located

theorem insertDependency_links {native : NativeStore}
    (done : store.native.insertDependency dependency = .ok native) :
    Links store { store with native } ∧ dependency ∈ native.dependencies := by
  simp only [NativeStore.insertDependency, ok_iff] at done
  obtain ⟨_, _, rfl⟩ := done
  constructor
  · exact ⟨rfl, fun other member => List.mem_append_left _ member⟩
  · exact List.mem_append_right _ List.mem_cons_self

theorem insertMemberDependencies_links
    (done : insertMemberDependencies jobs store entry = .ok next) :
    Links store next ∧ ∀ dependency ∈ entry.1.dependencies, ∃ predecessor ∈ jobs,
      predecessor.member.map Prod.fst = some dependency.job ∧
        ⟨predecessor.id, entry.2.id, dependency.kind⟩ ∈ next.native.dependencies := by
  unfold insertMemberDependencies at done
  constructor
  · apply foldlM_invariant (Links store) _ (.refl store) done
    intro state dependency result _ held round
    simp only [ok_iff] at round
    obtain ⟨_, _, native, inserted, rfl⟩ := round
    exact held.trans (insertDependency_links inserted).1
  · apply foldlM_establishes (fun dependency (state : SubmissionStore) =>
      ∃ predecessor ∈ jobs, predecessor.member.map Prod.fst = some dependency.job ∧
        ⟨predecessor.id, entry.2.id, dependency.kind⟩ ∈ state.native.dependencies) _ _ done
    · intro state dependency result round
      simp only [ok_iff] at round
      obtain ⟨_, found, native, inserted, rfl⟩ := round
      obtain ⟨predecessor, member, named, rfl⟩ := memberJob_eq_some found
      exact ⟨predecessor, member, named, (insertDependency_links inserted).2⟩
    · rintro state dependency result other ⟨predecessor, member, named, known⟩ round
      simp only [ok_iff] at round
      obtain ⟨_, _, native, inserted, rfl⟩ := round
      exact ⟨predecessor, member, named, (insertDependency_links inserted).1.kept _ known⟩

theorem linkMembers_links {entries : List (BatchMember × ResolvedJob)}
    (done : entries.foldlM (insertMemberDependencies jobs) store = .ok next) :
    Links store next ∧ ∀ entry ∈ entries, ∀ dependency ∈ entry.1.dependencies,
      ∃ predecessor ∈ jobs, predecessor.member.map Prod.fst = some dependency.job ∧
        ⟨predecessor.id, entry.2.id, dependency.kind⟩ ∈ next.native.dependencies := by
  constructor
  · exact foldlM_invariant (Links store)
      (fun _ _ _ _ held round => held.trans (insertMemberDependencies_links round).1) (.refl store)
      done
  · apply foldlM_establishes (fun entry (state : SubmissionStore) =>
      ∀ dependency ∈ entry.1.dependencies, ∃ predecessor ∈ jobs,
        predecessor.member.map Prod.fst = some dependency.job ∧
          ⟨predecessor.id, entry.2.id, dependency.kind⟩ ∈ state.native.dependencies) _ _ done
    · exact fun state entry result round => (insertMemberDependencies_links round).2
    · intro state entry result other known round dependency listed
      obtain ⟨predecessor, member, named, present⟩ := known dependency listed
      exact ⟨predecessor, member, named, (insertMemberDependencies_links round).1.kept _ present⟩

end Links

section Batch

variable {members : List BatchMember} {jobs : List ResolvedJob} {first : Uuid}

/-- The resolved members, in order and under consecutive identifiers. -/
theorem resolveMembers_eq_ok (done : resolveMembers call first members stdins = .ok jobs) :
    jobs.map (fun job => (job.member, job.spec)) = (Payload.batch members stdins).members ∧
      jobs.map ResolvedJob.id = List.range' first members.length ∧
      ∀ job ∈ jobs, resolveJob call job.id job.spec job.stdin job.member = .ok job := by
  unfold resolveMembers at done
  refine ⟨?_, ?_, ?_⟩
  · apply map_of_mapM _ done
    intro entry _ job resolved
    obtain ⟨_, spelled, _, named, _⟩ := resolveJob_eq_ok resolved
    rw [spelled, named]
  · have numbered : jobs.map ResolvedJob.id =
        members.zipIdx.map fun entry : BatchMember × Nat => first + entry.2 := by
      apply map_of_mapM _ done
      exact fun entry _ job resolved => (resolveJob_eq_ok resolved).1
    calc jobs.map ResolvedJob.id = (members.zipIdx.map Prod.snd).map (first + ·) := by
          rw [numbered, List.map_map]
          rfl
      _ = List.range' first members.length := by
          rw [List.zipIdx_map_snd, List.map_add_range', Nat.add_zero]
  · intro job member
    obtain ⟨entry, _, resolved⟩ := mem_of_mapM done job member
    obtain ⟨identified, spelled, staged, named, _⟩ := resolveJob_eq_ok resolved
    rw [identified, spelled, staged, named]
    exact resolved

/-- Each member was evaluated with its own specification. -/
theorem admissions_of_mapM (resolved : resolveMembers call first members stdins = .ok jobs)
    (done : members.mapM (store.admitMember call scope) = .ok admissions) :
    admissions.length = jobs.length ∧
      ∀ entry ∈ jobs.zip admissions, evaluateManagedPolicy store.storeUuid store.origins
        call.checking scope entry.1.spec call.acceptedMs = .ok entry.2 := by
  have evaluated := forall₂_of_mapM done
  have spelled : jobs.map ResolvedJob.spec = members.map BatchMember.spec := by
    have named := congrArg (List.map Prod.snd) (resolveMembers_eq_ok resolved).1
    simp only [List.map_map, Payload.members] at named
    have zipped :
        members.zipIdx.map (fun entry => entry.1.spec) = members.map BatchMember.spec := by
      rw [← List.zipIdx_map_fst 0 members, List.map_map]
      simp [Function.comp_def]
    exact named.trans zipped
  clear resolved done
  induction evaluated generalizing jobs with
  | nil =>
    simp only [List.map_nil, List.map_eq_nil_iff] at spelled
    simp [spelled]
  | @cons member admission members admissions first others ih =>
    obtain ⟨job, rest, rfl, same, remaining⟩ := List.map_eq_cons_iff.mp spelled
    obtain ⟨counted, each⟩ := ih remaining
    constructor
    · simp [counted]
    · intro entry listed
      cases List.mem_cons.mp listed with
      | inl head =>
        subst head
        simp only [admitMember, mapError_eq_ok] at first
        rw [same]
        exact first
      | inr tail => exact each entry tail

theorem acceptBatch_eq_ok
    (done : store.acceptBatch call id members stdins scope wait = .ok acceptance) :
    Accepts call id (.batch members stdins) scope store acceptance.1 acceptance.2.1 := by
  simp only [acceptBatch, bind_eq_ok, mapError_eq_ok] at done
  obtain ⟨_, _, jobs, resolved, row, found, continued⟩ := done
  obtain ⟨stored, open_⟩ := pendingSubmission_eq_ok found
  split at continued
  next accepted =>
    simp only [ok_iff] at continued
    obtain ⟨existing, recorded, rfl⟩ := continued
    exact .known stored accepted recorded rfl
  next undecided =>
    simp only [ok_iff, mapError_eq_ok] at continued
    obtain ⟨_, parent, admissions, admitted, batches, _, created, inserted, linked, links, _, _,
      rfl⟩ := continued
    obtain ⟨spelled, numbered, each⟩ := resolveMembers_eq_ok resolved
    obtain ⟨counted, evaluated⟩ := admissions_of_mapM resolved admitted
    obtain ⟨appended, drawn⟩ := createJobs_eq_ok inserted
    obtain ⟨joined, complete⟩ := linkMembers_links links
    have zipped : (jobs.zip admissions).map Prod.fst = jobs := List.map_fst_zip counted.ge
    have length : (jobs.zip admissions).length = members.length := by
      have ids := congrArg List.length numbered
      simp only [List.length_map, List.length_range'] at ids
      rw [List.length_zip, counted, min_self, ids]
    have ids : (jobs.zip admissions).map (fun entry => entry.1.id) =
        List.range' (store.native.nextUuid + 1) (jobs.zip admissions).length := by
      rw [length, ← numbered, ← congrArg (List.map ResolvedJob.id) zipped, List.map_map]
      rfl
    have creates : Creates call id (.batch members stdins) scope (.batch store.native.nextUuid)
        (jobs.zip admissions) store (linked.updateSubmission id fun row =>
          Target.record call.daemon.daemonGeneration row (.batch store.native.nextUuid)) :=
      { pending := ⟨row, stored, received_of_open open_ undecided⟩
        parent
        members := by
          rw [← spelled, ← congrArg (List.map fun job => (job.member, job.spec)) zipped,
            List.map_map]
          rfl
        resolved := fun entry listed => each entry.1 (List.of_mem_zip listed).1
        admitted := evaluated
        ids := ⟨store.native.nextUuid + 1, Nat.le_succ _, ids⟩
        named := rfl
        kind := rfl
        storeUuid := by
          rw [updateSubmission, joined.same]
          exact appended.storeUuid
        jobs := by
          rw [updateSubmission, joined.same]
          exact appended.jobs
        origins := by
          rw [updateSubmission, joined.same]
          exact appended.origins
        kept := fun dependency member => joined.kept dependency (by
          rw [appended.dependencies]
          exact member)
        linked := by
          rw [zipped]
          exact complete
        submissions := by
          rw [updateSubmission, joined.same]
          simp [appended.submissions]
        drawn := by
          intro entry listed
          have number : entry.1.id ∈ (jobs.zip admissions).map fun entry => entry.1.id :=
            List.mem_map.mpr ⟨entry, listed, rfl⟩
          rw [ids, List.mem_range'_1] at number
          rw [updateSubmission, joined.same]
          refine number.2.trans_le ?_
          rw [Nat.add_right_comm]
          exact drawn
        nextUuid := by
          rw [updateSubmission, joined.same]
          exact (Nat.lt_of_le_of_lt (Nat.le_add_right _ _) drawn) }
    exact .created creates

end Batch

theorem acceptPayload_eq_ok
    (done : store.acceptPayload call id payload scope wait = .ok acceptance) :
    Accepts call id payload scope store acceptance.1 acceptance.2.1 := by
  cases payload with
  | job spec stdin => exact acceptJob_eq_ok done
  | batch members stdins => exact acceptBatch_eq_ok done

end SubmissionStore

end Stillyard
