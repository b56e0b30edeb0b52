import Stillyard.Submission.Runs

/-!
# Submissions are atomic

A submission that was accepted has all its Jobs with all their dependencies, and
one that was not accepted has none.  What was decided stays decided.
-/

namespace Stillyard

open Relational

namespace SubmissionStore

variable (store : SubmissionStore)

/-- The Jobs of a submission, oldest first. -/
def submissionJobs (id : Uuid) : List Uuid :=
  store.origins.select fun job origin => if origin.submissionId = id then some job else none

/-- The Jobs that the receipt of a target names. -/
def named : Target → List Uuid
  | .job id => [id]
  | .batch id => (store.batchJobs id).map Prod.fst

/-- The Job was created for this member of a payload. -/
def JobFor (job : Uuid) (member : Option (String × Nat) × JobSpec) : Prop :=
  ∃ row, store.native.jobs.get? job = some row ∧ row.spec = member.2 ∧
    row.batchMember = member.1.map Prod.fst ∧ row.batchIndex = (member.1.map Prod.snd).getD 0

end SubmissionStore

/-- All members of a payload were created, in order, with all dependencies. -/
structure Payload.Complete (payload : Payload) (store : SubmissionStore) (jobs : List Uuid) :
    Prop where
  members : List.Forall₂ store.JobFor jobs payload.members
  dependencies : match payload with
    | .job .. => True
    | .batch members _ => ∀ entry ∈ members.zip jobs, ∀ dependency ∈ entry.1.dependencies,
        ∃ predecessor ∈ jobs,
          (∃ row, store.native.jobs.get? predecessor = some row ∧
            row.batchMember = some dependency.job) ∧
          ⟨predecessor, entry.2, dependency.kind⟩ ∈ store.native.dependencies

/-- What the row of an accepted submission refers to. -/
def SubmissionRow.Records (row : SubmissionRow) : Target → Prop
  | .job id => row.payload.isBatch = false ∧ row.jobId = some id
  | .batch id => row.payload.isBatch = true ∧ row.batchId = some id

/-- The Jobs of a submission are those that its state promises. -/
structure SubmissionStore.Decided (store : SubmissionStore) (id : Uuid) (row : SubmissionRow) :
    Prop where
  undecided : row.state ≠ .accepted → store.submissionJobs id = []
  complete : row.state = .accepted → row.payload.Complete store (store.submissionJobs id)
  recorded : row.state = .accepted →
    ∃ target, row.Records target ∧ store.named target = store.submissionJobs id
  rejected : row.state = .rejected →
    ∃ code detail, row.rejectCode = some code ∧ row.rejectDetail = some detail

/-- The invariant of the retained submissions. -/
structure SubmissionStore.Sound (store : SubmissionStore) : Prop where
  numbered : ∀ id row, store.submissions.get? id = some row → id < store.native.nextUuid
  batched : ∀ id row batch, store.submissions.get? id = some row → row.batchId = some batch →
    batch < store.native.nextUuid
  owned : ∀ job origin, store.origins.get? job = some origin →
    ∃ row, store.submissions.get? origin.submissionId = some row
  placed : ∀ job origin batch, store.origins.get? job = some origin →
    origin.batchId = some batch → batch < store.native.nextUuid
  stored : ∀ job origin, store.origins.get? job = some origin →
    ∃ row, store.native.jobs.get? job = some row
  unique : ∀ id other row copy, store.submissions.get? id = some row →
    store.submissions.get? other = some copy → copy.scope = row.scope →
    copy.idempotencyKey = row.idempotencyKey → other = id
  decided : ∀ id row, store.submissions.get? id = some row → store.Decided id row

theorem SubmissionStore.sound_initial (storeUuid : Uuid) :
    (SubmissionStore.initial storeUuid).Sound := by
  constructor <;> simp [SubmissionStore.initial]

namespace SubmissionStore

variable {before after : SubmissionStore}
variable {job batch : Uuid} {row : SubmissionRow}

/-- Jobs and dependencies that are kept, with the columns that receipts read. -/
structure KeepsJobs (before after : SubmissionStore) : Prop where
  jobs : ∀ job row, before.native.jobs.get? job = some row →
    ∃ new, after.native.jobs.get? job = some new ∧ new.spec = row.spec ∧
      new.batchMember = row.batchMember ∧ new.batchIndex = row.batchIndex
  dependencies : ∀ dependency ∈ before.native.dependencies,
    dependency ∈ after.native.dependencies

theorem KeepsJobs.of_same (jobs : after.native.jobs = before.native.jobs)
    (dependencies : after.native.dependencies = before.native.dependencies) :
    KeepsJobs before after where
  jobs _ row found := ⟨row, jobs ▸ found, rfl, rfl, rfl⟩
  dependencies _ member := dependencies ▸ member

theorem KeepsJobs.jobFor (kept : KeepsJobs before after) (created : before.JobFor job member) :
    after.JobFor job member := by
  obtain ⟨row, found, spec, name, index⟩ := created
  obtain ⟨new, present, sameSpec, sameName, sameIndex⟩ := kept.jobs job row found
  exact ⟨new, present, sameSpec.trans spec, sameName.trans name, sameIndex.trans index⟩

theorem KeepsJobs.complete (kept : KeepsJobs before after) {payload : Payload} {jobs : List Uuid}
    (complete : payload.Complete before jobs) : payload.Complete after jobs where
  members := complete.members.imp fun _ _ created => kept.jobFor created
  dependencies := by
    have linked := complete.dependencies
    cases payload with
    | job => trivial
    | batch members stdins =>
      intro entry listed dependency asked
      obtain ⟨predecessor, member, ⟨row, found, name⟩, present⟩ :=
        linked entry listed dependency asked
      obtain ⟨new, still, _, sameName, _⟩ := kept.jobs predecessor row found
      exact ⟨predecessor, member, ⟨new, still, sameName.trans name⟩,
        kept.dependencies _ present⟩

/-- The Jobs of other submissions are not affected by new origins. -/
theorem submissionJobs_of_append (appended : after.origins.rows = before.origins.rows ++ added)
    {id : Uuid} (foreign : ∀ entry ∈ added, entry.2.submissionId ≠ id) :
    after.submissionJobs id = before.submissionJobs id := by
  have unaffected : added.filterMap (fun entry =>
      if entry.2.submissionId = id then some entry.1 else none) = [] := by
    rw [List.filterMap_eq_nil_iff]
    intro entry member
    simp [foreign entry member]
  rw [submissionJobs, submissionJobs, Table.select, Table.select, appended,
    List.filterMap_append, unaffected, List.append_nil]

/-- The Jobs of other batches are not affected by new origins. -/
theorem batchJobs_of_append (appended : after.origins.rows = before.origins.rows ++ added)
    (foreign : ∀ entry ∈ added, entry.2.batchId ≠ some batch) (kept : KeepsJobs before after)
    (stored : ∀ job origin, before.origins.get? job = some origin →
      ∃ row, before.native.jobs.get? job = some row) :
    after.batchJobs batch = before.batchJobs batch := by
  have same : before.origins.rows.filterMap (fun entry =>
      after.batchColumns batch entry.1 entry.2) = before.origins.rows.filterMap fun entry =>
        before.batchColumns batch entry.1 entry.2 := by
    apply List.filterMap_congr
    intro entry member
    obtain ⟨row, found⟩ := stored entry.1 entry.2 (Table.mem_rows.mp member)
    obtain ⟨new, present, _, name, index⟩ := kept.jobs entry.1 row found
    simp [batchColumns, found, present, name, index]
  have unaffected :
      added.filterMap (fun entry => after.batchColumns batch entry.1 entry.2) = [] := by
    rw [List.filterMap_eq_nil_iff]
    intro entry member
    simp [batchColumns, foreign entry member]
  rw [batchJobs, batchJobs, Table.select, Table.select, appended, List.filterMap_append,
    unaffected, List.append_nil, same]

/-- A submission that a change does not touch stays decided. -/
theorem Decided.frame {id : Uuid} (decided : before.Decided id row) (kept : KeepsJobs before after)
    (jobs : after.submissionJobs id = before.submissionJobs id)
    (batches : ∀ batch, row.batchId = some batch →
      after.batchJobs batch = before.batchJobs batch) : after.Decided id row where
  undecided open_ := jobs.trans (decided.undecided open_)
  complete accepted := jobs ▸ kept.complete (decided.complete accepted)
  recorded accepted := by
    obtain ⟨target, records, names⟩ := decided.recorded accepted
    refine ⟨target, records, ?_⟩
    rw [jobs, ← names]
    cases target with
    | job => rfl
    | batch id => rw [named, named, batches id records.2]
  rejected := decided.rejected

/-! ## The invariant is kept -/

/-- A change of one row that keeps its identity keeps the invariant. -/
theorem Sound.updateSubmission (sound : before.Sound) {id : Uuid}
    (identity : ∀ row, (change row).scope = row.scope ∧
      (change row).idempotencyKey = row.idempotencyKey ∧ (change row).batchId = row.batchId)
    (decides : ∀ row, before.submissions.get? id = some row → before.Decided id row →
      before.Decided id (change row)) : (before.updateSubmission id change).Sound := by
  have evolves : Table.Evolves (fun other row new => new.scope = row.scope ∧
      new.idempotencyKey = row.idempotencyKey ∧ new.batchId = row.batchId ∧
      (before.Decided other row → before.Decided other new)) before.submissions
      (before.updateSubmission id change).submissions := by
    apply Table.evolves_update
    · exact fun _ _ => ⟨rfl, rfl, rfl, fun decided => decided⟩
    · intro row found
      obtain ⟨scope, key, batch⟩ := identity row
      exact ⟨scope, key, batch, decides row found⟩
  constructor
  · intro other new found
    obtain ⟨row, present, _⟩ := evolves.origin found
    exact sound.numbered other row present
  · intro other new batch found placed
    obtain ⟨row, present, _, _, same, _⟩ := evolves.origin found
    exact sound.batched other row batch present (same ▸ placed)
  · intro job owner found
    obtain ⟨row, present⟩ := sound.owned job owner found
    obtain ⟨new, still, _⟩ := evolves.lookup present
    exact ⟨new, still⟩
  · exact sound.placed
  · exact sound.stored
  · intro first second row copy found other scope key
    obtain ⟨old, present, scopeOld, keyOld, _⟩ := evolves.origin found
    obtain ⟨twin, listed, scopeTwin, keyTwin, _⟩ := evolves.origin other
    exact sound.unique first second old twin present listed
      (scopeTwin.symm.trans (scope.trans scopeOld)) (keyTwin.symm.trans (key.trans keyOld))
  · intro other new found
    obtain ⟨row, present, _, _, _, decided⟩ := evolves.origin found
    exact (decided (sound.decided other row present)).frame (.of_same rfl rfl) rfl fun _ _ => rfl

theorem Sound.noteWait (sound : before.Sound) (id : Uuid) :
    (before.updateSubmission id fun row =>
      if row.state = .received then { row with waitIntent := true } else row).Sound := by
  apply sound.updateSubmission
  · intro row
    split <;> exact ⟨rfl, rfl, rfl⟩
  · intro row found decided
    split
    · exact ⟨decided.undecided, decided.complete, decided.recorded, decided.rejected⟩
    · exact decided

theorem Sound.rejectReceivedWith (sound : before.Sound) (id : Uuid) (code detail : String) :
    (before.rejectReceivedWith id code detail).Sound := by
  apply sound.updateSubmission
  · intro row
    split <;> exact ⟨rfl, rfl, rfl⟩
  · intro row found decided
    split
    next received =>
      constructor
      · exact fun _ => decided.undecided (by simp [received])
      · intro accepted
        cases accepted
      · intro accepted
        cases accepted
      · exact fun _ => ⟨code, detail, rfl, rfl⟩
    next => exact decided

theorem findSubmission_eq_none (absent : before.findSubmission scope idempotencyKey = none)
    {id : Uuid} (found : before.submissions.get? id = some row) (same : row.scope = scope.key) :
    row.idempotencyKey ≠ idempotencyKey := by
  intro key
  have missing := List.find?_eq_none.mp absent (id, row) (Table.mem_rows.mpr found)
  simp [same, key] at missing

theorem Sound.receive (sound : before.Sound) {id : Uuid}
    (absent : before.findSubmission request.scope request.idempotencyKey = none)
    (received : before.receive call request payloadHash = .ok (id, after)) : after.Sound := by
  obtain ⟨rfl, missing, rfl⟩ := receive_eq_ok received
  have grows : before.native.nextUuid < before.native.nextUuid + 1 := Nat.lt_succ_self _
  have origin : ∀ {other : Uuid} {new : SubmissionRow},
      (before.submissions.set before.native.nextUuid
        (SubmissionStore.receivedRow call request payloadHash)).get? other = some new →
      (other = before.native.nextUuid ∧
          new = SubmissionStore.receivedRow call request payloadHash) ∨
        before.submissions.get? other = some new := by
    intro other new found
    rw [Table.get?_set] at found
    split at found
    next same => exact .inl ⟨same, (Option.some.inj found).symm⟩
    next => exact .inr found
  constructor
  · intro other new found
    obtain ⟨rfl, _⟩ | present := origin found
    · exact grows
    · exact (sound.numbered other new present).trans grows
  · intro other new batch found placed
    obtain ⟨_, rfl⟩ | present := origin found
    · cases placed
    · exact (sound.batched other new batch present placed).trans grows
  · intro job owner found
    obtain ⟨row, present⟩ := sound.owned job owner found
    refine ⟨row, ?_⟩
    rw [Table.get?_set, if_neg]
    · exact present
    · intro same
      cases missing.symm.trans (same ▸ present)
  · intro job owner batch found placed
    exact (sound.placed job owner batch found placed).trans grows
  · exact sound.stored
  · intro first second row copy found other scope key
    obtain ⟨rfl, rfl⟩ | present := origin found <;> obtain ⟨rfl, rfl⟩ | listed := origin other
    · rfl
    · exact absurd key (findSubmission_eq_none absent listed scope)
    · exact absurd key.symm (findSubmission_eq_none absent present scope.symm)
    · exact sound.unique first second row copy present listed scope key
  · intro other new found
    obtain ⟨rfl, rfl⟩ | present := origin found
    · constructor
      · intro _
        -- A Job of the new submission would have an owner that is not there yet.
        rw [SubmissionStore.submissionJobs, Table.select, List.filterMap_eq_nil_iff]
        intro entry member
        have different : entry.2.submissionId ≠ before.native.nextUuid := by
          intro same
          obtain ⟨row, owner⟩ := sound.owned entry.1 entry.2 (Table.mem_rows.mp member)
          cases missing.symm.trans (same ▸ owner)
        simp [different]
      · intro accepted
        cases accepted
      · intro accepted
        cases accepted
      · intro rejected
        cases rejected
    · exact (sound.decided other new present).frame (.of_same rfl rfl) rfl fun _ _ => rfl

theorem Sound.work (sound : before.Sound) {native : NativeStore}
    (processes : Table Uuid InvocationProcess) (works : before.native.Works native) :
    ({ before with native, processes } : SubmissionStore).Sound := by
  have kept : KeepsJobs before { before with native, processes } := by
    constructor
    · intro job row found
      obtain ⟨new, present, spec, name, index⟩ := works.jobs.lookup found
      exact ⟨new, present, spec, name, index⟩
    · intro dependency member
      exact works.dependencies ▸ member
  constructor
  · exact fun id row found => (sound.numbered id row found).trans_le works.nextUuid
  · exact fun id row batch found placed =>
      (sound.batched id row batch found placed).trans_le works.nextUuid
  · exact sound.owned
  · exact fun job origin batch found placed =>
      (sound.placed job origin batch found placed).trans_le works.nextUuid
  · intro job origin found
    obtain ⟨row, present⟩ := sound.stored job origin found
    obtain ⟨new, still, _⟩ := kept.jobs job row present
    exact ⟨new, still⟩
  · exact sound.unique
  · intro id row found
    apply (sound.decided id row found).frame kept rfl
    intro batch _
    have appended : before.origins.rows = before.origins.rows ++ [] := (List.append_nil _).symm
    exact @batchJobs_of_append before { before with native, processes } batch [] appended (by simp)
      kept sound.stored

section Accept

variable {id : Uuid} {payload : Payload} {target : Target}

section Creation

variable (creates : Creates call id payload scope target entries before after)

include creates

theorem keepsJobs_of_creates :
    KeepsJobs before after where
  jobs job row found := by
    have extended : before.native.jobs.Extends after.native.jobs := ⟨_, creates.jobs⟩
    exact ⟨row, extended.lookup found, rfl, rfl, rfl⟩
  dependencies := creates.kept

theorem job_of_creates (member : entry ∈ entries) :
    after.native.jobs.get? entry.1.id = some (entry.1.row call.acceptedMs) := by
  rw [← Table.mem_rows, creates.jobs]
  exact List.mem_append_right _ (List.mem_map.mpr ⟨entry, member, rfl⟩)

/-- An origin that is there after an acceptance was there before or belongs to
the submission. -/
theorem origin_of_creates (found : after.origins.get? job = some origin) :
    before.origins.get? job = some origin ∨
      ∃ entry ∈ entries, job = entry.1.id ∧ origin.submissionId = id ∧
        origin.batchId = target.batchId := by
  rw [← Table.mem_rows, creates.origins, List.mem_append, Table.mem_rows, List.mem_map] at found
  obtain earlier | ⟨entry, member, same⟩ := found
  · exact .inl earlier
  · cases same
    exact .inr ⟨entry, member, rfl, rfl, rfl⟩

theorem submissionJobs_of_creates (fresh : before.submissionJobs id = []) :
    after.submissionJobs id = entries.map fun entry => entry.1.id := by
  have created : (entries.map (originEntry id target.batchId scope)).filterMap (fun entry =>
      if entry.2.submissionId = id then some entry.1 else none) =
      entries.map fun entry => entry.1.id := by
    rw [List.filterMap_map, ← List.filterMap_eq_map]
    apply List.filterMap_congr
    intro entry _
    simp [originEntry, ResolvedJob.origin]
  rw [submissionJobs, Table.select] at fresh
  rw [submissionJobs, Table.select, creates.origins, List.filterMap_append, fresh, created,
    List.nil_append]

theorem complete_of_creates :
    payload.Complete after (entries.map fun entry => entry.1.id) where
  members := by
    rw [← creates.members, List.forall₂_map_left_iff, List.forall₂_map_right_iff,
      List.forall₂_same]
    exact fun entry member => ⟨_, job_of_creates creates member, rfl, rfl, rfl⟩
  dependencies := by
    have linked := creates.linked
    cases payload with
    | job => trivial
    | batch members stdins =>
      intro pair listed dependency asked
      have zipped : members.zip (entries.map fun entry => entry.1.id) =
          (members.zip (entries.map Prod.fst)).map
            (Prod.map (fun member => member) ResolvedJob.id) := by
        rw [List.zip_map_right, List.zip_map_right, List.map_map]
        rfl
      rw [zipped, List.mem_map] at listed
      obtain ⟨entry, member, rfl⟩ := listed
      obtain ⟨predecessor, created, name, present⟩ := linked entry member dependency asked
      obtain ⟨first, known, rfl⟩ := List.mem_map.mp created
      exact ⟨first.1.id, List.mem_map.mpr ⟨first, known, rfl⟩,
        ⟨_, job_of_creates creates known, name⟩, present⟩

end Creation

/-- The Jobs of a new batch are read back in the order of the members. -/
theorem batchJobs_of_creates
    (creates : Creates call id payload scope (.batch batch) entries before after)
    (fresh : ∀ job origin, before.origins.get? job = some origin → origin.batchId ≠ some batch) :
    (after.batchJobs batch).map Prod.fst = entries.map fun entry => entry.1.id := by
  have earlier : before.origins.rows.filterMap (fun entry =>
      after.batchColumns batch entry.1 entry.2) = [] := by
    rw [List.filterMap_eq_nil_iff]
    intro entry member
    simp [batchColumns, fresh entry.1 entry.2 (Table.mem_rows.mp member)]
  have created : (entries.map (originEntry id (some batch) scope)).filterMap (fun entry =>
      after.batchColumns batch entry.1 entry.2) = entries.map fun entry =>
        ((entry.1.member.map Prod.snd).getD 0, entry.1.id, entry.1.member.map Prod.fst) := by
    rw [List.filterMap_map, ← List.filterMap_eq_map]
    apply List.filterMap_congr
    intro entry member
    simp [batchColumns, originEntry, ResolvedJob.origin, job_of_creates creates member,
      ResolvedJob.row]
  have ordered : (entries.map fun entry => (entry.1.member.map Prod.snd).getD 0).Pairwise
      (· ≤ ·) := by
    have kind := creates.kind
    have members := congrArg (List.map fun member : Option (String × Nat) × JobSpec =>
      (member.1.map Prod.snd).getD 0) creates.members
    cases payload with
    | job => cases kind
    | batch named stdins =>
      have counted : (entries.map fun entry => (entry.1.member.map Prod.snd).getD 0) =
          named.zipIdx.map Prod.snd := by
        rw [Payload.members, List.map_map, List.map_map] at members
        exact members
      rw [counted, List.zipIdx_map_snd]
      exact List.pairwise_le_range'
  rw [batchJobs, Table.select, creates.origins, List.filterMap_append, earlier, Target.batchId,
    created, List.nil_append, List.Pairwise.insertionSort_eq, List.map_map, List.map_map]
  · rfl
  · exact List.pairwise_map.mpr (List.pairwise_map.mp ordered)

theorem Sound.accept (sound : before.Sound) (found : before.submissions.get? id = some row)
    (creates : Creates call id row.payload scope target entries before after) : after.Sound := by
  have received : row.state = .received := by
    obtain ⟨pending, present, waiting⟩ := creates.pending
    cases found.symm.trans present
    exact waiting
  have evolves : Table.Evolves (fun other old new => new.scope = old.scope ∧
      new.idempotencyKey = old.idempotencyKey ∧
      (other ≠ id ∧ new = old ∨
        other = id ∧ old = row ∧ new = target.record call.daemon.daemonGeneration row))
      before.submissions after.submissions := by
    rw [creates.submissions]
    apply Table.evolves_modify
    intro other old present
    split
    next same =>
      subst same
      cases found.symm.trans present
      cases target <;> exact ⟨rfl, rfl, .inr ⟨rfl, rfl, rfl⟩⟩
    next different => exact ⟨rfl, rfl, .inl ⟨different, rfl⟩⟩
  have numbered : ∀ batch, target.batchId = some batch → batch = before.native.nextUuid := by
    intro batch named
    cases target with
    | job => cases named
    | batch own =>
      cases named
      exact creates.named
  have kept := keepsJobs_of_creates creates
  have grows := creates.nextUuid
  constructor
  · intro other new present
    obtain ⟨old, earlier, _⟩ := evolves.origin present
    exact (sound.numbered other old earlier).trans grows
  · intro other new batch present placed
    obtain ⟨old, earlier, _, _, ⟨_, rfl⟩ | ⟨_, rfl, rfl⟩⟩ := evolves.origin present
    · exact (sound.batched other new batch earlier placed).trans grows
    · cases target with
      | job => exact (sound.batched other old batch earlier placed).trans grows
      | batch own =>
        cases placed
        rw [numbered _ rfl]
        exact grows
  · intro job origin present
    obtain earlier | ⟨_, _, _, own, _⟩ := origin_of_creates creates present
    · obtain ⟨old, stored⟩ := sound.owned job origin earlier
      obtain ⟨new, still, _⟩ := evolves.lookup stored
      exact ⟨new, still⟩
    · obtain ⟨new, still, _⟩ := evolves.lookup found
      exact ⟨new, own ▸ still⟩
  · intro job origin batch present placed
    obtain earlier | ⟨_, _, _, _, same⟩ := origin_of_creates creates present
    · exact (sound.placed job origin batch earlier placed).trans grows
    · rw [numbered batch (same.symm.trans placed)]
      exact grows
  · intro job origin present
    obtain earlier | ⟨entry, member, rfl, _⟩ := origin_of_creates creates present
    · obtain ⟨old, stored⟩ := sound.stored job origin earlier
      obtain ⟨new, still, _⟩ := kept.jobs job old stored
      exact ⟨new, still⟩
    · exact ⟨_, job_of_creates creates member⟩
  · intro first second old copy present other scope key
    obtain ⟨one, stored, scopeOne, keyOne, _⟩ := evolves.origin present
    obtain ⟨twin, listed, scopeTwin, keyTwin, _⟩ := evolves.origin other
    exact sound.unique first second one twin stored listed
      (scopeTwin.symm.trans (scope.trans scopeOne)) (keyTwin.symm.trans (key.trans keyOne))
  · intro other new present
    obtain ⟨old, earlier, _, _, ⟨different, rfl⟩ | ⟨rfl, rfl, rfl⟩⟩ := evolves.origin present
    · have decided := sound.decided other new earlier
      apply decided.frame kept
      · apply submissionJobs_of_append creates.origins
        intro entry member
        obtain ⟨_, _, rfl⟩ := List.mem_map.mp member
        exact fun same => different same.symm
      · intro batch placed
        apply batchJobs_of_append creates.origins _ kept sound.stored
        intro entry member own
        obtain ⟨_, _, rfl⟩ := List.mem_map.mp member
        -- The batch of an earlier submission has a smaller identifier.
        have smaller := sound.batched other new batch earlier placed
        rw [numbered batch own] at smaller
        exact Nat.lt_irrefl _ smaller
    · have fresh := (sound.decided other old earlier).undecided (by simp [received])
      have jobs := submissionJobs_of_creates creates fresh
      have complete := complete_of_creates creates
      cases target with
      | job own =>
        constructor
        · exact fun undecided => absurd rfl undecided
        · exact fun _ => jobs ▸ complete
        · exact fun _ => ⟨.job own, ⟨creates.kind.symm, rfl⟩, (jobs.trans creates.named).symm⟩
        · intro rejected
          cases rejected
      | batch own =>
        have read := batchJobs_of_creates creates fun job origin stored same =>
          Nat.lt_irrefl _ (numbered own rfl ▸ sound.placed job origin own stored same)
        constructor
        · exact fun undecided => absurd rfl undecided
        · exact fun _ => jobs ▸ complete
        · exact fun _ => ⟨.batch own, ⟨creates.kind.symm, rfl⟩, read.trans jobs.symm⟩
        · intro rejected
          cases rejected

end Accept

/-- Every move keeps the invariant. -/
theorem Sound.move (sound : before.Sound) (move : SubmissionMove decides before after) :
    after.Sound := by
  cases move with
  | receive absent received => exact sound.receive absent received
  | noteWait id => exact sound.noteWait id
  | reject id code detail => exact sound.rejectReceivedWith id code detail
  | accept _ found creates => exact sound.accept found creates
  | work _ processes works => exact sound.work processes works

theorem Sound.moves (sound : before.Sound) (moves : SubmissionMoves decides before after) :
    after.Sound := by
  induction moves with
  | refl => exact sound
  | tail _ move ih => exact ih.move move

theorem Reached.sound {store : SubmissionStore} (reached : store.Reached) : store.Sound :=
  reached.invariant sound_initial fun sound move => sound.move move

theorem submissionJobs_of_move (move : SubmissionMove decides before after) {id : Uuid}
    (found : before.submissions.get? id = some row) (decided : row.state ≠ .received) :
    after.submissionJobs id = before.submissionJobs id := by
  cases move with
  | receive absent received =>
    obtain ⟨_, _, rfl⟩ := receive_eq_ok received
    rfl
  | noteWait | reject => rfl
  | accept _ listed creates =>
    obtain ⟨pending, present, waiting⟩ := creates.pending
    apply submissionJobs_of_append creates.origins
    intro entry member own
    obtain ⟨_, _, rfl⟩ := List.mem_map.mp member
    subst own
    cases present.symm.trans found
    exact decided waiting
  | work => rfl

/-- Submissions that were decided stay as they are, and so do their Jobs. -/
def KeepsDecisions (before after : SubmissionStore) : Prop :=
  ∀ id row, before.submissions.get? id = some row → row.state ≠ .received →
    after.submissions.get? id = some row ∧ after.submissionJobs id = before.submissionJobs id

theorem Run.keepsDecisions {store : SubmissionStore} (run : store.Run later) :
    store.KeepsDecisions later := by
  apply run.moves
  · exact fun _ _ _ found _ => ⟨found, rfl⟩
  · intro first second third decides earlier move id row found decided
    obtain ⟨present, jobs⟩ := earlier id row found decided
    obtain ⟨new, still, kept⟩ := move.keeps present
    cases kept.decided decided
    exact ⟨still, (submissionJobs_of_move move present decided).trans jobs⟩

end SubmissionStore

end Stillyard
