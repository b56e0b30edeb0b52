import Stillyard.Lib.Transition
import Stillyard.Native.Reservations
import Stillyard.Store.Commands

/-!
# The order of the pending Jobs

A Job's priority grows by one for every full quantum it waits.  Pending Jobs are
listed by this priority, then by acceptance time, then by row, and a
reservation is ranked by the Job's row in the machine queue instead.

The second part follows the two tables through every transaction that writes
them: the trigger on acceptance, the backfill on opening, the remote owners and
the recovery after a reset.  Equal acceptance times are broken alike by both.
-/

namespace Stillyard

open Relational Fallible Transition

theorem outranks_iff : outranks left right = true ↔
    right.effectivePriority < left.effectivePriority ∨
      right.effectivePriority = left.effectivePriority ∧ (left.acceptedMs < right.acceptedMs ∨
        left.acceptedMs = right.acceptedMs ∧ left.rowid < right.rowid) := by
  simp only [outranks, scheduleOrder, Ordering.isLT_iff_eq_lt, Ordering.then_eq_lt,
    Ordering.then_eq_eq, compare_lt_iff_lt, compare_eq_iff_eq]
  omega

theorem scheduleOrder_ne_gt : scheduleOrder left right ≠ .gt ↔ outranks right left ≠ true := by
  simp only [ne_eq, outranks_iff, scheduleOrder, Ordering.then_eq_gt, Ordering.then_eq_eq,
    compare_gt_iff_gt, compare_eq_iff_eq]
  omega

/-- Six quanta outweigh every difference of the priorities that a Job may ask
for, also where the waiting time or the priority is cut off. -/
theorem outranks_of_aged (low : -3 ≤ priority) (high : other ≤ 3)
    (aged : acceptedMs + 360000 ≤ otherMs) (accepted : otherMs ≤ now) (rowid otherRowid : Int) :
    outranks ⟨effectivePriorityAt priority acceptedMs now, acceptedMs, rowid⟩
      ⟨effectivePriorityAt other otherMs now, otherMs, otherRowid⟩ = true := by
  simp only [outranks_iff, effectivePriorityAt, i64Clamp, priorityAgingQuantumMillis,
    maxEffectivePriority]
  omega

namespace NativeStore

/-- The pending rows with their `rowid`.  No Job is ever deleted, so the rows are
numbered by their places. -/
def pendingRows (store : NativeStore) : List ((Uuid × JobRow) × Nat) :=
  (store.jobs.rows.zipIdx 1).filter fun entry => entry.1.2.state = .pending

/-- The key that ranks a pending row. -/
def pendingKey (now : Int) (entry : (Uuid × JobRow) × Nat) : ScheduleKey :=
  ⟨effectivePriorityAt entry.1.2.spec.priority entry.1.2.acceptedMs now, entry.1.2.acceptedMs,
    entry.2⟩

def pendingJobsAt (store : NativeStore) (now : Int) : List Uuid :=
  (store.pendingRows.insertionSort fun left right =>
    scheduleOrder (pendingKey now left) (pendingKey now right) ≠ .gt).map fun entry => entry.1.1

theorem scheduleKey_of_queued {store : NativeStore} {machine : MachineStore}
    (found : store.jobs.get? job = some row)
    (queued : machine.queue.get? (.native job) = some entry) (now : Int) :
    store.scheduleKey machine.remoteView job now = .ok ⟨effectivePriorityAt row.spec.priority
      entry.acceptedMs now, entry.acceptedMs, entry.sequence⟩ := by
  simp only [scheduleKey, MachineStore.remoteView, found, queued]
  rfl

variable {store : NativeStore} {entry left right : (Uuid × JobRow) × Nat}

theorem job_of_mem_pendingRows (member : entry ∈ store.pendingRows) :
    store.jobs.get? entry.1.1 = some entry.1.2 :=
  Table.mem_rows.mp (List.fst_mem_of_mem_zipIdx (List.mem_filter.mp member).1)

theorem nodup_pendingRows (store : NativeStore) :
    (store.pendingRows.map (Prod.fst ∘ Prod.fst)).Nodup ∧
      (store.pendingRows.map Prod.snd).Nodup := by
  constructor
  · refine List.Nodup.sublist (List.filter_sublist.map _) ?_
    rw [← List.map_map, List.zipIdx_map_fst]
    exact store.jobs.nodup
  · refine List.Nodup.sublist (List.filter_sublist.map _) ?_
    rw [List.zipIdx_map_snd]
    exact List.nodup_range'

/-- What relates each row to the later ones relates rows by their numbers. -/
theorem pairwise_of_rowid (pairwise : store.jobs.rows.Pairwise related)
    (left_ : left ∈ store.pendingRows) (right_ : right ∈ store.pendingRows)
    (lower : left.2 < right.2) : related left.1 right.1 := by
  obtain ⟨_, here⟩ := List.mem_zipIdx_iff_le_and_getElem?_sub.mp (List.mem_filter.mp left_).1
  obtain ⟨_, there⟩ := List.mem_zipIdx_iff_le_and_getElem?_sub.mp (List.mem_filter.mp right_).1
  obtain ⟨inside, here⟩ := List.getElem?_eq_some_iff.mp here
  obtain ⟨other, there⟩ := List.getElem?_eq_some_iff.mp there
  rw [← here, ← there]
  exact List.pairwise_iff_getElem.mp pairwise _ _ inside other (by omega)

theorem mem_pendingRows (found : store.jobs.get? job = some row) (pending : row.state = .pending) :
    ∃ rowid, ((job, row), rowid) ∈ store.pendingRows := by
  have member := Table.mem_rows.mpr found
  rw [← List.zipIdx_map_fst 1 store.jobs.rows] at member
  rcases List.mem_map.mp member with ⟨⟨_, rowid⟩, inside, rfl⟩
  exact ⟨rowid, List.mem_filter.mpr ⟨inside, by simpa using pending⟩⟩

/-- The list is sorted by the keys, strictly because the numbers are distinct. -/
theorem pendingJobsAt_pairwise (store : NativeStore) (now : Int) :
    (store.pendingJobsAt now).Pairwise fun job other => ∃ left ∈ store.pendingRows,
      ∃ right ∈ store.pendingRows, left.1.1 = job ∧ right.1.1 = other ∧
        outranks (pendingKey now left) (pendingKey now right) = true := by
  let before (left right : (Uuid × JobRow) × Nat) : Prop :=
    scheduleOrder (pendingKey now left) (pendingKey now right) ≠ .gt
  have total : Std.Total before := ⟨fun left right => by
    simp only [before, scheduleOrder_ne_gt, ne_eq, outranks_iff]
    omega⟩
  have transitive : IsTrans _ before := ⟨fun first second third => by
    simp only [before, scheduleOrder_ne_gt, ne_eq, outranks_iff]
    omega⟩
  have numbers := ((List.perm_insertionSort before store.pendingRows).map Prod.snd).nodup_iff.mpr
    store.nodup_pendingRows.2
  refine List.pairwise_map.mpr (((List.pairwise_insertionSort before _).and
    (List.pairwise_map.mp numbers)).imp_of_mem ?_)
  intro left right left_ right_ ordered
  rw [List.mem_insertionSort] at left_ right_
  refine ⟨left, left_, right, right_, rfl, rfl, ?_⟩
  simp only [before, scheduleOrder_ne_gt, ne_eq, outranks_iff, pendingKey] at ordered ⊢
  omega

/-- The list holds one pending Job before another exactly if its key is the
smaller one. -/
theorem pendingJobsAt_before_iff (left_ : left ∈ store.pendingRows)
    (right_ : right ∈ store.pendingRows) (now : Int) (distinct : left.1.1 ≠ right.1.1) :
    [left.1.1, right.1.1].Sublist (store.pendingJobsAt now) ↔
      outranks (pendingKey now left) (pendingKey now right) = true := by
  have placed {left right} (left_ : left ∈ store.pendingRows) (right_ : right ∈ store.pendingRows)
      (placed : [left.1.1, right.1.1].Sublist (store.pendingJobsAt now)) :
      outranks (pendingKey now left) (pendingKey now right) = true := by
    obtain ⟨first, first_, second, second_, same, equal, higher⟩ :=
      List.pairwise_iff_forall_sublist.mp (store.pendingJobsAt_pairwise now) placed
    have unique := List.inj_on_of_nodup_map store.nodup_pendingRows.1
    rwa [unique first_ left_ same, unique second_ right_ equal] at higher
  have member {entry} (pending : entry ∈ store.pendingRows) :
      entry.1.1 ∈ store.pendingJobsAt now :=
    List.mem_map_of_mem ((List.mem_insertionSort _).mpr pending)
  refine ⟨placed left_ right_, fun higher => ?_⟩
  let near (job other : Uuid) : Prop := [job, other].Sublist (store.pendingJobsAt now) ∨
    [other, job].Sublist (store.pendingJobsAt now)
  have symmetric : Std.Symm near := ⟨fun _ _ => .symm⟩
  have either : (store.pendingJobsAt now).Pairwise near :=
    List.pairwise_iff_forall_sublist.mpr .inl
  rcases either.forall (member left_) (member right_) distinct with ahead | behind
  · exact ahead
  · have lower := placed right_ left_ behind
    rw [outranks_iff] at higher lower
    omega

end NativeStore

/-- Aging bounds bypass: the order of the keys is strict and total, a Job
outranks for good every Job that is accepted six quanta later, and therefore no
such Job is listed before it. -/
theorem aging_bounds_bypass :
    ((∀ key, outranks key key = false) ∧
      (∀ first second third, outranks first second = true → outranks second third = true →
        outranks first third = true) ∧
      ∀ left right, left.rowid ≠ right.rowid →
        (outranks left right = true ↔ outranks right left = false)) ∧
    (∀ priority other acceptedMs otherMs rowid otherRowid now later : Int,
      -3 ≤ priority → priority ≤ 3 → -3 ≤ other → other ≤ 3 → acceptedMs + 360000 ≤ otherMs →
      otherMs ≤ now → now ≤ later →
      outranks ⟨effectivePriorityAt priority acceptedMs later, acceptedMs, rowid⟩
        ⟨effectivePriorityAt other otherMs later, otherMs, otherRowid⟩ = true) ∧
    ∀ (store : NativeStore) (job other : Uuid) (row otherRow : JobRow) (now : Int),
      store.jobs.get? job = some row → store.jobs.get? other = some otherRow →
      -3 ≤ row.spec.priority → otherRow.spec.priority ≤ 3 → otherRow.acceptedMs ≤ now →
      [other, job].Sublist (store.pendingJobsAt now) →
      otherRow.acceptedMs < row.acceptedMs + 360000 := by
  refine ⟨⟨?_, ?_, ?_⟩, ?_, ?_⟩
  · intro key
    rw [Bool.eq_false_iff, ne_eq, outranks_iff]
    omega
  · intro first second third
    simp only [outranks_iff]
    omega
  · intro left right distinct
    simp only [Bool.eq_false_iff, ne_eq, outranks_iff]
    omega
  · intro priority other acceptedMs otherMs rowid otherRowid now later low _ _ high aged accepted
      passed
    exact outranks_of_aged low high aged (accepted.trans passed) rowid otherRowid
  · intro store job other row otherRow now found otherFound low high accepted placed
    obtain ⟨left, left_, right, right_, rfl, rfl, ahead⟩ :=
      List.pairwise_iff_forall_sublist.mp (store.pendingJobsAt_pairwise now) placed
    obtain rfl := Option.some.inj ((NativeStore.job_of_mem_pendingRows right_).symm.trans found)
    obtain rfl := Option.some.inj ((NativeStore.job_of_mem_pendingRows left_).symm.trans otherFound)
    by_contra late
    have higher := outranks_of_aged low high (not_lt.mp late) accepted right.2 left.2
    rw [outranks_iff] at ahead higher
    simp only [NativeStore.pendingKey] at ahead higher
    omega

/-! ## The machine queue -/

/-- The tables that rank native Jobs. -/
structure RankedStore where
  native : NativeStore
  machine : MachineStore

/-- The backfill of `machine.rs`'s `initialize_schema`.  The rows stand in `rowid`
order, which the stable sort keeps among equal acceptance times. -/
def backfill (jobs : Table Uuid JobRow) (machine : MachineStore) : MachineStore :=
  (jobs.rows.insertionSort fun left right => left.2.acceptedMs ≤ right.2.acceptedMs).foldl
    (fun machine job => machine.enqueueOwner (.native job.1) job.2.acceptedMs none) machine

/-- What `prepare_machine_reset_recovery` does to the queue: the remote owners
are deleted, and those of the recovered Grants enter anew. -/
def recoverQueue (grants : List (EntityId × Int × Int)) (machine : MachineStore) : MachineStore :=
  grants.foldl
    (fun machine grant => machine.enqueueOwner (.remote grant.1) grant.2.1 (some grant.2.2))
    { machine with queue := machine.queue.filter fun owner _ => owner matches .native _ }

/-- The transactions that write `jobs` or `machine_queue`, and every other one. -/
inductive RankedStore.Step (store : RankedStore) : RankedStore → Prop
  /-- `INSERT INTO jobs` with its trigger `machine_native_accepted`. -/
  | accept (inserted : store.native.insertJob job row = .ok accepted)
      (unique : store.machine.queue.get? (.native job) = none) :
      Step store ⟨accepted, store.machine.enqueueOwner (.native job) row.acceptedMs none⟩
  /-- `Command::CandidateUpsert` on the queue. -/
  | upsert (job : EntityId) (now priority : Int) :
      Step store ⟨store.native, store.machine.enqueueOwner (.remote job) now (some priority)⟩
  | reset (grants : List (EntityId × Int × Int)) :
      Step store ⟨store.native, recoverQueue grants store.machine⟩
  /-- `Store::open`. -/
  | reopen : Step store ⟨store.native, backfill store.native.jobs store.machine⟩
  /-- No `UPDATE jobs` writes `accepted_ms`. -/
  | other (change : Uuid → JobRow → JobRow)
      (kept : ∀ job row, (change job row).acceptedMs = row.acceptedMs)
      (jobs : next.native.jobs = store.native.jobs.modify change)
      (queue : next.machine.queue = store.machine.queue)
      (numbers : next.machine.queueSequence = store.machine.queueSequence) : Step store next

/-- A store as it is opened first, on a database without queue rows. -/
def RankedStore.Upgraded (store : RankedStore) : Prop :=
  ∃ machine : MachineStore, machine.queue = .empty ∧
    store.machine = backfill store.native.jobs machine

/-- Every Job of the list has its queue row, and Jobs accepted at one time have
theirs in the order of the list. -/
structure Ranked (rows : List (Uuid × JobRow)) (machine : MachineStore) : Prop where
  queued : ∀ job ∈ rows, ∃ row, machine.queue.get? (.native job.1) = some row ∧
    row.acceptedMs = job.2.acceptedMs
  bound : ∀ job row, machine.queue.get? (.native job) = some row →
    row.sequence ≤ machine.queueSequence
  ordered : rows.Pairwise fun left right => left.2.acceptedMs = right.2.acceptedMs →
    ∀ row other, machine.queue.get? (.native left.1) = some row →
      machine.queue.get? (.native right.1) = some other → row.sequence < other.sequence

/-- The native rows stay, and the sequence does not fall. -/
structure MachineStore.KeepsNative (before after : MachineStore) : Prop where
  rows : ∀ job, after.queue.get? (.native job) = before.queue.get? (.native job)
  later : before.queueSequence ≤ after.queueSequence

theorem MachineStore.KeepsNative.enqueueRemote (keeps : KeepsNative before after) (job : EntityId)
    (acceptedMs : Int) (priority : Option Int) :
    KeepsNative before (after.enqueueOwner (.remote job) acceptedMs priority) := by
  unfold enqueueOwner
  split
  · exact keeps
  · exact ⟨fun job => by simp [keeps.rows], keeps.later.trans (Nat.le_succ _)⟩

theorem recoverQueue_keepsNative (grants : List (EntityId × Int × Int)) (machine : MachineStore) :
    machine.KeepsNative (recoverQueue grants machine) := by
  refine List.foldlRecOn grants _ ⟨fun job => ?_, le_rfl⟩ fun _ keeps _ _ => keeps.enqueueRemote ..
  cases found : machine.queue.get? (.native job) <;> simp [found]

namespace Ranked

variable {rows : List (Uuid × JobRow)} {machine next : MachineStore} {store after : RankedStore}

theorem keeps (ranked : Ranked rows machine) (kept : machine.KeepsNative next) :
    Ranked rows next where
  queued := by simpa only [kept.rows] using ranked.queued
  bound job row found := (ranked.bound job row (kept.rows job ▸ found)).trans kept.later
  ordered := by simpa only [kept.rows] using ranked.ordered

/-- A Job whose owner is new in the queue is ranked last. -/
theorem accept (ranked : Ranked rows machine)
    (unique : machine.queue.get? (.native job) = none) (row : JobRow) :
    Ranked (rows ++ [(job, row)]) (machine.enqueueOwner (.native job) row.acceptedMs none) := by
  have distinct : ∀ entry ∈ rows, entry.1 ≠ job := by
    rintro entry member rfl
    obtain ⟨_, found, _⟩ := ranked.queued entry member
    simp [unique] at found
  simp only [MachineStore.enqueueOwner, Table.get?_eq_none.mp unique, if_false]
  constructor
  · intro entry member
    rcases List.mem_append.mp member with member | member
    · simpa [distinct entry member] using ranked.queued entry member
    · rw [List.mem_singleton.mp member]
      exact ⟨_, by rw [Table.get?_set, if_pos rfl], rfl⟩
  · intro id held found
    rcases Table.get?_set_eq_some.mp found with ⟨_, rfl⟩ | ⟨_, found⟩
    · exact le_rfl
    · exact (ranked.bound id held found).trans (Nat.le_succ _)
  · refine List.pairwise_append.mpr ⟨?_, List.pairwise_singleton .., ?_⟩
    · refine ranked.ordered.imp_of_mem fun left right later => ?_
      simpa [distinct _ left, distinct _ right] using later
    · intro entry member last isLast _ held other found newest
      rw [List.mem_singleton.mp isLast] at newest
      simp only [Table.get?_set, QueueOwner.native.injEq, distinct entry member, if_false,
        if_true, Option.some.injEq] at found newest
      rw [← newest]
      exact Nat.lt_succ_of_le (ranked.bound _ _ found)

theorem backfilled (ranked : Ranked rows machine) (jobs : List (Uuid × JobRow))
    (nodup : (jobs.map Prod.fst).Nodup)
    (unqueued : ∀ job ∈ jobs, machine.queue.get? (.native job.1) = none) :
    Ranked (rows ++ jobs) (jobs.foldl
      (fun machine job => machine.enqueueOwner (.native job.1) job.2.acceptedMs none) machine) := by
  induction jobs generalizing rows machine with
  | nil => simpa using ranked
  | cons job rest ih =>
    have unique := unqueued job List.mem_cons_self
    rw [List.map_cons, List.nodup_cons] at nodup
    have step := ih (ranked.accept unique job.2) nodup.2 fun other member => by
      have distinct : other.1 ≠ job.1 := fun same => nodup.1 (same ▸ List.mem_map_of_mem member)
      simp [MachineStore.enqueueOwner, Table.get?_eq_none.mp unique, distinct,
        unqueued other (List.mem_cons_of_mem _ member)]
    rwa [List.append_assoc] at step

/-- The sort keeps the order of the rows that were accepted at one time. -/
theorem of_upgraded (jobs : Table Uuid JobRow) (empty : machine.queue = .empty) :
    Ranked jobs.rows (backfill jobs machine) := by
  let le (left right : Uuid × JobRow) : Prop := left.2.acceptedMs ≤ right.2.acceptedMs
  have none_ (owner : QueueOwner) : machine.queue.get? owner = none := by simp [empty]
  have start : Ranked [] machine := ⟨by simp, by simp [none_], .nil⟩
  have sorted := start.backfilled (jobs.rows.insertionSort le)
    (((List.perm_insertionSort le _).map _).nodup_iff.mpr jobs.nodup) fun _ _ => none_ _
  refine ⟨fun job member => sorted.queued job ((List.mem_insertionSort le).mpr member),
    sorted.bound, List.pairwise_iff_forall_sublist.mpr ?_⟩
  intro left right inside same
  have kept : [left, right].Sublist (jobs.rows.insertionSort le) :=
    List.pair_sublist_insertionSort (le_of_eq same) inside
  exact List.pairwise_iff_forall_sublist.mp sorted.ordered kept same

/-- Every transaction keeps the ranks. -/
theorem step (ranked : Ranked store.native.jobs.rows store.machine) (moves : store.Step after) :
    Ranked after.native.jobs.rows after.machine := by
  cases moves with
  | accept inserted unique =>
    simp only [NativeStore.insertJob, ok_iff] at inserted
    obtain ⟨jobs, inserted, rfl⟩ := inserted
    rw [NativeStore.announce, (Table.rows_insert? inserted).2]
    exact ranked.accept unique _
  | upsert job now priority =>
    exact ranked.keeps (MachineStore.KeepsNative.enqueueRemote ⟨fun _ => rfl, le_rfl⟩ ..)
  | reset grants => exact ranked.keeps (recoverQueue_keepsNative grants _)
  | reopen =>
    refine ranked.keeps
      (List.foldlRecOn _ _ ⟨fun _ => rfl, le_rfl⟩ fun machine keeps job member => ?_)
    rw [List.mem_insertionSort] at member
    obtain ⟨row, found, -⟩ := ranked.queued job member
    have present := Table.get?_isSome.mp (Option.isSome_of_eq_some ((keeps.rows _).trans found))
    rwa [MachineStore.enqueueOwner, if_pos present]
  | other change kept jobs queue numbers =>
    have same : store.machine.KeepsNative after.machine := ⟨by simp [queue], numbers.ge⟩
    have kept_ := ranked.keeps same
    rw [jobs]
    refine ⟨?_, kept_.bound, List.pairwise_map.mpr (by simpa [kept] using kept_.ordered)⟩
    intro job member
    rcases List.mem_map.mp member with ⟨entry, inside, rfl⟩
    simpa [kept] using kept_.queued entry inside

theorem of_reachable (reached : Reachable RankedStore.Upgraded RankedStore.Step store) :
    Ranked store.native.jobs.rows store.machine := by
  refine @Reachable.invariant _ _ _ _ (fun store => Ranked store.native.jobs.rows store.machine) ?_
    (fun _ _ => .step) reached
  rintro store ⟨machine, empty, upgraded⟩
  exact upgraded ▸ .of_upgraded _ empty

end Ranked

/-- One native order: in every reachable store, also an upgraded one and one
rebuilt after a reset, the list of pending Jobs and the ranks by queue row
agree. -/
theorem pending_order_agrees {store : RankedStore}
    (reached : Reachable RankedStore.Upgraded RankedStore.Step store)
    (found : store.native.jobs.get? job = some row)
    (otherFound : store.native.jobs.get? other = some otherRow) (pending : row.state = .pending)
    (otherPending : otherRow.state = .pending) (distinct : job ≠ other) (now : Int) :
    ∃ key otherKey, store.native.scheduleKey store.machine.remoteView job now = .ok key ∧
      store.native.scheduleKey store.machine.remoteView other now = .ok otherKey ∧
      ([job, other].Sublist (store.native.pendingJobsAt now) ↔ outranks key otherKey = true) := by
  have ranked := Ranked.of_reachable reached
  obtain ⟨rowid, member⟩ := NativeStore.mem_pendingRows found pending
  obtain ⟨otherRowid, otherMember⟩ := NativeStore.mem_pendingRows otherFound otherPending
  obtain ⟨queued, inQueue, accepted⟩ := ranked.queued _ (Table.mem_rows.mpr found)
  obtain ⟨otherQueued, otherInQueue, otherAccepted⟩ :=
    ranked.queued _ (Table.mem_rows.mpr otherFound)
  refine ⟨_, _, NativeStore.scheduleKey_of_queued found inQueue now,
    NativeStore.scheduleKey_of_queued otherFound otherInQueue now, ?_⟩
  have numbers (same : row.acceptedMs = otherRow.acceptedMs) :
      rowid < otherRowid ↔ queued.sequence < otherQueued.sequence := by
    have first (lower : rowid < otherRowid) := NativeStore.pairwise_of_rowid ranked.ordered member
      otherMember lower same _ _ inQueue otherInQueue
    have second (lower : otherRowid < rowid) := NativeStore.pairwise_of_rowid ranked.ordered
      otherMember member lower same.symm _ _ otherInQueue inQueue
    have differ : rowid ≠ otherRowid := fun equal => distinct (congrArg (·.1.1)
      (List.inj_on_of_nodup_map store.native.nodup_pendingRows.2 member otherMember equal))
    omega
  rw [NativeStore.pendingJobsAt_before_iff member otherMember now distinct, outranks_iff,
    outranks_iff, accepted, otherAccepted]
  simp only [NativeStore.pendingKey, Int.ofNat_lt]
  exact or_congr_right (and_congr_right fun _ => or_congr_right (and_congr_right numbers))

deriving instance Inhabited for RetryPolicy, ResourceClaims, JobSpec, JobState, JobRow, MachineStore

/-- An upgraded store with two Jobs that were accepted at one time. -/
def upgradedStore : RankedStore :=
  let native := { NativeStore.initial with jobs := (Table.empty.set 2 default).set 1 default }
  ⟨native, backfill native.jobs default⟩

/-- The same store later: a candidate was queued, a third Job was accepted at that
time, and the queue was rebuilt after a reset. -/
def rebuiltStore : RankedStore :=
  let machine := upgradedStore.machine.enqueueOwner (.remote ⟨1, 2⟩) 5 (some 7)
  ⟨{ upgradedStore.native with jobs := upgradedStore.native.jobs.set 3 default }.announce 1,
    recoverQueue [(⟨1, 2⟩, 5, 7)]
      (machine.enqueueOwner (.native 3) (default : JobRow).acceptedMs none)⟩

theorem pending_order_agrees_upgraded :
    (∃ key otherKey,
      upgradedStore.native.scheduleKey upgradedStore.machine.remoteView 2 0 = .ok key ∧
      upgradedStore.native.scheduleKey upgradedStore.machine.remoteView 1 0 = .ok otherKey ∧
      ([2, 1].Sublist (upgradedStore.native.pendingJobsAt 0) ↔ outranks key otherKey = true)) ∧
    [1, 3].Sublist (rebuiltStore.native.pendingJobsAt 0) ∧
    ∃ key otherKey,
      rebuiltStore.native.scheduleKey rebuiltStore.machine.remoteView 1 0 = .ok key ∧
      rebuiltStore.native.scheduleKey rebuiltStore.machine.remoteView 3 0 = .ok otherKey ∧
      ([1, 3].Sublist (rebuiltStore.native.pendingJobsAt 0) ↔ outranks key otherKey = true) := by
  have upgraded : Reachable RankedStore.Upgraded RankedStore.Step upgradedStore :=
    .start ⟨default, rfl, rfl⟩
  have rebuilt : Reachable RankedStore.Upgraded RankedStore.Step rebuiltStore :=
    .next (.next (.next upgraded (.upsert ⟨1, 2⟩ 5 7)) (.accept rfl rfl)) (.reset [(⟨1, 2⟩, 5, 7)])
  refine ⟨pending_order_agrees upgraded rfl rfl rfl rfl (by decide) 0, by decide +kernel, ?_⟩
  exact pending_order_agrees rebuilt rfl rfl rfl rfl (by decide) 0

end Stillyard
