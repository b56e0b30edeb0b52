import Stillyard.Attached.Steps
import Stillyard.System.Joint

/-!
# What a reply does to plans and Leases

Between the journal and the tables of the attachment a reply only fills in flags:
plans become armed or released, and granted Leases become released.  `Follows`
says for which reasons.
-/

namespace Stillyard

open Relational Fallible

namespace AttachedStore

/-- A plan keeps what it binds.  It becomes armed for a reason, and no flag is
taken back. -/
structure PlanStep (arms : Candidate → Prop) (old new : PlanRow) : Prop where
  candidate : new.candidate = old.candidate
  attemptId : new.attemptId = old.attemptId
  claims : new.claims = old.claims
  committed : new.committed = old.committed
  releasePending : new.releasePending = old.releasePending
  armed : new.armed = true → old.armed = true ∨ arms old.candidate
  stays : old.armed = true → new.armed = true
  released : old.released = true → new.released = true

/-- A Lease keeps what it holds.  It becomes released if its plan asked for that
and the allocation is covered. -/
structure LeaseStep (covers : AllocationKey → Prop) (plans : Table Uuid PlanRow) (id : Uuid)
    (old new : LeaseRow) : Prop where
  attemptId : new.attemptId = old.attemptId
  claims : new.claims = old.claims
  state : new.state = old.state ∨
    (old.state = .granted ∧ new.state = .released ∧ ∃ plan, plans.get? id = some plan ∧
      plan.releasePending = true ∧ covers plan.candidate.key)

/-- No granted Lease has this identity. -/
def Unheld (store : AttachedStore) (lease : Uuid) : Prop :=
  ∀ row, store.native.leases.get? lease = some row → row.state = .released

/-- Why a plan may become released. -/
def Freed (covers : AllocationKey → Prop) (after : AttachedStore) (lease : Uuid)
    (old : PlanRow) : Prop :=
  old.released = true ∨ old.committed = false ∨ after.Unheld lease ∨
    (covers old.candidate.key ∧ old.releasePending = false)

/-- The tables of the attachment follow a reply. -/
structure Follows (encoding : Encoding) (replied : Request → Reply → Prop) (arms : Candidate → Prop)
    (covers : AllocationKey → Prop) (before after : AttachedStore) : Prop where
  mode : after.mode = before.mode
  still : before.manager.Still after.manager
  run : Relation.ReflTransGen (Manager.Step encoding replied) before.manager after.manager
  plans : Table.Evolves (fun _ => PlanStep arms) before.plans after.plans
  leases : Table.Evolves (LeaseStep covers before.plans) before.native.leases after.native.leases
  freed : ∀ lease old new, before.plans.get? lease = some old → after.plans.get? lease = some new →
    new.released = true → Freed covers after lease old

section Follows

variable {encoding : Encoding} {replied : Request → Reply → Prop} {arms : Candidate → Prop}
  {covers : AllocationKey → Prop} {before middle after : AttachedStore}
variable {key : AllocationKey} {store next : AttachedStore} {affected : Uuid → LeaseRow → Bool}
variable {now : Int} {operation : Uuid} {grant : GrantSnapshot} {row : LocalGrant} {reply : Reply}

theorem PlanStep.refl (plan : PlanRow) : PlanStep arms plan plan :=
  ⟨rfl, rfl, rfl, rfl, rfl, .inl, id, id⟩

theorem PlanStep.trans (earlier : PlanStep arms old between) (later : PlanStep arms between new) :
    PlanStep arms old new where
  candidate := later.candidate.trans earlier.candidate
  attemptId := later.attemptId.trans earlier.attemptId
  claims := later.claims.trans earlier.claims
  committed := later.committed.trans earlier.committed
  releasePending := later.releasePending.trans earlier.releasePending
  armed armed := by
    cases later.armed armed with
    | inl before => exact earlier.armed before
    | inr reason => exact .inr (earlier.candidate ▸ reason)
  stays armed := later.stays (earlier.stays armed)
  released done := later.released (earlier.released done)

theorem LeaseStep.refl (plans : Table Uuid PlanRow) (id : Uuid) (row : LeaseRow) :
    LeaseStep covers plans id row row :=
  ⟨rfl, rfl, .inl rfl⟩

theorem Unheld.mono {covers : AllocationKey → Prop} {plans : Table Uuid PlanRow} {lease : Uuid}
    (unheld : before.Unheld lease)
    (leases : Table.Evolves (LeaseStep covers plans) before.native.leases after.native.leases) :
    after.Unheld lease := by
  intro row found
  obtain ⟨old, foundOld, step⟩ := leases.origin found
  obtain same | ⟨_, released, _⟩ := step.state
  · rw [same]
    exact unheld old foundOld
  · exact released

/-- Only the journal changed. -/
theorem Quiet.follows (quiet : Quiet encoding replied before after) :
    Follows encoding replied arms covers before after where
  mode := quiet.mode
  still := quiet.still
  run := quiet.run
  plans := by
    rw [quiet.plans]
    exact .refl (fun _ => PlanStep.refl) _
  leases := by
    rw [quiet.native]
    exact .refl (LeaseStep.refl _) _
  freed lease old new found foundNew released := by
    rw [quiet.plans, found] at foundNew
    obtain rfl := Option.some.inj foundNew
    exact .inl released

theorem Follows.refl (store : AttachedStore) : Follows encoding replied arms covers store store :=
  (Quiet.refl store).follows

theorem Follows.trans (earlier : Follows encoding replied arms covers before middle)
    (later : Follows encoding replied arms covers middle after) :
    Follows encoding replied arms covers before after where
  mode := later.mode.trans earlier.mode
  still := earlier.still.trans later.still
  run := earlier.run.trans later.run
  plans := Table.Evolves.trans (fun _ _ _ _ first second => first.trans second) earlier.plans
    later.plans
  leases := by
    -- The later reasons name plans of the middle state, which bind the same.
    have told : Table.Evolves (LeaseStep covers before.plans) middle.native.leases
        after.native.leases := by
      apply later.leases.mono
      intro id old new _ step
      refine ⟨step.attemptId, step.claims, ?_⟩
      obtain same | ⟨granted, released, plan, found, pending, covered⟩ := step.state
      · exact .inl same
      · obtain ⟨first, foundFirst, planStep⟩ := earlier.plans.origin found
        exact .inr ⟨granted, released, first, foundFirst, planStep.releasePending ▸ pending,
          planStep.candidate ▸ covered⟩
    apply earlier.leases.trans _ told
    intro id old between new first second
    refine ⟨second.attemptId.trans first.attemptId, second.claims.trans first.claims, ?_⟩
    obtain same | released := second.state
    · rw [same]
      exact first.state
    · obtain same | ⟨_, gone, _⟩ := first.state
      · rw [same] at released
        exact .inr released
      · rw [gone] at released
        exact absurd released.1 (by decide)
  freed lease old new found foundNew released := by
    obtain ⟨between, foundBetween, planStep⟩ := earlier.plans.lookup found
    obtain done | waiting | unheld | uncovered :=
      later.freed lease between new foundBetween foundNew released
    · obtain before | waiting | unheld | uncovered :=
        earlier.freed lease old between found foundBetween done
      · exact .inl before
      · exact .inr (.inl waiting)
      · exact .inr (.inr (.inl (unheld.mono later.leases)))
      · exact .inr (.inr (.inr uncovered))
    · exact .inr (.inl (planStep.committed ▸ waiting))
    · exact .inr (.inr (.inl unheld))
    · rw [planStep.candidate, planStep.releasePending] at uncovered
      exact .inr (.inr (.inr uncovered))

/-- The Leases of an allocation are gone if their release was asked for. -/
def Clears (key : AllocationKey) (before after : AttachedStore) : Prop :=
  ∀ lease plan, before.plans.get? lease = some plan → plan.candidate.key = key →
    plan.releasePending = true → after.Unheld lease

theorem Clears.trans_follows (clears : Clears key before middle)
    (later : Follows encoding replied arms covers middle after) : Clears key before after :=
  fun lease plan found names pending => (clears lease plan found names pending).mono later.leases

theorem Follows.trans_clears (earlier : Follows encoding replied arms covers before middle)
    (clears : Clears key middle after) : Clears key before after := by
  intro lease plan found names pending
  obtain ⟨new, foundNew, step⟩ := earlier.plans.lookup found
  exact clears lease new foundNew (step.candidate ▸ names) (step.releasePending.trans pending)

/-- A loop whose rounds clear their allocations clears all of them. -/
theorem foldlM_clears {α : Type} {round : AttachedStore → α → StoreResult AttachedStore}
    {named : α → AllocationKey} {items : List α}
    (follows : ∀ state item result, item ∈ items → round state item = .ok result →
      Follows encoding replied arms covers state result)
    (done : items.foldlM round before = .ok after) {item : α} (member : item ∈ items)
    (clears : ∀ state result, round state item = .ok result → Clears (named item) state result) :
    Clears (named item) before after := by
  induction items generalizing before with
  | nil => cases member
  | cons first rest hypothesis =>
    rw [List.foldlM_cons] at done
    obtain ⟨middle, rounds, others⟩ := bind_eq_ok.mp done
    have step := follows before first middle List.mem_cons_self rounds
    have tail : ∀ state item result, item ∈ rest → round state item = .ok result →
        Follows encoding replied arms covers state result :=
      fun state item result listed => follows state item result (List.mem_cons_of_mem _ listed)
    cases List.mem_cons.mp member with
    | inl same =>
      subst same
      apply (clears before middle rounds).trans_follows
      refine foldlM_invariant (Follows encoding replied arms covers middle) ?_ (.refl _)
        others
      exact fun state item result listed held one => held.trans (tail state item result listed one)
    | inr listed => exact step.trans_clears (hypothesis tail others listed)

@[simp] theorem updatePlans_native (store : AttachedStore) (affected : Uuid → PlanRow → Bool)
    (change : Uuid → PlanRow → PlanRow) :
    (store.updatePlans affected change).native = store.native :=
  rfl

theorem get?_updatePlans (store : AttachedStore) (affected : Uuid → PlanRow → Bool)
    (change : Uuid → PlanRow → PlanRow) (lease : Uuid) :
    (store.updatePlans affected change).plans.get? lease =
      (store.plans.get? lease).map fun plan =>
        if affected lease plan then change lease plan else plan := by
  simp [updatePlans]

/-- An update of flags of plans. -/
theorem updatePlans_follows {affected : Uuid → PlanRow → Bool} {change : Uuid → PlanRow → PlanRow}
    (step : ∀ lease plan, before.plans.get? lease = some plan → affected lease plan = true →
      PlanStep arms plan (change lease plan))
    (freed : ∀ lease plan, before.plans.get? lease = some plan → affected lease plan = true →
      (change lease plan).released = true → Freed covers before lease plan) :
    Follows encoding replied arms covers before (before.updatePlans affected change) where
  mode := rfl
  still := .refl _
  run := .refl
  plans := by
    apply Table.evolves_modify
    intro lease plan found
    split
    next hit => exact step lease plan found hit
    next => exact PlanStep.refl plan
  leases := .refl (LeaseStep.refl _) _
  freed lease old new found foundNew released := by
    rw [get?_updatePlans, found, Option.map_some, Option.some.injEq] at foundNew
    subst foundNew
    split at released
    next hit => exact freed lease old found hit released
    next => exact .inl released

/-- An `UPDATE leases SET state = 'released'` with its trigger. -/
structure Releases (affected : Uuid → LeaseRow → Bool) (store next : AttachedStore) : Prop where
  bound : ∀ id row, store.native.leases.get? id = some row → row.state = .granted →
    affected id row = true → ∃ plan, store.plans.get? id = some plan
  mode : next.mode = store.mode
  manager : next.manager = store.manager
  plans : ∀ lease, next.plans.get? lease = (store.plans.get? lease).map fun plan =>
    if store.releasing affected lease then { plan with releasePending := true } else plan
  leases : ∀ id, next.native.leases.get? id =
    (store.native.leases.get? id).map (store.releaseRow affected id)

theorem releaseLeases_eq_ok (done : store.releaseLeases affected = .ok next) :
    Releases affected store next := by
  simp only [releaseLeases, ok_iff, List.all_eq_true, Bool.or_eq_true, Bool.not_eq_true'] at done
  obtain ⟨_, bound, rfl⟩ := done
  refine ⟨?_, rfl, rfl, fun lease => ?_, fun id => Table.get?_modify _ _ id⟩
  · intro id row found granted asked
    have listed : id ∈ store.native.leases.keys := Table.get?_isSome.mp (by simp [found])
    cases bound id listed with
    | inl idle => simp [releasing, found, granted, asked] at idle
    | inr present => exact Option.isSome_iff_exists.mp present
  · exact get?_updatePlans store _ _ lease

/-- The plans of an allocation, with their release confirmed. -/
def settled (store : AttachedStore) (key : AllocationKey) : AttachedStore :=
  store.updatePlans (named key) fun _ plan => { plan with released := true }

/-- The plan of this Lease belongs to the allocation, and its release was asked
for. -/
def releasable (store : AttachedStore) (key : AllocationKey) (id : Uuid) : Bool :=
  (store.plans.get? id).any fun plan => plan.candidate.key = key && plan.releasePending

/-- The plans of an allocation become released, and so do their Leases if that was
asked for. -/
structure Settles (key : AllocationKey) (store next : AttachedStore) : Prop where
  mode : next.mode = store.mode
  manager : next.manager = store.manager
  plans : ∀ lease, next.plans.get? lease = (store.plans.get? lease).map fun plan =>
    if named key lease plan then { plan with released := true } else plan
  leases : ∀ id, next.native.leases.get? id = (store.native.leases.get? id).map fun row =>
    if row.state = .granted && store.releasable key id then
      { row with state := .released, releasePending := true }
    else row

theorem settles_of_releases (asked : ∀ id row, affected id row = store.releasable key id)
    (releases : Releases affected (store.settled key) next) : Settles key store next := by
  refine ⟨releases.mode, releases.manager, fun lease => ?_, fun id => ?_⟩
  · rw [releases.plans, settled, get?_updatePlans, Option.map_map]
    cases found : store.plans.get? lease with
    | none => rfl
    | some plan =>
      rw [Option.map_some, Option.map_some, Function.comp_apply]
      split
      next hit =>
        obtain ⟨row, _, hit⟩ := (Option.any_eq_true _ _).mp hit
        simp only [asked, releasable, found, Option.any_some, Bool.and_eq_true] at hit
        obtain ⟨names, pending⟩ := hit.2
        cases plan
        simp_all [named]
      next => rfl
  · rw [releases.leases]
    cases found : store.native.leases.get? id with
    | none => simp [settled, found]
    | some row =>
      rw [settled, updatePlans_native, found, Option.map_some, Option.map_some, releaseRow, asked]
      cases hit : store.releasable key id with
      | false => simp
      | true =>
        obtain ⟨plan, foundPlan, names⟩ := (Option.any_eq_true _ _).mp hit
        rw [Bool.and_eq_true, decide_eq_true_eq] at names
        simp [get?_updatePlans, foundPlan, named, names.1]

theorem Settles.clears (settles : Settles key before after) : Clears key before after := by
  intro lease plan found names pending row lookup
  rw [settles.leases, Option.map_eq_some_iff] at lookup
  obtain ⟨old, _, rfl⟩ := lookup
  have hit : before.releasable key lease = true := by simp [releasable, found, names, pending]
  cases state : old.state <;> simp [state, hit]

theorem Settles.follows (settles : Settles key before after) (covered : covers key) :
    Follows encoding replied arms covers before after := by
  refine ⟨settles.mode, settles.manager ▸ .refl _, settles.manager ▸ .refl, ?_, ?_, ?_⟩
  · intro lease
    rw [settles.plans]
    cases before.plans.get? lease with
    | none => exact .none
    | some plan =>
      rw [Option.map_some]
      split
      · exact .some ⟨rfl, rfl, rfl, rfl, rfl, .inl, id, fun _ => rfl⟩
      · exact .some (PlanStep.refl plan)
  · intro id
    rw [settles.leases]
    cases before.native.leases.get? id with
    | none => exact .none
    | some row =>
      rw [Option.map_some]
      split
      next hit =>
        rw [Bool.and_eq_true, decide_eq_true_eq] at hit
        obtain ⟨plan, found, names⟩ := (Option.any_eq_true _ _).mp hit.2
        rw [Bool.and_eq_true, decide_eq_true_eq] at names
        exact .some ⟨rfl, rfl, .inr ⟨hit.1, rfl, plan, found, names.2, names.1 ▸ covered⟩⟩
      next => exact .some (LeaseStep.refl _ _ row)
  · intro lease old new found foundNew released
    rw [settles.plans, found, Option.map_some, Option.some.injEq] at foundNew
    subst foundNew
    split at released
    next names =>
      have sameKey : old.candidate.key = key := of_decide_eq_true names
      cases pending : old.releasePending with
      | true => exact .inr (.inr (.inl (settles.clears lease old found sameKey pending)))
      | false => exact .inr (.inr (.inr ⟨sameKey ▸ covered, pending⟩))
    next => exact .inl released

theorem settleKey_settles (done : store.settleKey key = .ok next) : Settles key store next := by
  apply settles_of_releases _ (releaseLeases_eq_ok done)
  intro id row
  simp only [confirmed, releasable, get?_updatePlans]
  cases store.plans.get? id with
  | none => rfl
  | some plan => by_cases names : plan.candidate.key = key <;> simp [named, names]

/-- Why a reply arms the plan of a candidate: it is the Armed Grant itself, or it
completes an inventory with a Grant that may run. -/
def Arms (outcome : Outcome) (manager : Manager) (candidate : Candidate) : Prop :=
  (∃ grant, outcome = .grant grant ∧ grant.state = .armed ∧ grant.candidate = candidate) ∨
    (completes outcome = true ∧ ∃ row ∈ manager.grants.values,
      row.grant.candidate.key = candidate.key ∧ row.grant.state.mayRun = true)

/-- Why a reply releases an allocation: it confirms the release, or it completes an
inventory that leaves the local Grant released. -/
def Covers (request : Request) (outcome : Outcome) (manager : Manager) (key : AllocationKey) :
    Prop :=
  (∃ release grantId sequence, request.command = .release release ∧ release.key = key ∧
      outcome = .released grantId sequence) ∨
    (∃ sequence released, outcome = .reconciled sequence released ∧ key ∈ released) ∨
    (completes outcome = true ∧ ∃ row ∈ manager.grants.values, row.grant.candidate.key = key ∧
      row.grant.state = .released)

/-- What one reply may do. -/
abbrev Hears (encoding : Encoding) (replied : Request → Reply → Prop) (request : Request)
    (outcome : Outcome) (manager : Manager) : AttachedStore → AttachedStore → Prop :=
  Follows encoding replied (Arms outcome manager) (Covers request outcome manager)

variable {request : Request} {outcome : Outcome} {manager : Manager}

theorem acceptLocally_follows (done : before.acceptLocally request outcome = .ok after) :
    Hears encoding replied request outcome manager before after := by
  cases outcome with
  | grant grant =>
    simp only [acceptLocally] at done
    split at done
    next armed =>
      simp only [ok_iff] at done
      obtain ⟨_, _, rfl⟩ := done
      apply updatePlans_follows
      · intro lease plan _ hit
        simp only [awaits, test_iff] at hit
        refine ⟨rfl, rfl, rfl, rfl, rfl, fun _ => .inr ?_, fun _ => rfl, id⟩
        exact .inl ⟨grant, rfl, armed, hit.1.1.symm⟩
      · intro lease plan _ _ released
        exact .inl released
    next =>
      obtain rfl := Except.ok.inj done
      exact .refl _
  | released grantId sequence =>
    cases asked : request.command with
    | release release =>
      simp only [acceptLocally, asked] at done
      exact (settleKey_settles done).follows (.inl ⟨release, grantId, sequence, asked, rfl, rfl⟩)
    | _ =>
      simp only [acceptLocally, asked] at done
      cases done
  | reconciled sequence released =>
    refine foldlM_invariant (Hears encoding replied request _ manager before) ?_ (.refl _)
      done
    intro state key result member follows round
    exact follows.trans ((settleKey_settles round).follows
      (.inr (.inl ⟨sequence, released, rfl, member⟩)))
  | _ =>
    obtain rfl := Except.ok.inj done
    exact .refl _

/-- A reply that confirms releases clears their allocations. -/
theorem acceptLocally_clears (encoding : Encoding)
    (done : before.acceptLocally request outcome = .ok after)
    (confirms : (∃ release grantId sequence, request.command = .release release ∧
        release.key = key ∧ outcome = .released grantId sequence) ∨
      ∃ sequence released, outcome = .reconciled sequence released ∧ key ∈ released) :
    Clears key before after := by
  obtain ⟨release, grantId, sequence, asked, rfl, rfl⟩ | ⟨sequence, released, rfl, member⟩ :=
    confirms
  · simp only [acceptLocally, asked] at done
    exact (settleKey_settles done).clears
  · apply @foldlM_clears encoding (fun _ _ => True) (fun _ => False)
      (fun _ => True) _ _ _ _ id _ _ done _ member
    · exact fun state result settled => (settleKey_settles settled).clears
    · exact fun state key result _ settled => (settleKey_settles settled).follows trivial

theorem retireReleased_follows (store : AttachedStore) (key : AllocationKey) :
    Follows encoding replied arms covers store (store.retireReleased key) := by
  apply updatePlans_follows
  · intro lease plan _ _
    exact ⟨rfl, rfl, rfl, rfl, rfl, .inl, id, id⟩
  · intro lease plan _ _ released
    exact .inl released

theorem retireSlot_follows (store : AttachedStore) (key : AllocationKey) :
    Follows encoding replied arms covers store (store.retireSlot key) := by
  apply updatePlans_follows
  · intro lease plan _ _
    exact ⟨rfl, rfl, rfl, rfl, rfl, .inl, id, fun _ => rfl⟩
  · intro lease plan _ hit _
    simp only [Bool.and_eq_true, Bool.not_eq_true'] at hit
    exact .inr (.inl hit.1.2)

theorem acceptInspection_quiet
    (done : before.acceptInspection encoding now operation key grants truncated = .ok after) :
    Quiet encoding replied before after := by
  simp only [acceptInspection, bind_eq_ok] at done
  obtain ⟨_, _, folded⟩ := done
  refine foldlM_invariant (Quiet encoding replied before) ?_ (.refl _) folded
  intro state grant result _ quiet round
  split at round
  next => exact quiet.trans (enqueue_quiet rfl rfl round)
  next =>
    obtain rfl := Except.ok.inj round
    exact quiet

theorem acceptQueued_follows
    (done : before.acceptQueued encoding now operation request outcome = .ok after) :
    Follows encoding replied arms covers before after := by
  cases outcome with
  | inspection grants truncated =>
    simp only [acceptQueued] at done
    split at done
    next => exact (acceptInspection_quiet done).follows
    next =>
      obtain rfl := Except.ok.inj done
      exact .refl _
  | accepted revision =>
    simp only [acceptQueued] at done
    split at done
    next =>
      simp only [acceptCancellation, ok_iff] at done
      obtain ⟨_, _, _, _, rfl⟩ := done
      exact retireSlot_follows before _
    next =>
      obtain rfl := Except.ok.inj done
      exact .refl _
  | released grantId sequence =>
    simp only [acceptQueued] at done
    split at done
    next =>
      obtain rfl := Except.ok.inj done
      exact retireReleased_follows before _
    next =>
      obtain rfl := Except.ok.inj done
      exact .refl _
  | reconciled sequence released =>
    obtain rfl := Except.ok.inj done
    clear done
    induction released generalizing before with
    | nil => exact .refl _
    | cons key rest hypothesis =>
      exact (retireReleased_follows before key).trans hypothesis
  | _ =>
    obtain rfl := Except.ok.inj done
    exact .refl _

theorem synchronizeReleased_eq_ok {pending : Bool}
    (done : before.synchronizeReleased key pending grant = .ok after) :
    ∃ released, Settles key before released ∧
      Follows encoding replied arms covers released after := by
  simp only [synchronizeReleased, ok_iff] at done
  obtain ⟨_, _, _, _, released, releases, rfl⟩ := done
  refine ⟨released, ?_, ?_⟩
  · apply settles_of_releases _ (releaseLeases_eq_ok releases)
    intro id row
    simp only [asked, releasable, get?_updatePlans]
    cases before.plans.get? id with
    | none => rfl
    | some plan => by_cases names : plan.candidate.key = key <;> simp [named, names]
  · apply updatePlans_follows
    · intro lease plan _ _
      exact ⟨rfl, rfl, rfl, rfl, rfl, .inl, id, id⟩
    · intro lease plan _ _ done
      exact .inl done

theorem synchronizeGrant_follows (complete : completes outcome = true)
    (member : row ∈ manager.grants.values) (done : before.synchronizeGrant row.grant = .ok after) :
    Hears encoding replied request outcome manager before after := by
  simp only [synchronizeGrant, ok_iff, decide_eq_true_eq] at done
  obtain ⟨plan, _, _, _, done⟩ := done
  have armed (may : row.grant.state.mayRun = true) :
      Hears encoding replied request outcome manager before (before.updatePlans
        (fun _ plan => plan.candidate.key = row.grant.candidate.key && !plan.armed)
        fun _ plan => { plan with armed := true }) := by
    apply updatePlans_follows
    · intro lease other _ hit
      rw [Bool.and_eq_true, decide_eq_true_eq] at hit
      refine ⟨rfl, rfl, rfl, rfl, rfl, fun _ => .inr ?_, fun _ => rfl, id⟩
      exact .inr ⟨complete, row, member, hit.1.symm, may⟩
    · intro lease other _ _ released
      exact .inl released
  cases state : row.grant.state with
  | armed | uncertain =>
    simp only [state, ok_iff] at done
    obtain ⟨_, _, rfl⟩ := done
    exact armed (by rw [state]; rfl)
  | released =>
    rw [state] at done
    obtain ⟨released, settles, rest⟩ := @synchronizeReleased_eq_ok encoding replied _ _ _ _ _ _ _
      done
    exact (settles.follows (.inr (.inr ⟨complete, row, member, rfl, state⟩))).trans rest
  | offered | expired =>
    rw [state] at done
    obtain rfl := pure_eq_ok.mp done
    exact .refl _

theorem synchronize_follows (complete : completes outcome = true)
    (same : before.manager.grants = manager.grants) (done : before.synchronize = .ok after) :
    Hears encoding replied request outcome manager before after := by
  refine foldlM_invariant (Hears encoding replied request outcome manager before) ?_
    (.refl _) done
  intro state grant result member follows round
  obtain ⟨row, listed, rfl⟩ := List.mem_map.mp (List.mem_filter.mp member).1
  rw [same] at listed
  exact follows.trans (synchronizeGrant_follows complete listed round)

/-- The synchronization clears the allocations whose Grant is released. -/
theorem synchronizeGrant_clears (encoding : Encoding) (released : grant.state = .released)
    (done : before.synchronizeGrant grant = .ok after) :
    Clears grant.candidate.key before after := by
  simp only [synchronizeGrant, bind_eq_ok, released] at done
  obtain ⟨_, _, _, _, done⟩ := done
  obtain ⟨_, settles, rest⟩ :=
    @synchronizeReleased_eq_ok encoding (fun _ _ => True) (fun _ => False)
      (fun _ => True) _ _ _ _ _ done
  exact settles.clears.trans_follows rest

theorem synchronize_clears (encoding : Encoding) (request : Request)
    (member : row ∈ before.manager.grants.values) (released : row.grant.state = .released)
    (complete : completes outcome = true) (done : before.synchronize = .ok after) :
    Clears row.grant.candidate.key before after := by
  have listed : row.grant ∈ (before.manager.grants.values.map LocalGrant.grant).filter
      fun grant => grant.state ≠ .offered := by
    simp only [List.mem_filter, List.mem_map, decide_eq_true_eq]
    refine ⟨⟨row, member, rfl⟩, ?_⟩
    rw [released]
    nofun
  apply @foldlM_clears encoding (fun _ _ => True) (Arms outcome before.manager)
    (Covers request outcome before.manager) _ _ _ _ (fun grant => grant.candidate.key) _ _ done _
    listed
  · exact fun state result one => synchronizeGrant_clears encoding released one
  · intro state grant result present one
    obtain ⟨other, stored, rfl⟩ := List.mem_map.mp (List.mem_filter.mp present).1
    exact synchronizeGrant_follows complete stored one

/-- The answer to the operation that waits for one is applied. -/
theorem accept_applies {journal : Manager} (sent : journal.pending = .ok (some request))
    (done : journal.accept encoding request reply = .ok (result, changed)) : changed = true := by
  have queued := (pending_eq_ok sent).2
  simp only [Manager.accept, queued, ok_iff, Option.some.injEq] at done
  obtain ⟨_, _, _, _, _, _, row, rfl, _, _, _, _, done⟩ := done
  simp only [ok_iff, Prod.mk.injEq] at done
  obtain ⟨_, _, _, _, _, same⟩ := done
  exact same.symm

/-- A reply is applied to the journal first, and the tables follow. -/
structure Accepts (encoding : Encoding) (replied : Request → Reply → Prop) (request : Request)
    (reply : Reply) (store next : AttachedStore) (manager : Manager) (accepted : AttachedStore) :
    Prop where
  journal : store.manager.accept encoding request reply = .ok (manager, true)
  follows : Hears encoding replied request reply.outcome manager { store with manager } accepted
  clears : ∀ key, Covers request reply.outcome manager key →
    Clears key { store with manager } accepted
  next : next = { accepted with mode := LocalMode.hear accepted.mode reply.outcome }

theorem acceptReply_eq_ok (sent : store.manager.pending = .ok (some request))
    (done : store.acceptReply encoding now operation request reply = .ok next) :
    ∃ manager accepted, Accepts encoding replied request reply store next manager accepted := by
  simp only [acceptReply, AttachedStore.accept, ok_iff, mapError_eq_ok] at done
  obtain ⟨accepted, ⟨⟨manager, changed⟩, journal, done⟩, rfl⟩ := done
  obtain rfl := accept_applies sent journal
  simp only [Bool.not_true, Bool.false_eq_true, ↓reduceIte, bind_eq_ok] at done
  obtain ⟨applied, locally, queued, queues, cleaned, cleans, rest⟩ := done
  have follows : Hears encoding replied request reply.outcome manager { store with manager }
      cleaned :=
    ((acceptLocally_follows locally).trans (acceptQueued_follows queues)).trans
      (applyCleanups_quiet cleans).follows
  have later : Follows encoding replied (Arms reply.outcome manager)
      (Covers request reply.outcome manager) applied cleaned :=
    (acceptQueued_follows queues).trans (applyCleanups_quiet cleans).follows
  split at rest
  next complete =>
    obtain ⟨synchronized, synchronizes, same⟩ := bind_eq_ok.mp rest
    obtain rfl := pure_eq_ok.mp same
    have final := @synchronize_follows encoding replied _ _ request _ manager complete
      follows.still.grants synchronizes
    refine ⟨manager, synchronized, journal, follows.trans final, ?_, rfl⟩
    rintro key (released | reconciled | ⟨_, row, member, rfl, released⟩)
    · exact ((acceptLocally_clears encoding locally (.inl released)).trans_follows
        later).trans_follows final
    · exact ((acceptLocally_clears encoding locally (.inr reconciled)).trans_follows
        later).trans_follows final
    · have same : cleaned.manager.grants = manager.grants := follows.still.grants
      exact follows.trans_clears (synchronize_clears encoding request (same ▸ member) released
        complete synchronizes)
  next incomplete =>
    obtain ⟨synchronized, kept, same⟩ := bind_eq_ok.mp rest
    obtain rfl := pure_eq_ok.mp same
    obtain rfl := Except.ok.inj kept
    refine ⟨manager, cleaned, journal, follows, ?_, rfl⟩
    rintro key (released | reconciled | ⟨complete, _⟩)
    · exact (acceptLocally_clears encoding locally (.inl released)).trans_follows later
    · exact (acceptLocally_clears encoding locally (.inr reconciled)).trans_follows later
    · exact absurd complete incomplete

end Follows

end AttachedStore

end Stillyard
