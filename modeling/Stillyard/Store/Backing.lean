import Stillyard.Store.Starts

/-!
# Grants that back an allocation

An allocation that may run on its manager has a row in the coordinator's Grant
table, and the row is armed, uncertain or released.  No transaction takes that
back, and no answer shows a Grant that may run for another allocation.
-/

namespace Stillyard

open Relational Fallible

variable {grant : GrantSnapshot} {grants : Table AllocationKey GrantRow} {row : GrantRow}

/-- The Grant of an allocation was armed. -/
def Backed (grants : Table AllocationKey GrantRow) (key : AllocationKey) : Prop :=
  ∃ row, grants.get? key = some row ∧ row.snapshot.state.held = true

/-- The Grant of an allocation is released. -/
def Gone (grants : Table AllocationKey GrantRow) (key : AllocationKey) : Prop :=
  ∃ row, grants.get? key = some row ∧ row.snapshot.state = .released

/-- An answer shows Grants that may run only for backed allocations, and a Grant by
itself only if it may run.  A reconciliation names released allocations. -/
structure Displayed (grants : Table AllocationKey GrantRow) (outcome : Outcome) : Prop where
  backed : ∀ grant ∈ outcome.shows, grant.state.mayRun = true → Backed grants grant.candidate.key
  runs : ∀ grant, outcome = .grant grant → grant.state.mayRun = true
  gone : ∀ sequence released, outcome = .reconciled sequence released →
    ∀ key ∈ released, Gone grants key

/-- The answers in the history. -/
def Displays (store : MachineStore) : Prop :=
  ∀ sequence operation, store.operations.get? sequence = some operation →
    Displayed store.grants operation.response

section Backed

variable {config : CoordinatorConfig} {sealed : SealedRelease → Prop} {request : Request}
  {recovering authorityClosed : Bool} {now : Int} {store next : MachineStore} {outcome : Outcome}
  {key : AllocationKey}

theorem GrantMove.held (moves : GrantMove request sealed old new) (held : old.state.held = true) :
    new.state.held = true := by
  cases moves with
  | expire _ offered | arm _ offered =>
    rw [offered] at held
    cases held
  | doubt | release => rfl
  | start => exact held

theorem held_of_moves (moves : Relation.ReflTransGen (GrantMove request sealed) old new)
    (held : old.state.held = true) : new.state.held = true := by
  induction moves with
  | refl => exact held
  | tail _ last hypothesis => exact last.held hypothesis

theorem GrantMove.released (moves : GrantMove request sealed old new)
    (released : old.state = .released) : new.state = .released := by
  cases moves with
  | expire _ state | arm _ state | start _ state =>
    rw [state] at released
    cases released
  | doubt _ runs =>
    rw [released] at runs
    cases runs
  | release => rfl

theorem released_of_moves (moves : Relation.ReflTransGen (GrantMove request sealed) old new)
    (released : old.state = .released) : new.state = .released := by
  induction moves with
  | refl => exact released
  | tail _ last hypothesis => exact last.released hypothesis

theorem Gone.evolve (gone : Gone before key)
    (evolves : Table.Evolves (RowMoves request sealed) before after) : Gone after key := by
  obtain ⟨old, found, released⟩ := gone
  obtain ⟨new, foundNew, _, moves⟩ := evolves.lookup found
  exact ⟨new, foundNew, released_of_moves moves released⟩

/-- A pass changes no Grant that was armed. -/
theorem get?_of_passes (found : before.get? key = some row) (held : row.snapshot.state.held = true)
    (passes : Relation.ReflTransGen (GrantsPass config topology domains) before after) :
    after.get? key = some row := by
  induction passes with
  | refl => exact found
  | tail _ last hypothesis =>
    obtain ⟨grant, _, _, prior, _, others, _⟩ := last.changes
    have different : key ≠ grant.candidate.key := by
      intro same
      rw [same] at hypothesis
      obtain ⟨idle, unreleased, _⟩ := prior row hypothesis
      obtain runs | released := GrantState.held_iff.mp held
      · rw [idle] at runs
        cases runs
      · exact unreleased released
    exact (others key different).trans hypothesis

theorem Displayed.mono (displayed : Displayed before outcome)
    (backed : ∀ key, Backed before key → Backed after key)
    (gone : ∀ key, Gone before key → Gone after key) : Displayed after outcome where
  backed grant member runs := backed _ (displayed.backed grant member runs)
  runs := displayed.runs
  gone sequence released same key member :=
    gone key (displayed.gone sequence released same key member)

/-- A Grant that is written over its row is backed. -/
private theorem backed_withGrant (found : store.grants.get? key = some row)
    (named : grant.candidate.key = key) (held : grant.state.held = true) :
    Backed (store.withGrant grant identities).grants grant.candidate.key := by
  refine ⟨{ row with snapshot := grant }, ?_, held⟩
  rw [MachineStore.withGrant, writeGrant, Table.get?_update, if_pos rfl, named, found,
    Option.map_some]

/-- A reconciliation names the allocations that it released. -/
private theorem gone_of_reconcileRecords {records : List ReconcileAllocation}
    (folded : records.foldlM (reconcileRecord request.session now) (store, []) =
      .ok (middle, released)) : ∀ key ∈ released, Gone middle.grants key := by
  refine foldlM_invariant
    (fun state : MachineStore × List AllocationKey => ∀ key ∈ state.2, Gone state.1.grants key)
    ?_ (fun _ member => absurd member List.not_mem_nil) folded
  intro state record after _ held succeeded
  obtain rfl | ⟨release, stored, grant, _, sameKey, applied, rfl⟩ := reconcileRecord_eq_ok succeeded
  · exact held
  · have evolves := (@evolves_of_applyRelease request _ _ _ (fun _ => True) _ _ trivial applied).1
    obtain ⟨row, identities, _, found, releasable, _, _, rfl⟩ := applyRelease_eq_ok applied
    intro key member
    obtain before | last := List.mem_append.mp member
    · exact (held key before).evolve evolves
    · obtain rfl := List.mem_singleton.mp last
      rw [← sameKey]
      refine ⟨{ row with snapshot := row.snapshot.release release now }, ?_, rfl⟩
      have written : (row.snapshot.release release now).candidate.key = release.key :=
        releasable.key
      dsimp only [MachineStore.withRelease, MachineStore.withGrant]
      rw [writeGrant, Table.get?_update, if_pos written.symm, found, Option.map_some]

theorem Displayed.of_grant (backed : Backed grants grant.candidate.key)
    (runs : grant.state.mayRun = true) : Displayed grants (.grant grant) := by
  constructor
  · intro shown member _
    obtain rfl := List.mem_singleton.mp member
    exact backed
  · intro shown same
    obtain rfl := Outcome.grant.inj same
    exact runs
  · exact fun _ _ impossible => (nomatch impossible)

/-- Outcomes that show and name nothing. -/
def silent : Outcome → Bool
  | .grant _ | .inventoryPage .. | .reconciled .. => false
  | _ => true

theorem Displayed.of_silent (quiet : silent outcome = true) : Displayed grants outcome := by
  constructor
  · intro grant member
    cases outcome with
    | grant | inventoryPage => cases quiet
    | _ => cases member
  · intro grant same
    rw [same] at quiet
    cases quiet
  · intro sequence released same
    rw [same] at quiet
    cases quiet

variable (keyed : Keyed store)

include keyed

/-- The answer to a command. -/
theorem Applied.displayed
    (applied : Applied config request recovering authorityClosed now store next outcome) :
    Displayed next.grants outcome := by
  cases applied with
  | armAgain asked owns found sameKey named runs =>
    exact .of_grant ⟨_, sameKey ▸ found, GrantState.held_of_mayRun runs⟩ runs
  | arm asked owns found sameKey | doubt asked owns found sameKey =>
    exact .of_grant (backed_withGrant found sameKey rfl) rfl
  | inspectPage asked read =>
    constructor
    · intro grant member runs
      obtain ⟨row, found, same, _⟩ := mem_inventoryPage keyed read grant member
      exact ⟨row, found, same ▸ GrantState.held_of_mayRun runs⟩
    · intro grant same
      cases same
    · intro sequence released same
      cases same
  | reconcileCommit asked begun complete distinct covers folded =>
    constructor
    · exact fun grant member => nomatch member
    · intro grant same
      cases same
    · intro sequence released same
      obtain ⟨_, rfl⟩ := Outcome.reconciled.inj same
      have gone := gone_of_reconcileRecords folded
      exact gone
  | acknowledge | wait | start | release | upsert | withdraw | withdrawOffer | inspect
  | reconcileBegin | reconcilePage => exact .of_silent rfl

/-- What a transaction keeps of a Grant that was armed. -/
theorem StoreStep.held (found : store.grants.get? key = some row)
    (held : row.snapshot.state.held = true) (step : StoreStep config store commits next) :
    ∃ new, next.grants.get? key = some new ∧ new.snapshot.state.held = true ∧
      (row.snapshot.state = .released → new.snapshot.state = .released) := by
  cases step with
  | commit committed =>
    obtain ⟨new, foundNew, _, moves⟩ := (committed.evolves keyed.grants).lookup found
    exact ⟨new, foundNew, held_of_moves moves held, released_of_moves moves⟩
  | challenge | session => exact ⟨row, found, held, id⟩
  | pass made =>
    have passes := (offerTransaction_eq_ok keyed.grants keyed.candidates made).2
    exact ⟨row, get?_of_passes found held passes, held, id⟩
  | native same => exact ⟨row, (same.grants key).symm.trans found, held, id⟩

theorem StoreStep.backed (backed : Backed store.grants key)
    (step : StoreStep config store commits next) : Backed next.grants key := by
  obtain ⟨row, found, held⟩ := backed
  obtain ⟨new, foundNew, heldNew, _⟩ := step.held keyed found held
  exact ⟨new, foundNew, heldNew⟩

theorem StoreStep.gone (gone : Gone store.grants key) (step : StoreStep config store commits next) :
    Gone next.grants key := by
  obtain ⟨row, found, released⟩ := gone
  have held : row.snapshot.state.held = true := GrantState.held_iff.mpr (.inr released)
  obtain ⟨new, foundNew, _, stays⟩ := step.held keyed found held
  exact ⟨new, foundNew, stays released⟩

theorem StoreStep.displays (displays : Displays store)
    (step : StoreStep config store commits next) : Displays next := by
  have backed : ∀ key, Backed store.grants key → Backed next.grants key :=
    fun _ backed => step.backed keyed backed
  have gone : ∀ key, Gone store.grants key → Gone next.grants key :=
    fun _ gone => step.gone keyed gone
  have kept : ∀ {sequence operation}, store.operations.get? sequence = some operation →
      Displayed next.grants operation.response :=
    fun found => (displays _ _ found).mono backed gone
  cases step with
  | challenge | session => exact fun _ _ found => kept found
  | native same => exact fun _ _ found => kept (same.operations ▸ found)
  | pass made =>
    intro sequence operation found
    rw [(offerTransaction_eq_ok keyed.grants keyed.candidates made).1.operations] at found
    exact kept found
  | commit committed =>
    intro sequence operation found
    obtain ⟨row, applied, _, attempted, agrees⟩ := committed
    rw [agrees.operations, recordOperation, Table.get?_set] at found
    split at found
    · cases found
      cases attempted with
      | refused => exact .of_silent rfl
      | applied base effect =>
        apply (effect.displayed (keyed.agrees base.symm)).mono
        · rintro key ⟨row, found, held⟩
          exact ⟨row, (agrees.grants key).trans found, held⟩
        · rintro key ⟨row, found, released⟩
          exact ⟨row, (agrees.grants key).trans found, released⟩
    · cases attempted with
      | refused base => exact kept (base.operations ▸ found)
      | applied base effect => exact kept (base.operations ▸ effect.operations_origin found)

theorem StoreRun.backed (backed : Backed store.grants key)
    (run : StoreRun config store commits next) : Backed next.grants key := by
  induction run with
  | refl => exact backed
  | step one _ hypothesis => exact hypothesis (one.keyed keyed) (one.backed keyed backed)

theorem StoreRun.gone (gone : Gone store.grants key) (run : StoreRun config store commits next) :
    Gone next.grants key := by
  induction run with
  | refl => exact gone
  | step one _ hypothesis => exact hypothesis (one.keyed keyed) (one.gone keyed gone)

theorem StoreRun.displays (displays : Displays store) (run : StoreRun config store commits next) :
    Displays next := by
  induction run with
  | refl => exact displays
  | step one _ hypothesis => exact hypothesis (one.keyed keyed) (one.displays keyed displays)

end Backed

end Stillyard
