import Stillyard.Lib.Transition
import Stillyard.Store.Applied

/-!
# How Grants move

A Grant is offered, armed, doubted, given tickets and released, or it expires.
`GrantMove` is one such move, with the request that asked for it.  A command
takes every Grant along moves of its own request, and never changes the physical
claims of a Grant.
-/

namespace Stillyard

open Relational Fallible

/-- One change of a Grant that a request makes.  `sealed` are the seals that the
request carries. -/
inductive GrantMove (request : Request) (sealed : SealedRelease → Prop) :
    GrantSnapshot → GrantSnapshot → Prop where
  | expire {old : GrantSnapshot}
      (owns : request.session.owns old.candidate.key = true) (offered : old.state = .offered)
      (asked : request.command = .withdraw old.candidate.key revision ∨
        request.command = .cancelCandidate old.candidate.key revision) :
      GrantMove request sealed old old.expire
  | arm {old : GrantSnapshot}
      (owns : request.session.owns old.candidate.key = true) (offered : old.state = .offered)
      (asked : request.command = .arm old.candidate.key old.offerNonce) :
      GrantMove request sealed old (old.arm now)
  | doubt {old : GrantSnapshot}
      (owns : request.session.owns old.candidate.key = true) (armed : old.state.mayRun = true)
      (asked : request.command = .reportUncertain old.candidate.key old.offerNonce reason) :
      GrantMove request sealed old (old.doubt reason)
  | start {old : GrantSnapshot}
      (owns : request.session.owns old.candidate.key = true) (armed : old.state = .armed)
      (asked : request.command = .authorizeInvocation old.candidate.key old.offerNonce intent)
      (valid : validateNext old intent = .ok ()) : GrantMove request sealed old (old.start intent)
  | release {old : GrantSnapshot}
      (owns : request.session.owns old.candidate.key = true) (carried : sealed release)
      (releasable : Releasable old release) : GrantMove request sealed old (old.release release now)

variable {key : AllocationKey} {row : GrantRow} {old new : GrantSnapshot}

/-- Moves of one request, on the rows of `machine_grants`. -/
def RowMoves (request : Request) (sealed : SealedRelease → Prop) (_ : AllocationKey)
    (old new : GrantRow) : Prop :=
  new.physical = old.physical ∧
    Relation.ReflTransGen (GrantMove request sealed) old.snapshot new.snapshot

section RowMoves

variable {request : Request} {sealed : SealedRelease → Prop}

theorem RowMoves.refl (key : AllocationKey) (row : GrantRow) :
    RowMoves request sealed key row row := ⟨rfl, .refl⟩

theorem RowMoves.single (moves : GrantMove request sealed row.snapshot snapshot) :
    RowMoves request sealed key row { row with snapshot } :=
  ⟨rfl, .single moves⟩

theorem RowMoves.trans (key : AllocationKey) (first second third : GrantRow)
    (earlier : RowMoves request sealed key first second)
    (later : RowMoves request sealed key second third) : RowMoves request sealed key first third :=
  ⟨later.1.trans earlier.1, earlier.2.trans later.2⟩

/-- Every Grant is stored under its own key. -/
def GrantsKeyed (grants : Table AllocationKey GrantRow) : Prop :=
  ∀ key row, grants.get? key = some row → row.snapshot.candidate.key = key

/-- What no move changes. -/
structure SameGrant (old new : GrantSnapshot) : Prop where
  grantId : new.grantId = old.grantId
  candidate : new.candidate = old.candidate
  offerNonce : new.offerNonce = old.offerNonce

theorem GrantMove.sameGrant (moves : GrantMove request sealed old new) : SameGrant old new := by
  cases moves <;> exact ⟨rfl, rfl, rfl⟩

theorem SameGrant.trans (earlier : SameGrant old middle) (later : SameGrant middle new) :
    SameGrant old new :=
  ⟨later.grantId.trans earlier.grantId, later.candidate.trans earlier.candidate,
    later.offerNonce.trans earlier.offerNonce⟩

theorem RowMoves.sameGrant {old new : GrantRow} (moves : RowMoves request sealed key old new) :
    SameGrant old.snapshot new.snapshot :=
  Transition.run_relates (fun _ => ⟨rfl, rfl, rfl⟩)
    (fun earlier last => earlier.trans last.sameGrant) moves.2

theorem GrantsKeyed.evolve {before after : Table AllocationKey GrantRow}
    (keyed : GrantsKeyed before) (evolves : Table.Evolves (RowMoves request sealed) before after) :
    GrantsKeyed after := by
  intro key row found
  rcases evolves.origin found with ⟨old, foundOld, moves⟩
  rw [moves.sameGrant.candidate]
  exact keyed key old foundOld

/-- Saving a moved Grant moves its row. -/
theorem evolves_writeGrant (found : grants.get? row.snapshot.candidate.key = some row)
    (moves : GrantMove request sealed row.snapshot snapshot) :
    Table.Evolves (RowMoves request sealed) grants (writeGrant grants snapshot none) := by
  have same : snapshot.candidate.key = row.snapshot.candidate.key := by
    rw [moves.sameGrant.candidate]
  unfold writeGrant
  rw [same]
  apply Table.evolves_update RowMoves.refl
  intro old foundOld
  rw [found] at foundOld
  cases foundOld
  exact RowMoves.single moves

end RowMoves

/-! ## Seals that a request carries -/

/-- The seals inside a reconciliation. -/
def ReconcileRow.Carries (row : ReconcileRow) (release : SealedRelease) : Prop :=
  ∃ allocations, some allocations ∈ row.pages ∧
    ∃ record ∈ allocations, record.sealedRelease = some release

/-- The seals that a request can apply: its own, or those of the reconciliation
that it commits. -/
def Carried (request : Request) (store : MachineStore) (release : SealedRelease) : Prop :=
  request.command = .release release ∨
    ∃ snapshotId row, request.command = .reconcileCommit snapshotId ∧
      store.reconciles.get? request.session.domainId = some row ∧ row.Carries release

private theorem mem_of_mapM_id {pages : List (Option (List ReconcileAllocation))}
    (collected : pages.mapM id = some complete) : pages = complete.map some := by
  induction pages generalizing complete with
  | nil =>
    simp only [List.mapM_nil, Option.pure_def, Option.some.injEq] at collected
    simp [← collected]
  | cons page rest ih =>
    simp only [List.mapM_cons, id_eq, Option.bind_eq_bind, Option.pure_def,
      Option.bind_eq_some_iff, Option.some.injEq] at collected
    rcases collected with ⟨first, rfl, others, remaining, rfl⟩
    rw [List.map_cons, ih remaining]

section Commands

variable {request : Request} {now : Int} {store : MachineStore}

/-- One record either leaves the tables alone or releases its own allocation. -/
theorem reconcileRecord_eq_ok (succeeded : reconcileRecord session now state record = .ok after) :
    after = state ∨
      ∃ release store grant, record.sealedRelease = some release ∧ release.key = record.key ∧
        applyRelease session now state.1 release = .ok (store, grant) ∧
        after = (store, state.2 ++ [record.key]) := by
  unfold reconcileRecord at succeeded
  split at succeeded
  · simp only [ok_iff] at succeeded
    rcases succeeded with ⟨_, _, same⟩
    exact .inl same.symm
  · simp only [bind_eq_ok] at succeeded
    rcases succeeded with ⟨grant, _, _, _, succeeded⟩
    split at succeeded
    · rw [pure_eq_ok] at succeeded
      exact .inl succeeded.symm
    · next release sealed =>
      simp only [ok_iff, Prod.exists, test_iff] at succeeded
      rcases succeeded with ⟨_, ⟨sameKey, _⟩, store, released, applied, same⟩
      exact .inr ⟨release, store, released, sealed, sameKey, applied, same.symm⟩

/-- A release moves its Grant and touches no other table than the Grant's, the
ticket identities and the candidates. -/
theorem evolves_of_applyRelease {sealed : SealedRelease → Prop} {release : SealedRelease}
    {grant : GrantSnapshot} (carried : sealed release)
    (succeeded : applyRelease request.session now store release = .ok (next, grant)) :
    Table.Evolves (RowMoves request sealed) store.grants next.grants ∧
      next = { store with
        grants := next.grants
        ticketIdentities := next.ticketIdentities
        candidates := next.candidates } := by
  rcases applyRelease_eq_ok succeeded with
    ⟨row, identities, owns, found, releasable, _, _, rfl⟩
  rw [← releasable.key] at owns found
  exact ⟨evolves_writeGrant found (.release owns carried releasable), rfl⟩

/-- The loop of a committed reconciliation moves Grants by the seals of its
records. -/
theorem evolves_of_reconcileRecords (request : Request) (sealed : SealedRelease → Prop)
    {records : List ReconcileAllocation}
    (carried : ∀ record ∈ records, ∀ release, record.sealedRelease = some release →
      sealed release) (folded : records.foldlM (reconcileRecord request.session now) (store, []) =
      .ok (middle, released)) :
    Table.Evolves (RowMoves request sealed) store.grants middle.grants ∧
      middle = { store with
        grants := middle.grants
        ticketIdentities := middle.ticketIdentities
        candidates := middle.candidates } := by
  refine foldlM_invariant
    (fun state : MachineStore × List AllocationKey =>
      Table.Evolves (RowMoves request sealed) store.grants state.1.grants ∧
        state.1 = { store with
          grants := state.1.grants
          ticketIdentities := state.1.ticketIdentities
          candidates := state.1.candidates })
    ?_ ⟨Table.Evolves.refl RowMoves.refl _, rfl⟩ folded
  intro state record after member held succeeded
  rcases held with ⟨evolves, frame⟩
  rcases reconcileRecord_eq_ok succeeded with rfl | ⟨release, stored, grant, sealedBy, _,
    applied, rfl⟩
  · exact ⟨evolves, frame⟩
  · have step := evolves_of_applyRelease (carried record member release sealedBy) applied
    refine ⟨evolves.trans RowMoves.trans step.1, ?_⟩
    dsimp only
    rw [step.2, frame]

/-- A command takes every Grant along moves of its request. -/
theorem Applied.evolves (keyed : GrantsKeyed store.grants)
    (applied : Applied config request recovering authorityClosed now store next outcome) :
    Table.Evolves (RowMoves request (Carried request store)) store.grants next.grants := by
  have still : Table.Evolves (RowMoves request (Carried request store)) store.grants
      store.grants := Table.Evolves.refl RowMoves.refl _
  cases applied with
  | acknowledge | wait | armAgain | inspectPage | inspect | reconcileBegin | reconcilePage =>
    exact still
  | upsert asked queue upserted =>
    rcases queue with rfl | rfl
    · exact still
    · unfold MachineStore.enqueueOwner
      split <;> exact still
  | withdraw => exact still
  | start asked owns found sameKey open_ armed named valid =>
    subst sameKey
    subst named
    exact evolves_writeGrant found (.start owns armed asked valid)
  | arm asked owns found sameKey named open_ offered =>
    subst sameKey
    subst named
    exact evolves_writeGrant found (.arm owns offered asked)
  | doubt asked owns found sameKey named armed =>
    subst sameKey
    subst named
    exact evolves_writeGrant found (.doubt owns armed asked)
  | release asked owns found releasable =>
    rw [← releasable.key] at owns found
    exact evolves_writeGrant found (.release owns (.inl asked) releasable)
  | withdrawOffer asked owns found newer granted offered =>
    have sameKey := keyed _ _ granted
    subst sameKey
    exact evolves_writeGrant granted
      (.expire owns offered (asked.imp And.left And.left))
  | reconcileCommit asked begun complete distinct covers folded =>
    refine (evolves_of_reconcileRecords request _ ?_ folded).1
    intro record member release sealed
    rw [List.mem_insertionSort, List.mem_flatten] at member
    rcases member with ⟨allocations, listed, member⟩
    refine .inr ⟨_, _, asked, begun, allocations, ?_, record, member, sealed⟩
    rw [mem_of_mapM_id complete]
    exact List.mem_map_of_mem listed

end Commands

end Stillyard
