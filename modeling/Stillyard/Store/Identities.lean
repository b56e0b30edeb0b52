import Stillyard.Store.Exchange
import Stillyard.Store.Moves

/-!
# Identities of start rights

`machine_ticket_identities` ties an Invocation to one start right of one
allocation.  Rows are only added, and a saved Grant has a row for each of its
start rights.
-/

namespace Stillyard

open Relational Fallible

variable {store : MachineStore} {key : AllocationKey}
  {identities recorded : Table EntityId TicketIdentity} {tickets : List InvocationIntent}
  {grant : GrantSnapshot}

/-- The row of a start right. -/
def InvocationIntent.identity (key : AllocationKey) (intent : InvocationIntent) : TicketIdentity :=
  ⟨intent.containmentId, key, intent⟩

/-- No two start rights share a Containment. -/
def ContainmentsUnique (identities : Table EntityId TicketIdentity) : Prop :=
  ∀ left right leftRow rightRow, identities.get? left = some leftRow →
    identities.get? right = some rightRow → leftRow.containmentId = rightRow.containmentId →
      left = right

/-- Rows are only added, and for Containments of their own. -/
structure IdentitiesGrow (before after : Table EntityId TicketIdentity) : Prop where
  kept : ∀ invocation identity, before.get? invocation = some identity →
    after.get? invocation = some identity
  unique : ContainmentsUnique before → ContainmentsUnique after

theorem IdentitiesGrow.refl (identities : Table EntityId TicketIdentity) :
    IdentitiesGrow identities identities := ⟨fun _ _ found => found, id⟩

theorem IdentitiesGrow.trans (earlier : IdentitiesGrow first second)
    (later : IdentitiesGrow second third) : IdentitiesGrow first third :=
  ⟨fun _ _ found => later.kept _ _ (earlier.kept _ _ found), later.unique ∘ earlier.unique⟩

/-- Identities are only added, and a Grant whose start rights changed has a row
for each of them. -/
structure Identifies (before after : MachineStore) : Prop where
  grows : IdentitiesGrow before.ticketIdentities after.ticketIdentities
  recorded : ∀ key row, after.grants.get? key = some row →
    (∃ old, before.grants.get? key = some old ∧ row.snapshot.tickets = old.snapshot.tickets) ∨
      ∀ intent ∈ row.snapshot.tickets,
        after.ticketIdentities.get? intent.invocationId = some (intent.identity key)

namespace Identifies

variable {before middle after : MachineStore}

/-- Neither table changed. -/
theorem of_same (grants : ∀ key, after.grants.get? key = before.grants.get? key)
    (identities : after.ticketIdentities = before.ticketIdentities) : Identifies before after := by
  constructor
  · rw [identities]
    exact .refl _
  · intro key row found
    exact .inl ⟨row, (grants key).symm.trans found, rfl⟩

theorem refl (store : MachineStore) : Identifies store store :=
  .of_same (fun _ => rfl) rfl

theorem trans (earlier : Identifies before middle) (later : Identifies middle after) :
    Identifies before after := by
  refine ⟨earlier.grows.trans later.grows, ?_⟩
  intro key row found
  rcases later.recorded key row found with ⟨old, foundOld, same⟩ | listed
  · rcases earlier.recorded key old foundOld with ⟨first, foundFirst, sameFirst⟩ | listed
    · exact .inl ⟨first, foundFirst, same.trans sameFirst⟩
    · apply Or.inr
      intro intent member
      rw [same] at member
      exact later.grows.kept _ _ (listed intent member)
  · exact .inr listed

end Identifies

/-- Every start right has its identity row. -/
def Identified (store : MachineStore) : Prop :=
  ∀ key row intent, store.grants.get? key = some row → intent ∈ row.snapshot.tickets →
    store.ticketIdentities.get? intent.invocationId = some (intent.identity key)

theorem Identified.identifies (identified : Identified store) (identifies : Identifies store next) :
    Identified next := by
  intro key row intent found listed
  rcases identifies.recorded key row found with ⟨old, foundOld, same⟩ | recorded
  · rw [same] at listed
    exact identifies.grows.kept _ _ (identified key old intent foundOld listed)
  · exact recorded intent listed

theorem recordIdentity_eq_ok (done : recordIdentity key identities intent = .ok recorded) :
    IdentitiesGrow identities recorded ∧
      recorded.get? intent.invocationId = some (intent.identity key) := by
  unfold recordIdentity at done
  extract_lets row next at done
  split at done
  · next present =>
    have same : next = recorded := Except.ok.inj done
    rw [← same]
    refine ⟨?_, present⟩
    simp only [next]
    split
    · exact .refl _
    · next fresh =>
      rw [not_or] at fresh
      constructor
      · intro invocation identity found
        have different : invocation ≠ intent.invocationId := by
          rintro rfl
          exact fresh.1 (Table.get?_isSome.mp (by rw [found]; rfl))
        rw [Table.get?_set, if_neg different]
        exact found
      · -- The new row's Containment is in no other row.
        have free : ∀ other identity, identities.get? other = some identity →
            identity.containmentId ≠ intent.containmentId := by
          intro other identity found same
          apply fresh.2
          rw [List.any_eq_true]
          exact ⟨identity, Table.mem_values.mpr ⟨other, found⟩, decide_eq_true same⟩
        intro unique left right leftRow rightRow foundLeft foundRight equal
        rw [Table.get?_set] at foundLeft foundRight
        split at foundLeft
        · next first =>
          split at foundRight
          · next second => exact first.trans second.symm
          · cases foundLeft
            exact absurd equal.symm (free _ _ foundRight)
        · split at foundRight
          · cases foundRight
            exact absurd equal (free _ _ foundLeft)
          · exact unique _ _ _ _ foundLeft foundRight equal
  · cases done

theorem recordIdentities_eq_ok
    (done : tickets.foldlM (recordIdentity key) identities = .ok recorded) :
    IdentitiesGrow identities recorded ∧
      ∀ intent ∈ tickets, recorded.get? intent.invocationId = some (intent.identity key) := by
  induction tickets generalizing identities with
  | nil =>
    rw [List.foldlM_nil, pure_eq_ok] at done
    subst done
    exact ⟨.refl _, fun _ member => (nomatch member)⟩
  | cons intent rest ih =>
    rw [List.foldlM_cons, bind_eq_ok] at done
    rcases done with ⟨middle, first, others⟩
    have one := recordIdentity_eq_ok first
    have remaining := ih others
    refine ⟨one.1.trans remaining.1, ?_⟩
    intro other member
    rcases List.mem_cons.mp member with rfl | later
    · exact remaining.1.kept _ _ one.2
    · exact remaining.2 other later

/-- Start rights that have their identity rows change none. -/
theorem recordIdentities_of_recorded (recorded : ∀ intent ∈ tickets,
      identities.get? intent.invocationId = some (intent.identity key)) :
    tickets.foldlM (recordIdentity key) identities = .ok identities := by
  induction tickets with
  | nil => rfl
  | cons intent rest ih =>
    have present := recorded intent List.mem_cons_self
    have listed : intent.invocationId ∈ identities.keys :=
      Table.get?_isSome.mp (by rw [present]; rfl)
    have same : recordIdentity key identities intent = .ok identities := by
      simp only [recordIdentity, listed, true_or, if_true]
      exact if_pos present
    rw [List.foldlM_cons, same]
    exact ih fun other member => recorded other (List.mem_cons_of_mem _ member)

/-- The identities after saving Grants one after another. -/
def recordGrants (identities : Table EntityId TicketIdentity) (grants : List GrantSnapshot) :
    StoreResult (Table EntityId TicketIdentity) :=
  grants.foldlM
    (fun identities grant => grant.tickets.foldlM (recordIdentity grant.candidate.key) identities)
    identities

theorem recordGrants_singleton (identities : Table EntityId TicketIdentity)
    (grant : GrantSnapshot) :
    recordGrants identities [grant] =
      grant.tickets.foldlM (recordIdentity grant.candidate.key) identities := by
  rw [recordGrants, List.foldlM_cons]
  cases grant.tickets.foldlM (recordIdentity grant.candidate.key) identities <;> rfl

/-- Grants whose start rights the tables know. -/
theorem Identified.recordGrants (identified : Identified store)
    (known : ∀ grant ∈ grants, ∃ row, store.grants.get? grant.candidate.key = some row ∧
      row.snapshot.tickets = grant.tickets) :
    recordGrants store.ticketIdentities grants = .ok store.ticketIdentities := by
  induction grants with
  | nil => rfl
  | cons grant rest ih =>
    rcases known grant List.mem_cons_self with ⟨row, found, same⟩
    have first := recordIdentities_of_recorded (fun intent member =>
      identified grant.candidate.key row intent found (same ▸ member))
    rw [Stillyard.recordGrants, List.foldlM_cons, first]
    exact ih fun other member => known other (List.mem_cons_of_mem _ member)

/-- A saved Grant, whatever else the transaction changes. -/
theorem identifies_writeGrant (grants : next.grants = writeGrant store.grants grant none)
    (keyed : grant.candidate.key = key)
    (recorded : grant.tickets.foldlM (recordIdentity key) store.ticketIdentities =
      .ok next.ticketIdentities) : Identifies store next := by
  have rows := recordIdentities_eq_ok recorded
  refine ⟨rows.1, ?_⟩
  intro other row found
  rw [grants] at found
  rcases Table.get?_update_eq_some.mp found with ⟨rfl, _, _, rfl⟩ | ⟨_, found⟩
  · rw [keyed]
    exact .inr rows.2
  · exact .inl ⟨row, found, rfl⟩

theorem saveGrant_identifies (saved : saveGrant store grant none = .ok next) :
    Identifies store next := by
  rcases saveGrant_eq_ok saved with ⟨identities, recorded, rfl⟩
  exact identifies_writeGrant rfl rfl recorded

section Commands

variable {store : MachineStore}

theorem applyRelease_identifies
    (succeeded : applyRelease session now store release = .ok (next, grant)) :
    Identifies store next := by
  rcases applyRelease_eq_ok succeeded with ⟨row, identities, _, _, releasable, recorded, _, rfl⟩
  exact identifies_writeGrant rfl releasable.key recorded

theorem reconcileRecords_identifies {records : List ReconcileAllocation}
    (folded : records.foldlM (reconcileRecord session now) (store, []) =
      .ok (middle, released)) : Identifies store middle := by
  refine foldlM_invariant
    (fun state : MachineStore × List AllocationKey => Identifies store state.1) ?_
    (Identifies.refl store) folded
  intro state record after _ held succeeded
  rcases reconcileRecord_eq_ok succeeded with rfl | ⟨_, _, _, _, _, applied, rfl⟩
  · exact held
  · exact held.trans (applyRelease_identifies applied)

theorem Applied.identifies
    (applied : Applied config request recovering authorityClosed now store next outcome) :
    Identifies store next := by
  cases applied with
  | acknowledge | wait | armAgain | withdraw | inspectPage | inspect | reconcileBegin
  | reconcilePage => exact .of_same (fun _ => rfl) rfl
  | upsert asked queue upserted =>
    rcases queue with rfl | rfl
    · exact .of_same (fun _ => rfl) rfl
    · unfold MachineStore.enqueueOwner
      split <;> exact .of_same (fun _ => rfl) rfl
  | start _ _ _ keyed _ _ _ _ recorded | arm _ _ _ keyed _ _ _ _ recorded =>
    exact identifies_writeGrant rfl keyed recorded
  | doubt _ _ _ keyed _ _ recorded => exact identifies_writeGrant rfl keyed recorded
  | release _ _ _ releasable recorded => exact identifies_writeGrant rfl releasable.key recorded
  | withdrawOffer _ _ _ _ _ _ recorded => exact identifies_writeGrant rfl rfl recorded
  | reconcileCommit _ _ _ _ _ folded =>
    have folds := reconcileRecords_identifies folded
    exact ⟨folds.grows, folds.recorded⟩

end Commands

/-- An intent that SQL has changes nothing; any other is restored Grant by Grant. -/
theorem restoreIntent_eq_ok :
    restoreIntent store intent = .ok (some next) ↔ inconsistentIntent store intent = false ∧
      (∀ grant ∈ intent.grants, grant.candidate.key ∈ store.grants.keys) ∧
      ((∃ operation, store.operations.get?
            (intent.request.session.domainId, intent.request.requestSequence) = some operation ∧
          intent.grants.mapM (fun grant => loadGrant store grant.candidate.key) =
            .ok intent.grants ∧ store = next) ∨
        store.operations.get?
            (intent.request.session.domainId, intent.request.requestSequence) = none ∧
          ∃ restored, intent.grants.foldlM restoreGrant store = .ok restored ∧
            recordOperation (restoreHistory restored intent) intent.request intent.outcome =
              next) := by
  have present : (∀ grant ∈ intent.grants, grant.candidate.key ∈ store.grants.keys) ↔
      (intent.grants.any fun grant => grant.candidate.key ∉ store.grants.keys) = false := by simp
  rw [present]
  unfold restoreIntent
  dsimp only
  cases inconsistentIntent store intent with
  | true => simp [pure_eq_ok]
  | false =>
    cases intent.grants.any fun grant => grant.candidate.key ∉ store.grants.keys with
    | true => simp [pure_eq_ok]
    | false =>
      cases store.operations.get?
          (intent.request.session.domainId, intent.request.requestSequence) with
      | none => simp [ok_iff, -bind_pure_comp]
      | some operation =>
        simp only [ok_iff, Bool.false_eq_true, if_false]
        grind

theorem restoreIntent_identifies (succeeded : restoreIntent store intent = .ok (some next)) :
    Identifies store next := by
  rcases (restoreIntent_eq_ok.mp succeeded).2.2 with
    ⟨_, _, _, rfl⟩ | ⟨_, restored, folded, rfl⟩
  · exact .refl _
  · have folds : Identifies store restored := by
      refine foldlM_invariant (Identifies store) ?_ (Identifies.refl store) folded
      intro state grant after _ held round
      simp only [restoreGrant, bind_eq_ok] at round
      rcases round with ⟨saved, succeeded, rest⟩
      have one := held.trans (saveGrant_identifies succeeded)
      split at rest <;> (cases rest; exact ⟨one.grows, one.recorded⟩)
    have history : Identifies restored (restoreHistory restored intent) := by
      unfold restoreHistory
      split <;> exact .of_same (fun _ => rfl) rfl
    have whole := folds.trans history
    exact ⟨whole.grows, whole.recorded⟩

end Stillyard
