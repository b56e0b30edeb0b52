import Stillyard.Store.History

/-!
# Tickets, seals and releases

An unused Grant has no tickets, a ticket stays with the Grant that it was issued
for, and a Grant is released only by a seal with one proof for each of its
tickets.  `sealed` are the seals that managers made; every request carries only
such seals.
-/

namespace Stillyard

open Relational Fallible

variable {grant : GrantSnapshot} {release : SealedRelease} {ticket : InvocationTicket}

/-! ## Proofs in a seal -/

/-- Exactly one proof of the seal belongs to each start right. -/
def Proves (release : SealedRelease) (tickets : List InvocationIntent) : Prop :=
  ∀ intent ∈ tickets, ∃ proof,
    (release.tickets.filter fun other => other.invocationId = intent.invocationId) = [proof] ∧
      proof.releaseSequence = intent.releaseSequence ∧
      proof.boundarySha256 = intent.boundarySha256

private theorem filter_eq_singleton {α β : Type} [DecidableEq β] {items : List α} {name : α → β}
    (distinct : (items.map name).Nodup) {item : α} (member : item ∈ items) :
    (items.filter fun other => name other = name item) = [item] := by
  induction items with
  | nil => cases member
  | cons first rest ih =>
    simp only [List.map_cons, List.nodup_cons, List.mem_map, not_exists, not_and] at distinct
    rcases List.mem_cons.mp member with rfl | later
    · rw [List.filter_cons_of_pos (by simp), List.filter_eq_nil_iff.mpr]
      intro other present
      rw [decide_eq_true_eq]
      exact distinct.1 other present
    · have different : name first ≠ name item := fun same => distinct.1 item later same.symm
      rw [List.filter_cons_of_neg (by simpa using different)]
      exact ih distinct.2 later

/-- What the loop of `apply_release` checks. -/
private theorem coverTickets {tickets : List InvocationIntent} {covered proofs : List EntityId}
    (done : tickets.foldlM (coverTicket grant release) covered = .ok proofs) :
    (tickets.map InvocationIntent.invocationId).Nodup ∧
      (∀ intent ∈ tickets, intent.invocationId ∉ covered) ∧
      ∀ intent ∈ tickets, ∃ proof ∈ release.tickets,
        proof.invocationId = intent.invocationId ∧
          proof.releaseSequence = intent.releaseSequence ∧
          proof.boundarySha256 = intent.boundarySha256 := by
  induction tickets generalizing covered with
  | nil =>
    exact ⟨List.nodup_nil, fun _ member => (nomatch member),
      fun _ member => (nomatch member)⟩
  | cons first rest ih =>
    simp only [List.foldlM_cons, ok_iff, coverTicket, test_iff] at done
    rcases done with ⟨_, ⟨proof, found, _, ⟨⟨⟨fresh, boundary⟩, _⟩, _⟩, rfl⟩, others⟩
    rcases ih others with ⟨distinct, uncovered, proven⟩
    have named := List.find?_some found
    simp only [test_iff] at named
    refine ⟨?_, ?_, ?_⟩
    · rw [List.map_cons, List.nodup_cons]
      refine ⟨?_, distinct⟩
      intro member
      rcases List.mem_map.mp member with ⟨other, present, same⟩
      exact uncovered other present (by rw [same, ← named.1]; exact List.mem_cons_self)
    · intro intent member
      rcases List.mem_cons.mp member with rfl | later
      · rw [← named.1]
        simpa using fresh
      · exact fun present => uncovered intent later (List.mem_cons_of_mem _ present)
    · intro intent member
      rcases List.mem_cons.mp member with rfl | later
      · exact ⟨proof, List.mem_of_find?_eq_some found, named.1, named.2, boundary⟩
      · exact proven intent later

/-- As many proofs as start rights, and one for each, so none is left over. -/
theorem Releasable.proves (releasable : Releasable grant release) :
    Proves release grant.tickets := by
  rcases releasable.covered with ⟨proofs, done⟩
  rcases coverTickets done with ⟨distinct, _, proven⟩
  have named : grant.tickets.map InvocationIntent.invocationId ⊆
      release.tickets.map TicketCleanup.invocationId := by
    intro invocation member
    rcases List.mem_map.mp member with ⟨intent, present, rfl⟩
    rcases proven intent present with ⟨proof, listed, same, _⟩
    rw [← same]
    exact List.mem_map_of_mem listed
  have same : (grant.tickets.map InvocationIntent.invocationId).Perm
      (release.tickets.map TicketCleanup.invocationId) := by
    apply (List.subperm_of_subset distinct named).perm_of_length_le
    rw [List.length_map, List.length_map, releasable.length]
  intro intent present
  rcases proven intent present with ⟨proof, listed, sameInvocation, sequence, boundary⟩
  refine ⟨proof, ?_, sequence, boundary⟩
  rw [← sameInvocation]
  exact filter_eq_singleton (same.nodup_iff.mp distinct) listed

/-- An unused Grant has no tickets, and a released one was sealed with a proof
for each ticket. -/
structure GrantSound (sealed : SealedRelease → Prop) (grant : GrantSnapshot) : Prop where
  unused : grant.state.mayRun = false → grant.state ≠ .released → grant.tickets = []
  released : grant.state = .released → ∃ release, grant.sealedRelease = some release ∧
    release.key = grant.candidate.key ∧ sealed release ∧ Proves release grant.tickets

section GrantSound

variable {sealed carried : SealedRelease → Prop} {request : Request} {old new : GrantSnapshot}

theorem GrantSound.move (sound : GrantSound sealed old)
    (made : ∀ release, carried release → sealed release)
    (moves : GrantMove request carried old new) : GrantSound sealed new := by
  cases moves with
  | expire owns offered asked =>
    refine ⟨fun _ _ => ?_, fun released => nomatch released⟩
    apply sound.unused <;> rw [offered]
    · rfl
    · exact fun released => nomatch released
  | arm | doubt => exact ⟨fun idle => (nomatch idle), fun released => (nomatch released)⟩
  | start owns armed asked valid =>
    constructor
    · intro idle
      rw [GrantSnapshot.start, armed] at idle
      cases idle
    · intro released
      rw [GrantSnapshot.start, armed] at released
      cases released
  | release owns inRequest releasable =>
    exact ⟨fun _ unreleased => absurd rfl unreleased, fun _ => ⟨_, rfl, releasable.key.symm,
      made _ inRequest, releasable.proves⟩⟩

theorem GrantSound.moves (sound : GrantSound sealed old)
    (made : ∀ release, carried release → sealed release)
    (moves : Relation.ReflTransGen (GrantMove request carried) old new) :
    GrantSound sealed new := by
  induction moves with
  | refl => exact sound
  | tail _ last ih => exact ih.move made last

theorem GrantSound.mono (sound : GrantSound sealed old)
    (implies : ∀ release, sealed release → weaker release) : GrantSound weaker old where
  unused := sound.unused
  released state := by
    rcases sound.released state with ⟨release, stored, key, made, proves⟩
    exact ⟨release, stored, key, implies release made, proves⟩

theorem GrantMove.tickets_subset (moves : GrantMove request carried old new) :
    old.tickets ⊆ new.tickets := by
  cases moves with
  | start => exact List.subset_append_left _ _
  | expire | arm | doubt | release => exact List.Subset.refl _

theorem tickets_subset_of_moves
    (moves : Relation.ReflTransGen (GrantMove request carried) old new) :
    old.tickets ⊆ new.tickets := by
  induction moves with
  | refl => exact List.Subset.refl _
  | tail _ last ih => exact fun _ listed => last.tickets_subset (ih listed)

end GrantSound

/-- Every stored Grant is sound. -/
def GrantsSound (sealed : SealedRelease → Prop) (grants : Table AllocationKey GrantRow) : Prop :=
  ∀ key row, grants.get? key = some row → GrantSound sealed row.snapshot

/-- The ticket is in the list of the Grant that it names. -/
def IssuedIn (grants : Table AllocationKey GrantRow) (ticket : InvocationTicket) : Prop :=
  ∃ row, grants.get? ticket.key = some row ∧ row.snapshot.grantId = ticket.grantId ∧
    ticket.intent ∈ row.snapshot.tickets

section Grants

variable {sealed carried : SealedRelease → Prop} {request : Request}
  {before after : Table AllocationKey GrantRow} {ticket : InvocationTicket}

theorem GrantsSound.evolve (sound : GrantsSound sealed before)
    (made : ∀ release, carried release → sealed release)
    (evolves : Table.Evolves (RowMoves request carried) before after) :
    GrantsSound sealed after := by
  intro key row found
  rcases evolves.origin found with ⟨old, foundOld, moves⟩
  exact (sound key old foundOld).moves made moves.2

theorem IssuedIn.evolve (issued : IssuedIn before ticket)
    (evolves : Table.Evolves (RowMoves request carried) before after) : IssuedIn after ticket := by
  rcases issued with ⟨row, found, same, listed⟩
  rcases evolves.lookup found with ⟨new, foundNew, moves⟩
  exact ⟨new, foundNew, moves.sameGrant.grantId.trans same,
    tickets_subset_of_moves moves.2 listed⟩

variable {config : CoordinatorConfig}

/-- A pass changes one Grant, which is unused before and after. -/
theorem GrantsPass.changes (pass : GrantsPass config topology domains before after) :
    ∃ grant : GrantSnapshot, grant.state.mayRun = false ∧ grant.state ≠ .released ∧
      (∀ row, before.get? grant.candidate.key = some row → row.snapshot.state.mayRun = false ∧
        row.snapshot.state ≠ .released ∧ grant.grantId = row.snapshot.grantId) ∧
      (grant.tickets = [] ∨ ∃ row, before.get? grant.candidate.key = some row ∧
        grant.tickets = row.snapshot.tickets) ∧
      (∀ key, key ≠ grant.candidate.key → after.get? key = before.get? key) ∧
      ∀ row, after.get? grant.candidate.key = some row → row.snapshot = grant := by
  cases pass with
  | @expire _ row found offered =>
    refine ⟨row.snapshot.expire, rfl, by simp [GrantSnapshot.expire], ?_, .inr ⟨row, found, rfl⟩,
      fun _ other => get?_writeGrant _ _ _ other, ?_⟩
    · intro old foundOld
      cases found.symm.trans foundOld
      rw [offered]
      exact ⟨rfl, by decide, rfl⟩
    · intro new foundNew
      rw [writeGrant, Table.get?_update, if_pos rfl] at foundNew
      rcases Option.map_eq_some_iff.mp foundNew with ⟨_, _, rfl⟩
      rfl
  | @offer grantId expanded _ candidate rank nonce now idle reconciled computed =>
    refine ⟨offeredGrant candidate rank grantId nonce now, rfl, by simp [offeredGrant], ?_,
      .inl rfl, fun _ other => get?_writeGrant _ _ _ other, ?_⟩
    · intro old foundOld
      rcases idle old foundOld with ⟨expired, same⟩
      rw [expired]
      exact ⟨rfl, by decide, same⟩
    · intro new foundNew
      rw [writeGrant, Table.get?_set, if_pos rfl] at foundNew
      cases foundNew
      rfl

/-- Expiring and offering concern Grants without tickets. -/
theorem GrantsSound.pass (sound : GrantsSound sealed before)
    (pass : GrantsPass config topology domains before after) :
    GrantsSound sealed after ∧ ∀ ticket, IssuedIn before ticket → IssuedIn after ticket := by
  rcases pass.changes with ⟨grant, idle, unreleased, prior, tickets, others, changed⟩
  constructor
  · intro key row found
    by_cases same : key = grant.candidate.key
    · subst same
      rw [changed row found]
      refine ⟨fun _ _ => ?_, fun released => absurd released unreleased⟩
      rcases tickets with none | ⟨old, foundOld, same⟩
      · exact none
      · rw [same]
        exact (sound _ old foundOld).unused (prior old foundOld).1 (prior old foundOld).2.1
    · rw [others key same] at found
      exact sound key row found
  · rintro ticket ⟨row, found, sameGrant, listed⟩
    have different : ticket.key ≠ grant.candidate.key := by
      intro same
      rw [same] at found
      rcases prior row found with ⟨idleRow, unreleasedRow, _⟩
      rw [(sound _ row found).unused idleRow unreleasedRow] at listed
      cases listed
    exact ⟨row, (others _ different).trans found, sameGrant, listed⟩

theorem GrantsSound.passes (sound : GrantsSound sealed before)
    (passes : Relation.ReflTransGen (GrantsPass config topology domains) before after) :
    GrantsSound sealed after ∧ ∀ ticket, IssuedIn before ticket → IssuedIn after ticket := by
  induction passes with
  | refl => exact ⟨sound, fun _ issued => issued⟩
  | tail _ last ih =>
    have final := ih.1.pass last
    exact ⟨final.1, fun ticket issued => final.2 ticket (ih.2 ticket issued)⟩

end Grants

/-- The tables hold sound Grants, only seals that managers made, and only
answers with tickets that their Grants list. -/
structure StoreSound (sealed : SealedRelease → Prop) (store : MachineStore) : Prop where
  keyed : Keyed store
  grants : GrantsSound sealed store.grants
  reconciles : ∀ domain row release, store.reconciles.get? domain = some row →
    row.Carries release → sealed release
  operations : ∀ sequence operation ticket, store.operations.get? sequence = some operation →
    operation.response = .ticket ticket → IssuedIn store.grants ticket

section StoreSound

variable {config : CoordinatorConfig} {sealed : SealedRelease → Prop} {request : Request}
  {recovering authorityClosed : Bool} {now : Int} {store next : MachineStore} {outcome : Outcome}

theorem StoreSound.agrees (sound : StoreSound sealed store) (same : Agrees store next) :
    StoreSound sealed next where
  keyed := sound.keyed.agrees same
  grants key row found := sound.grants key row ((same.grants key).trans found)
  reconciles domain row release found carries :=
    sound.reconciles domain row release (same.reconciles ▸ found) carries
  operations sequence operation ticket found answered := by
    rw [← same.operations] at found
    rcases sound.operations sequence operation ticket found answered with ⟨row, stored, listed⟩
    exact ⟨row, (same.grants _).symm.trans stored, listed⟩

section Commands

variable (applied : Applied config request recovering authorityClosed now store next outcome)

include applied

/-- A command adds no seal to a reconciliation but its own. -/
theorem Applied.reconciles :
    ∀ domain row release, next.reconciles.get? domain = some row → row.Carries release →
      (∃ old, store.reconciles.get? domain = some old ∧ old.Carries release) ∨
        request.command.Carries release := by
  intro domain row release found carries
  have kept : next.reconciles = store.reconciles →
      (∃ old, store.reconciles.get? domain = some old ∧ old.Carries release) ∨
        request.command.Carries release :=
    fun same => .inl ⟨row, same ▸ found, carries⟩
  cases applied with
  | acknowledge | wait | start | armAgain | arm | doubt | release | withdraw | withdrawOffer
  | inspectPage | inspect => exact kept rfl
  | upsert asked queue upserted =>
    rcases queue with rfl | rfl
    · exact kept rfl
    · apply kept
      unfold MachineStore.enqueueOwner
      split <;> rfl
  | reconcileBegin asked known ends =>
    obtain ⟨_, rfl⟩ | ⟨_, found⟩ := Table.get?_set_eq_some.mp found
    · rcases carries with ⟨allocations, listed, _⟩
      cases List.eq_of_mem_replicate listed
    · exact .inl ⟨row, found, carries⟩
  | reconcilePage asked begun owns =>
    obtain ⟨rfl, rfl⟩ | ⟨_, found⟩ := Table.get?_set_eq_some.mp found
    · rcases carries with ⟨allocations, listed, record, member, sealedBy⟩
      rcases List.mem_or_eq_of_mem_set listed with before | new
      · exact .inl ⟨_, begun, allocations, before, record, member, sealedBy⟩
      · cases new
        rw [asked]
        exact .inr ⟨record, member, sealedBy⟩
    · exact .inl ⟨row, found, carries⟩
  | reconcileCommit asked begun complete distinct covers folded =>
    have frame := (evolves_of_reconcileRecords request (fun _ => True)
      (fun _ _ _ _ => trivial) folded).2
    dsimp only at found
    rw [Table.get?_erase, congrArg MachineStore.reconciles frame] at found
    split at found
    · cases found
    · exact .inl ⟨row, found, carries⟩

/-- The answer to a start request is in the list of its Grant. -/
theorem Applied.issued (answered : outcome = .ticket ticket) : IssuedIn next.grants ticket := by
  cases applied with
  | @start key offerNonce intent row progress identities _ asked owns found keyed open_ armed
      named valid recorded grantId sameKey sameNonce sameIntent session =>
      cases answered
      have lookup : (writeGrant store.grants (row.snapshot.start intent) none).get? key =
          some { row with snapshot := row.snapshot.start intent } := by
        have sameKeyed : key = (row.snapshot.start intent).candidate.key := keyed.symm
        rw [writeGrant, Table.get?_update, if_pos sameKeyed, found, Option.map_some]
      refine ⟨{ row with snapshot := row.snapshot.start intent }, ?_, grantId.symm, ?_⟩
      · rw [sameKey]
        exact lookup
      · rw [sameIntent]
        exact List.mem_append_right _ (List.mem_singleton.mpr rfl)
  | _ => cases answered

/-- A command records nothing in the history; it may retire a part of it. -/
theorem Applied.operations_origin {sequence : ExecutionDomainId × Nat}
    (found : next.operations.get? sequence = some operation) :
    store.operations.get? sequence = some operation := by
  rcases applied.history with ⟨kept, _⟩ | ⟨through, row, _, rfl, _⟩
  · rw [← kept.operations]
    exact found
  · rw [compactOperations, Table.get?_filter] at found
    exact (Option.filter_eq_some_iff.mp found).1

end Commands

theorem Committed.sound (sound : StoreSound sealed store)
    (made : ∀ release, request.command.Carries release → sealed release)
    (committed : Committed config request outcome store next) : StoreSound sealed next := by
  have evolves := committed.evolves sound.keyed.grants
  have carriedMade : ∀ release, Carried request store release → sealed release := by
    rintro release (own | ⟨_, row, _, found, carries⟩)
    · apply made
      rw [own]
      rfl
    · exact sound.reconciles _ row release found carries
  have keyed := committed.keyed sound.keyed
  rcases committed with ⟨row, applied, _, attempted, agrees⟩
  refine ⟨keyed, sound.grants.evolve carriedMade evolves, ?_, ?_⟩
  · intro domain reconcile release found carries
    rw [agrees.reconciles] at found
    cases attempted with
    | refused base =>
      exact sound.reconciles domain reconcile release (base.reconciles ▸ found) carries
    | applied base effect =>
      rcases effect.reconciles domain reconcile release found carries with
        ⟨old, foundOld, before⟩ | own
      · exact sound.reconciles domain old release (base.reconciles ▸ foundOld) before
      · exact made release own
  · intro sequence operation ticket found answered
    have kept : store.operations.get? sequence = some operation → IssuedIn next.grants ticket :=
      fun foundOld => (sound.operations sequence operation ticket foundOld answered).evolve evolves
    rw [agrees.operations, recordOperation, Table.get?_set] at found
    split at found
    · cases found
      cases attempted with
      | refused base => cases answered
      | applied base effect =>
        rcases effect.issued answered with ⟨granted, stored, listed⟩
        exact ⟨granted, (agrees.grants _).trans stored, listed⟩
    · cases attempted with
      | refused base => exact kept (base.operations ▸ found)
      | applied base effect => exact kept (base.operations ▸ effect.operations_origin found)

theorem StoreStep.sound (sound : StoreSound sealed store)
    (made : ∀ entry ∈ commits, ∀ release, entry.1.command.Carries release → sealed release)
    (step : StoreStep config store commits next) : StoreSound sealed next := by
  have keyed := step.keyed sound.keyed
  cases step with
  | commit committed => exact committed.sound sound (made _ (List.mem_singleton.mpr rfl))
  | challenge => exact ⟨keyed, sound.grants, sound.reconciles, sound.operations⟩
  | session =>
    refine ⟨keyed, sound.grants, ?_, sound.operations⟩
    intro domain row release found carries
    rw [installSession, Table.get?_erase] at found
    split at found
    · cases found
    · exact sound.reconciles domain row release found carries
  | pass offered =>
    rcases offerTransaction_eq_ok sound.keyed.grants sound.keyed.candidates offered with
      ⟨frame, moves⟩
    have passed := sound.grants.passes moves
    refine ⟨keyed, passed.1, ?_, ?_⟩
    · rw [frame.reconciles]
      exact sound.reconciles
    · intro sequence operation ticket found answered
      rw [frame.operations] at found
      exact passed.2 ticket (sound.operations sequence operation ticket found answered)
  | native same => exact sound.agrees same

/-- A ticket that was issued stays in the list of its Grant. -/
theorem StoreStep.issued (sound : StoreSound sealed store) (issued : IssuedIn store.grants ticket)
    (step : StoreStep config store commits next) : IssuedIn next.grants ticket := by
  cases step with
  | commit committed => exact issued.evolve (committed.evolves sound.keyed.grants)
  | challenge | session => exact issued
  | pass offered =>
    have moves := (offerTransaction_eq_ok sound.keyed.grants sound.keyed.candidates offered).2
    exact (sound.grants.passes moves).2 ticket issued
  | native same =>
    rcases issued with ⟨row, found, listed⟩
    exact ⟨row, (same.grants _).symm.trans found, listed⟩

theorem StoreRun.issued (sound : StoreSound sealed store)
    (made : ∀ entry ∈ commits, ∀ release, entry.1.command.Carries release → sealed release)
    (issued : IssuedIn store.grants ticket) (run : StoreRun config store commits next) :
    IssuedIn next.grants ticket := by
  induction run with
  | refl => exact issued
  | step one _ ih =>
    apply ih (one.sound sound fun entry member => made entry (List.mem_append_left _ member))
    · exact fun entry member => made entry (List.mem_append_right _ member)
    · exact one.issued sound issued

theorem StoreRun.sound (sound : StoreSound sealed store)
    (made : ∀ entry ∈ commits, ∀ release, entry.1.command.Carries release → sealed release)
    (run : StoreRun config store commits next) : StoreSound sealed next := by
  induction run with
  | refl => exact sound
  | step one _ ih =>
    apply ih (one.sound sound fun entry member => made entry (List.mem_append_left _ member))
    exact fun entry member => made entry (List.mem_append_right _ member)

theorem StoreSound.mono (sound : StoreSound sealed store)
    (implies : ∀ release, sealed release → weaker release) : StoreSound weaker store where
  keyed := sound.keyed
  grants key row found := (sound.grants key row found).mono implies
  reconciles domain row release found carries :=
    implies release (sound.reconciles domain row release found carries)
  operations := sound.operations

theorem StoreSound.initial (config : CoordinatorConfig) :
    StoreSound sealed (MachineStore.initial config) where
  keyed := .initial config
  grants _ _ found := (nomatch found)
  reconciles _ _ _ found := (nomatch found)
  operations _ _ _ found := (nomatch found)

end StoreSound

end Stillyard
