import Stillyard.Store.Canceled
import Stillyard.Store.Safety

/-!
# Passes after a restart with another configuration

A restart may load another capacity map, which may lack resources that older
rows still name.  The aliases of a pairing are then checked against the new map,
and the pass expands every outstanding debit and every live reservation under
it; one name that is no longer configured stops the pass.  The module says
exactly when a pass succeeds after such a restart.
-/

namespace Stillyard

open Relational Fallible

/-- The configuration after a restart with another capacity map. -/
def CoordinatorConfig.restart (config : CoordinatorConfig) (capacities : ResourceCapacities)
    (sha : String) : CoordinatorConfig :=
  { config with capacities, configSha256 := sha }

/-- The resource that a claim name of a domain stands for. -/
def CoordinatorConfig.physicalName (config : CoordinatorConfig) (domain : ExecutionDomainId)
    (name : String) : String :=
  ((topologyAliases config).get? (domain, name)).getD name

/-- A resource with a configured capacity, or a built-in one. -/
def CoordinatorConfig.HasResource (config : CoordinatorConfig) (name : String) : Prop :=
  ((legacyCapacities config.capacities).get? name).isSome

instance (config : CoordinatorConfig) (name : String) : Decidable (config.HasResource name) :=
  inferInstanceAs (Decidable (_ = true))

/-- The claims of a domain name configured resources only, and what they take
from each of them fits a machine word. -/
structure ClaimsConfigured (config : CoordinatorConfig) (domain : ExecutionDomainId)
    (claims : ResolvedClaims) : Prop where
  paired : domain ∈ (topologyNodes config).map DomainBudget.id
  named : ∀ entry ∈ (scalarEntries claims).rows, entry.2 ≠ 0 →
    config.HasResource (config.physicalName domain entry.1)
  bounded : ∀ name, ((scalarEntries claims).sum fun claimed value =>
    if config.physicalName domain claimed = name then value else 0) < u64Bound

section Topology

variable {config : CoordinatorConfig} {topology : ResourceTopology}
variable {capacities : ResourceCapacities} {sha : String}

theorem machineTopology_eq_ok (made : machineTopology config = .ok (some topology)) :
    config.participants.isEmpty = false ∧
      ResourceTopology.new config.domains.machineScope (topologyNodes config)
        (topologyAliases config) = .ok topology := by
  unfold machineTopology at made
  split at made
  · cases made
  · next paired =>
    simp only [mapError_eq_ok, map_eq_ok] at made
    obtain ⟨_, created, same⟩ := made
    cases same
    exact ⟨Bool.eq_false_iff.mpr paired, created⟩

/-- The restart replaces the capacities of the machine scope. -/
private theorem topologyNodes_restart
    (distinct : ((topologyNodes config).map DomainBudget.id).Nodup) :
    topologyNodes (config.restart capacities sha) = (topologyNodes config).map
      (ResourceTopology.withRoot config.domains.machineScope (legacyCapacities capacities)) := by
  rw [topologyNodes, List.map_cons, List.nodup_cons] at distinct
  have kept : ∀ budget ∈ (topologyNodes config).tail,
      ResourceTopology.withRoot config.domains.machineScope (legacyCapacities capacities) budget =
        budget := by
    intro budget member
    apply if_neg
    intro same
    exact distinct.1 (List.mem_map.mpr ⟨budget, member, same⟩)
  have machine : ResourceTopology.withRoot config.domains.machineScope (legacyCapacities capacities)
      ⟨config.domains.machineScope, none, legacyCapacities config.capacities⟩ =
        ⟨config.domains.machineScope, none, legacyCapacities capacities⟩ := if_pos rfl
  have mapped := List.map_congr_left kept
  rw [List.map_id'] at mapped
  change _ = ResourceTopology.withRoot _ _ _ :: (topologyNodes config).tail.map _
  rw [mapped, machine]
  rfl

/-- After a restart the topology is accepted exactly if every alias still names a
configured resource. -/
theorem machineTopology_restart (paired : machineTopology config = .ok (some topology)) :
    (∃ other, machineTopology (config.restart capacities sha) = .ok (some other)) ↔
      ∀ entry ∈ (topologyAliases config).rows,
        (config.restart capacities sha).HasResource entry.2 := by
  obtain ⟨participants, created⟩ := machineTopology_eq_ok paired
  have distinct := topology.domains.nodup
  rw [← Table.keys, ResourceTopology.keys_collect (ResourceTopology.root_of_new created).2.1]
    at distinct
  have nodes := @topologyNodes_restart config capacities sha distinct
  have same : (∃ other, machineTopology (config.restart capacities sha) = .ok (some other)) ↔
      ∃ other, ResourceTopology.new config.domains.machineScope
        (topologyNodes (config.restart capacities sha)) (topologyAliases config) = .ok other := by
    constructor
    · rintro ⟨other, made⟩
      exact ⟨other, (machineTopology_eq_ok made).2⟩
    · rintro ⟨other, made⟩
      refine ⟨other, ?_⟩
      unfold machineTopology
      rw [if_neg (by rw [show (config.restart capacities sha).participants = config.participants
        from rfl, participants]; exact Bool.false_ne_true)]
      simp only [mapError_eq_ok, map_eq_ok]
      exact ⟨other, made, rfl⟩
  rw [same, nodes]
  exact ResourceTopology.new_withRoot created

theorem budget_machineScope (made : machineTopology config = .ok (some topology)) (name : String) :
    topology.budget topology.root name = (legacyCapacities config.capacities).get? name := by
  obtain ⟨root, collected, _⟩ := ResourceTopology.root_of_new (machineTopology_eq_ok made).2
  have stored := @ResourceTopology.get?_collect _ _
    ⟨config.domains.machineScope, none, legacyCapacities config.capacities⟩ collected
    List.mem_cons_self
  dsimp only at stored
  rw [ResourceTopology.budget, root, stored, Option.bind_some]

/-- Claims expand exactly if they name configured resources only. -/
theorem expandClaims_iff (made : machineTopology config = .ok (some topology)) :
    (∃ expanded, expandClaims topology domain claims = .ok expanded) ↔
      ClaimsConfigured config domain claims := by
  have created := (machineTopology_eq_ok made).2
  obtain ⟨root, collected, aliases⟩ := ResourceTopology.root_of_new created
  have translate : ∀ name, topology.translate domain name = config.physicalName domain name := by
    intro name
    rw [ResourceTopology.translate, aliases]
    rfl
  simp only [expandClaims, mapError_eq_ok, ResourceTopology.expand_iff]
  constructor
  · rintro ⟨⟨path, above⟩, covers⟩
    refine ⟨?_, ?_, ?_⟩
    · rw [← ResourceTopology.keys_collect collected]
      exact ResourceTopology.mem_keys_of_ancestors above
    · intro entry member positive
      have named := covers.named entry member positive
      rwa [budget_machineScope made, translate] at named
    · intro name
      have bounded := covers.bounded name
      simpa only [ResourceTopology.claimOn, translate] using bounded
  · intro configured
    refine ⟨?_, ?_, ?_⟩
    · apply ResourceTopology.ancestors_of_new created
      rw [ResourceTopology.keys_collect collected]
      exact configured.paired
    · intro entry member positive
      rw [budget_machineScope made, translate]
      exact configured.named entry member positive
    · intro name
      simpa only [ResourceTopology.claimOn, translate] using configured.bounded name

end Topology

/-! ## What a pass needs of its tables -/

/-- Every Grant is one of this store. -/
def OwnGrants (config : CoordinatorConfig) (grants : Table AllocationKey GrantRow) : Prop :=
  ∀ key row, grants.get? key = some row → row.snapshot.grantId.storeUuid = config.storeUuid

/-- What holds of the tables of every coordinator. -/
structure Serviceable (config : CoordinatorConfig) (store : MachineStore) : Prop where
  sound : StoreSound (fun _ => True) store
  own : OwnGrants config store.grants

/-- Every native Job that the pass ranks has its place in the queue. -/
structure NativeQueued (input : OfferInput) (view : NativeView) (store : MachineStore) : Prop where
  tried : ∀ job priority, input.native = some (job, priority) →
    (store.queue.get? (.native job)).isSome
  reserving : ∀ reservation ∈ view.reservations,
    (store.queue.get? (.native reservation.job)).isSome

/-- An Offer whose deadline has passed. -/
def OfferDue (now : Int) (grant : GrantSnapshot) : Prop :=
  grant.state = .offered ∧ grant.offerDeadlineUnixMillis ≤ now

/-- Every debit and every live reservation names configured resources only.  An
Offer that is due expires before its claims are read, and a remote reservation
that was made under another configuration is dropped. -/
structure DebitsConfigured (config : CoordinatorConfig) (now : Int) (view : NativeView)
    (store : MachineStore) : Prop where
  leases : ∀ claims ∈ view.granted, ClaimsConfigured config config.domains.nativeDomain claims
  grants : ∀ key row, store.grants.get? key = some row → row.snapshot.state.outstanding = true →
    ¬OfferDue now row.snapshot →
    ClaimsConfigured config row.snapshot.candidate.key.domainId
      (machineClaims row.snapshot.candidate.claims)
  native : ∀ reservation ∈ view.reservations, now < reservation.holdDeadlineMs →
    ClaimsConfigured config config.domains.nativeDomain reservation.claims
  remote : ∀ reservation ∈ remoteReservations store now,
    reservation.candidate.configurationSha256 = config.configSha256 →
    ClaimsConfigured config reservation.candidate.key.domainId
      (machineClaims reservation.candidate.claims)

section Expiry

variable {store next : MachineStore} {now : Int} {changed : Bool}
variable {grant : GrantSnapshot}

private theorem saveGrant_of_unused (store : MachineStore) (unused : grant.tickets = []) :
    saveGrant store grant physical =
      .ok { store with grants := writeGrant store.grants grant physical } := by
  rw [saveGrant, unused]
  rfl

/-- The Offers that `expireOffers` goes through. -/
private def dueOffers (store : MachineStore) (now : Int) : List GrantSnapshot :=
  store.grants.select fun _ row =>
    if row.snapshot.state = .offered ∧ row.snapshot.offerDeadlineUnixMillis ≤ now then
      some row.snapshot
    else none

private theorem mem_dueOffers :
    grant ∈ dueOffers store now ↔
      OfferDue now grant ∧ ∃ key row, store.grants.get? key = some row ∧ row.snapshot = grant := by
  rw [dueOffers, Table.mem_select]
  constructor
  · rintro ⟨key, row, found, picked⟩
    split at picked
    · next due =>
      cases picked
      exact ⟨due, key, row, found, rfl⟩
    · cases picked
  · rintro ⟨due, key, row, found, rfl⟩
    exact ⟨key, row, found, if_pos due⟩

private theorem expireOffers_iff :
    expireOffers store now = .ok (next, changed) ↔
      (dueOffers store now).foldlM (expireOffer now) store = .ok next ∧
        (!(dueOffers store now).isEmpty) = changed := by
  simp only [expireOffers, ok_iff, Prod.mk.injEq]
  constructor
  · rintro ⟨_, folded, rfl, same⟩
    exact ⟨folded, same⟩
  · rintro ⟨folded, same⟩
    exact ⟨next, folded, rfl, same⟩

private theorem expireOffers_total
    (unused : ∀ key row, store.grants.get? key = some row → row.snapshot.state = .offered →
      row.snapshot.tickets = []) :
    ∃ next changed, expireOffers store now = .ok (next, changed) := by
  have rounds : ∀ (state : MachineStore) (grant : GrantSnapshot), grant ∈ dueOffers store now →
      True → ∃ next, expireOffer now state grant = .ok next ∧ True := by
    intro state grant member _
    obtain ⟨due, key, row, found, rfl⟩ := mem_dueOffers.mp member
    have empty : row.snapshot.expire.tickets = [] := unused key row found due.1
    rw [expireOffer, saveGrant_of_unused state empty]
    exact ⟨_, rfl, trivial⟩
  have completed : ∃ final, (dueOffers store now).foldlM (expireOffer now) store = .ok final ∧
      True := foldlM_total _ rounds trivial
  obtain ⟨final, folded, _⟩ := completed
  exact ⟨final, _, expireOffers_iff.mpr ⟨folded, rfl⟩⟩

private theorem get?_expireOffer (round : expireOffer now store grant = .ok next)
    (key : AllocationKey) :
    next.grants.get? key = if key = grant.candidate.key then
        (store.grants.get? key).map fun row => { row with snapshot := grant.expire }
      else store.grants.get? key := by
  simp only [expireOffer, ok_iff] at round
  obtain ⟨saved, succeeded, rfl⟩ := round
  obtain ⟨identities, _, rfl⟩ := saveGrant_eq_ok succeeded
  exact Table.get?_update ..

/-- The Grants that are outstanding after the due Offers expired. -/
private theorem outstanding_expireOffers (keyed : GrantsKeyed store.grants)
    (succeeded : expireOffers store now = .ok (next, changed)) :
    (next.grants.get? key = some row ∧ row.snapshot.state.outstanding = true) ↔
      store.grants.get? key = some row ∧ row.snapshot.state.outstanding = true ∧
        ¬OfferDue now row.snapshot := by
  have folded := (expireOffers_iff.mp succeeded).1
  constructor
  · rintro ⟨found, runs⟩
    obtain ⟨old, stored, rfl | expired⟩ := expireOffers_origin succeeded found
    · refine ⟨stored, runs, ?_⟩
      intro due
      have listed := mem_dueOffers.mpr ⟨due, key, row, stored, rfl⟩
      have established := foldlM_establishes
        (fun (grant : GrantSnapshot) (state : MachineStore) => ∀ row,
          state.grants.get? grant.candidate.key = some row → row.snapshot.state = .expired)
        (by
          intro state grant after round new present
          rw [get?_expireOffer round, if_pos rfl] at present
          obtain ⟨_, _, rfl⟩ := Option.map_eq_some_iff.mp present
          rfl)
        (by
          intro state grant after other held round new present
          rw [get?_expireOffer round] at present
          split at present
          · obtain ⟨_, _, rfl⟩ := Option.map_eq_some_iff.mp present
            rfl
          · exact held new present) folded row.snapshot listed row
      rw [keyed key row stored] at established
      rw [established found] at runs
      cases runs
    · rw [expired] at runs
      cases runs
  · rintro ⟨stored, runs, current⟩
    refine ⟨?_, runs⟩
    apply foldlM_invariant
      (fun state : MachineStore => state.grants.get? key = some row) _ stored folded
    intro state grant after member held round
    obtain ⟨due, other, stale, present, rfl⟩ := mem_dueOffers.mp member
    rw [get?_expireOffer round, if_neg, held]
    rintro rfl
    rw [keyed other stale present] at stored
    cases stored.symm.trans present
    exact current due

private theorem remoteReservations_deferCandidate (store : MachineStore) (key : AllocationKey)
    (until_ at_ : Int) :
    remoteReservations (deferCandidate store key until_) at_ = remoteReservations store at_ := by
  simp only [remoteReservations, deferCandidate]
  congr
  funext owner physical
  rw [Table.get?_update]
  split
  · cases store.candidates.get? owner <;> rfl
  · rfl

/-- The end of Offers leaves the reservations alone. -/
private theorem remoteReservations_expireOffers
    (succeeded : expireOffers store now = .ok (next, changed)) (at_ : Int) :
    remoteReservations next at_ = remoteReservations store at_ := by
  apply foldlM_invariant
    (fun state : MachineStore => remoteReservations state at_ = remoteReservations store at_) _ rfl
    (expireOffers_iff.mp succeeded).1
  intro state grant after _ held round
  simp only [expireOffer, ok_iff] at round
  obtain ⟨saved, written, rfl⟩ := round
  obtain ⟨identities, _, rfl⟩ := saveGrant_eq_ok written
  rw [remoteReservations_deferCandidate]
  exact held

/-- A reservation that the pass still reads does not end. -/
private theorem not_reservationEnds (ready : row.state = .ready) (current : now < row.expiresMs)
    (held : row.reservationDeadlineMs.any (fun deadline => now < deadline) = true) :
    reservationEnds now row = false := by
  cases found : row.reservationDeadlineMs with
  | none =>
    rw [found] at held
    cases held
  | some deadline =>
    rw [found, Option.any_some, decide_eq_true_eq] at held
    simp [reservationEnds, found, ready, held, current]

/-- Only reservations that are no longer read are expired. -/
private theorem mem_remoteReservations_expireReservations :
    reservation ∈ remoteReservations (expireReservations store now).1 now ↔
      reservation ∈ remoteReservations store now := by
  simp only [remoteReservations, Table.mem_select, expireReservations, Table.get?_filter,
    Table.get?_modify, Option.filter_eq_some_iff]
  constructor
  · rintro ⟨key, physical, ⟨stored, _⟩, picked⟩
    refine ⟨key, physical, stored, ?_⟩
    cases found : store.candidates.get? key with
    | none =>
      rw [found] at picked
      cases picked
    | some row =>
      simp only [found, Option.map_some, Option.bind_some] at picked ⊢
      by_cases ends : reservationEnds now row = true
      · simp [ends] at picked
      · simp only [ends] at picked
        exact picked
  · rintro ⟨key, physical, stored, picked⟩
    cases found : store.candidates.get? key with
    | none =>
      rw [found] at picked
      cases picked
    | some row =>
      simp only [found, Option.bind_some] at picked
      split at picked
      · next live =>
        have open_ := not_reservationEnds live.1 live.2.1 live.2.2.1
        refine ⟨key, physical, ⟨stored, ?_⟩, ?_⟩
        · cases held : row.reservationDeadlineMs with
          | none =>
            rw [held] at live
            cases live.2.2.1
          | some deadline => simp [found, open_, held, live.1, live.2.1]
        · simp only [found, Option.map_some, Option.bind_some, open_]
          exact (if_pos live).trans picked
      · cases picked

end Expiry

section Stages

variable {config : CoordinatorConfig} {topology : ResourceTopology} {view : NativeView} {now : Int}
  {store : MachineStore}
variable {before : Table AllocationKey GrantRow}
variable {fresh : AllocationKey → FreshOffer}
variable {input : OfferInput}

private theorem scopedDebits_iff (made : machineTopology config = .ok (some topology)) :
    (∃ active, scopedDebits config topology view store = .ok active) ↔
      (∀ claims ∈ view.granted, ClaimsConfigured config config.domains.nativeDomain claims) ∧
      ∀ key row, store.grants.get? key = some row → row.snapshot.state.outstanding = true →
        ClaimsConfigured config row.snapshot.candidate.key.domainId
          (machineClaims row.snapshot.candidate.claims) := by
  simp only [scopedDebits, ok_iff]
  constructor
  · rintro ⟨_, native, granted, remote, outstanding, _⟩
    constructor
    · intro claims member
      obtain ⟨expanded, _, succeeded⟩ := result_of_mapM granted claims member
      exact (expandClaims_iff made).mp ⟨expanded, succeeded⟩
    · intro key row found runs
      obtain ⟨expanded, _, succeeded⟩ := result_of_mapM outstanding _
        (Table.mem_select.mpr ⟨key, row, found, if_pos runs⟩)
      exact (expandClaims_iff made).mp ⟨expanded, succeeded⟩
  · rintro ⟨leases, grants⟩
    obtain ⟨native, granted⟩ := mapM_of_forall fun claims member =>
      (expandClaims_iff made).mpr (leases claims member)
    have remote : ∀ candidate ∈ (store.grants.select fun _ row =>
        if row.snapshot.state.outstanding then some row.snapshot.candidate else none),
        ∃ expanded, expandClaims topology candidate.key.domainId (machineClaims candidate.claims) =
          .ok expanded := by
      intro candidate member
      obtain ⟨key, row, found, picked⟩ := Table.mem_select.mp member
      split at picked
      · next runs =>
        cases picked
        exact (expandClaims_iff made).mpr (grants key row found runs)
      · cases picked
    obtain ⟨others, outstanding⟩ := mapM_of_forall remote
    exact ⟨_, native, granted, others, outstanding, rfl⟩

private theorem nativeReserved_iff (made : machineTopology config = .ok (some topology))
    (queued : ∀ reservation ∈ view.reservations,
      (store.queue.get? (.native reservation.job)).isSome) :
    (∃ reserved, nativeReserved config topology view now store = .ok reserved) ↔
      ∀ reservation ∈ view.reservations, now < reservation.holdDeadlineMs →
        ClaimsConfigured config config.domains.nativeDomain reservation.claims := by
  constructor
  · rintro ⟨_, reserved⟩ reservation member live
    obtain ⟨_, _, computed⟩ := result_of_mapM reserved reservation
      (List.mem_filter.mpr ⟨member, by simpa using live⟩)
    simp only [bind_eq_ok] at computed
    obtain ⟨_, _, expanded, succeeded, _⟩ := computed
    exact (expandClaims_iff made).mp ⟨expanded, succeeded⟩
  · intro configured
    apply mapM_of_forall
    intro reservation listed
    obtain ⟨member, live⟩ := List.mem_filter.mp listed
    obtain ⟨place, found⟩ := Option.isSome_iff_exists.mp (queued reservation member)
    obtain ⟨expanded, succeeded⟩ :=
      (expandClaims_iff made).mpr (configured reservation member (by simpa using live))
    simp only [bind_eq_ok, queueRank, found, Option.map_some]
    exact ⟨_, _, rfl, expanded, succeeded, rfl⟩

private theorem remoteReserved_iff (made : machineTopology config = .ok (some topology))
    {reservations : List RemoteReservation} {start : MachineStore × List ReservedEntry × Bool} :
    (∃ final, reservations.foldlM (remoteReserved config topology) start = .ok final) ↔
      ∀ reservation ∈ reservations,
        reservation.candidate.configurationSha256 = config.configSha256 →
        ClaimsConfigured config reservation.candidate.key.domainId
          (machineClaims reservation.candidate.claims) := by
  constructor
  · rintro ⟨_, folded⟩ reservation member same
    obtain ⟨state, next, round⟩ := round_of_foldlM folded reservation member
    simp only [remoteReserved, same, ne_eq, not_true_eq_false, if_false,
      bind_eq_ok] at round
    obtain ⟨expanded, succeeded, _⟩ := round
    exact (expandClaims_iff made).mp ⟨expanded, succeeded⟩
  · intro configured
    have rounds : ∀ (state : MachineStore × List ReservedEntry × Bool) reservation,
        reservation ∈ reservations → True →
          ∃ next, remoteReserved config topology state reservation = .ok next ∧ True := by
      rintro ⟨held, reserved, changed⟩ reservation member _
      simp only [remoteReserved]
      split
      · exact ⟨_, rfl, trivial⟩
      · next same =>
        obtain ⟨expanded, succeeded⟩ := (expandClaims_iff made).mpr
          (configured reservation member (not_not.mp same))
        rw [succeeded]
        exact ⟨_, rfl, trivial⟩
    have completed : ∃ final, reservations.foldlM (remoteReserved config topology) start =
        .ok final ∧ True := foldlM_total _ rounds trivial
    obtain ⟨final, folded, _⟩ := completed
    exact ⟨final, folded⟩

private theorem OwnGrants.pass (own : OwnGrants config before)
    (pass : GrantsPass config topology domains before after) : OwnGrants config after := by
  intro key row found
  cases pass with
  | expire stored =>
    obtain ⟨_, _, _, rfl⟩ | ⟨_, found⟩ := Table.get?_update_eq_some.mp found
    · have owned := own _ _ stored
      exact owned
    · exact own key row found
  | offer _ _ _ made =>
    obtain ⟨_, rfl⟩ | ⟨_, found⟩ := Table.get?_set_eq_some.mp found
    · exact made
    · exact own key row found

private theorem OwnGrants.passes (own : OwnGrants config before)
    (passes : Relation.ReflTransGen (GrantsPass config topology domains) before after) :
    OwnGrants config after := by
  induction passes with
  | refl => exact own
  | tail _ last ih => exact ih.pass last

private theorem OwnGrants.round (own : OwnGrants config state.store.grants)
    (round : offerCandidate config topology now fresh state ready = .ok next) :
    OwnGrants config next.store.grants := by
  obtain ⟨_, ⟨same, _⟩ | ⟨_, _, _, _, _, _, made, _, written⟩⟩ := offerCandidate_eq_ok round
  · rw [same]
    exact own
  · intro key row found
    rw [written, writeGrant, Table.get?_set_eq_some] at found
    obtain ⟨_, rfl⟩ | ⟨_, found⟩ := found
    · exact made
    · exact own key row found

private theorem offerGrantId_total (own : OwnGrants config store.grants) (key : AllocationKey)
    (fresh : FreshOffer) : ∃ grantId, offerGrantId config store key fresh = .ok grantId := by
  unfold offerGrantId
  split
  · next row found =>
    refine ⟨row.snapshot.grantId, ?_⟩
    simp only [ok_iff]
    exact ⟨(), decide_eq_true (own key row found), trivial⟩
  · exact ⟨_, rfl⟩

private theorem makeOffer_total {fresh : FreshOffer} (own : OwnGrants config state.store.grants)
    (candidate : Candidate) (rank : ScheduleKey) (expanded : ScopedClaims) :
    ∃ next, makeOffer config now fresh candidate rank expanded state = .ok next := by
  have kept : OwnGrants config (state.dropOwn candidate.key).store.grants := own
  obtain ⟨grantId, identified⟩ := offerGrantId_total kept candidate.key fresh
  simp only [makeOffer, identified, ok_iff]
  exact ⟨_, grantId, rfl, _, saveGrant_of_unused _ rfl, rfl⟩

/-- A round of the main loop succeeds for every candidate that has its row. -/
private theorem offerCandidate_total (own : OwnGrants config state.store.grants)
    (present : (state.store.candidates.get? ready.1.key).isSome) :
    ∃ next, offerCandidate config topology now fresh state ready = .ok next := by
  obtain ⟨row, found⟩ := Option.isSome_iff_exists.mp present
  simp only [offerCandidate]
  split
  · exact ⟨_, rfl⟩
  · split
    · exact ⟨_, rfl⟩
    · next expanded _ =>
      split
      · exact ⟨_, rfl⟩
      · simp only [found, ok_iff, Option.some.injEq]
        cases decision : offerDecision topology now state row ready.1.key ready.2 expanded with
        | drop | expire | hold | create => exact ⟨_, row, rfl, by rw [decision]; rfl⟩
        | grant =>
          obtain ⟨next, made⟩ := makeOffer_total own ready.1 ready.2 expanded
          exact ⟨next, row, rfl, by rw [decision]; exact made⟩

/-- The main loop succeeds if every candidate has its row. -/
private theorem offerLoop_total {entries : List (Candidate × ScheduleKey)}
    (own : OwnGrants config state.store.grants)
    (present : ∀ entry ∈ entries, (state.store.candidates.get? entry.1.key).isSome) :
    ∃ final, entries.foldlM (offerCandidate config topology now fresh) state = .ok final := by
  have rounds : ∀ (reached : OfferState) entry, entry ∈ entries →
      (OwnGrants config reached.store.grants ∧
        ∀ entry ∈ entries, (reached.store.candidates.get? entry.1.key).isSome) →
      ∃ next, offerCandidate config topology now fresh reached entry = .ok next ∧
        OwnGrants config next.store.grants ∧
        ∀ entry ∈ entries, (next.store.candidates.get? entry.1.key).isSome := by
    rintro reached entry member ⟨owned, listed⟩
    obtain ⟨next, round⟩ := offerCandidate_total owned (listed entry member)
    refine ⟨next, round, owned.round round, ?_⟩
    intro other otherMember
    obtain ⟨row, found⟩ := Option.isSome_iff_exists.mp (listed other otherMember)
    obtain ⟨new, foundNew, _⟩ := (offerCandidate_eq_ok round).1.candidates.lookup found
    rw [foundNew]
    rfl
  obtain ⟨final, folded, _⟩ := foldlM_total _ rounds ⟨own, present⟩
  exact ⟨final, folded⟩

private theorem candidate_of_ready (keyed : CandidatesKeyed store.candidates)
    (member : ready ∈ readyCandidates store now) : (store.candidates.get? ready.1.key).isSome := by
  rw [readyCandidates, List.mem_insertionSort] at member
  obtain ⟨key, row, found, picked⟩ := Table.mem_select.mp member
  split at picked
  · obtain ⟨rank, _, rfl⟩ := Option.map_eq_some_iff.mp picked
    rw [(keyed key row found).1, found]
    rfl
  · cases picked

private theorem nativeRank_total (queued : ∀ job priority, input.native = some (job, priority) →
      (store.queue.get? (.native job)).isSome) : ∃ rank, input.nativeRank store now = .ok rank := by
  unfold OfferInput.nativeRank
  split
  · exact ⟨none, rfl⟩
  · next job priority tried =>
    obtain ⟨place, found⟩ := Option.isSome_iff_exists.mp (queued job priority tried)
    rw [queueRank, found]
    exact ⟨_, rfl⟩

/-- A pass succeeds exactly if all debits and live reservations are configured. -/
theorem offerTransaction_iff (made : machineTopology config = .ok (some topology))
    (serviceable : Serviceable config store) (queued : NativeQueued input view store) :
    (∃ result, offerTransaction config topology input view store = .ok result) ↔
      DebitsConfigured config (max input.now store.scheduleMs) view store := by
  have keyed := serviceable.sound.keyed
  have unused : ∀ key row, store.grants.get? key = some row → row.snapshot.state = .offered →
      row.snapshot.tickets = [] := by
    intro key row found offered
    apply (serviceable.sound.grants key row found).unused <;> rw [offered]
    · rfl
    · nofun
  have first := frame_expireReservations store (max input.now store.scheduleMs)
  have unmoved : GrantsKeyed (expireReservations store (max input.now store.scheduleMs)).1.grants :=
    keyed.grants
  constructor
  · rintro ⟨result, succeeded⟩
    simp only [offerTransaction, ok_iff, Prod.exists] at succeeded
    obtain ⟨opened, _, expired, _, _, active, debits, native, held, heldStore, reserved, _, folded,
      _⟩ := succeeded
    have frame := first.trans (expireOffers_eq_ok config topology store.domains unmoved expired).1
    obtain ⟨leases, grants⟩ := (scopedDebits_iff made).mp ⟨active, debits⟩
    refine ⟨leases, ?_, ?_, ?_⟩
    · intro key row found runs current
      obtain ⟨kept, _⟩ := (outstanding_expireOffers unmoved expired).mpr ⟨found, runs, current⟩
      exact grants key row kept runs
    · apply (nativeReserved_iff made _).mp ⟨native, held⟩
      rw [frame.queue]
      exact queued.reserving
    · intro reservation listed same
      refine (remoteReserved_iff made).mp ⟨_, folded⟩ reservation ?_ same
      rw [remoteReservations_expireOffers expired]
      exact mem_remoteReservations_expireReservations.mpr listed
  · intro configured
    obtain ⟨opened, changed, expired⟩ := @expireOffers_total
      (expireReservations store (max input.now store.scheduleMs)).1
      (max input.now store.scheduleMs) unused
    have frame := first.trans (expireOffers_eq_ok config topology store.domains unmoved expired).1
    have own := serviceable.own.passes
      (expireOffers_eq_ok config topology store.domains unmoved expired).2
    obtain ⟨rank, ranked⟩ := @nativeRank_total (max input.now store.scheduleMs) opened input (by
      rw [frame.queue]
      exact queued.tried)
    obtain ⟨active, debits⟩ := (@scopedDebits_iff _ _ view opened made).mpr ⟨configured.leases, by
      intro key row found runs
      obtain ⟨stored, _, current⟩ := (outstanding_expireOffers unmoved expired).mp ⟨found, runs⟩
      exact configured.grants key row stored runs current⟩
    obtain ⟨native, held⟩ := (@nativeReserved_iff _ _ view (max input.now store.scheduleMs) opened
      made (by rw [frame.queue]; exact queued.reserving)).mpr configured.native
    obtain ⟨⟨heldStore, reserved, configChanged⟩, folded⟩ := (@remoteReserved_iff _ _ made
      (remoteReservations opened (max input.now store.scheduleMs))
      (opened, native,
        (expireReservations store (max input.now store.scheduleMs)).2 || changed)).mpr
      (by
        intro reservation listed
        rw [remoteReservations_expireOffers expired] at listed
        exact configured.remote reservation
          (mem_remoteReservations_expireReservations.mp listed))
    have untouched := (untouched_remoteReserved folded).trans
      (untouched_retainReservation topology config.impactIncompatibilities
        (max input.now store.scheduleMs)
        (reserved.insertionSort fun left right =>
          scheduleOrder left.rank right.rank = .lt ∨
            (scheduleOrder left.rank right.rank = .eq ∧ left.owner.le right.owner = true))
        ⟨heldStore, [], false, []⟩)
    rw [← untouched.2] at own
    obtain ⟨final, looped⟩ := @offerLoop_total config topology (max input.now store.scheduleMs)
      input.fresh ⟨_, active, _, _⟩
        ((readyCandidates opened (max input.now store.scheduleMs)).takeWhile
        fun entry => rank.all fun native => scheduleOrder entry.2 native ≠ .gt) own (by
        intro entry member
        have listed := (List.takeWhile_sublist _).subset member
        obtain ⟨row, found⟩ := Option.isSome_iff_exists.mp
          (candidate_of_ready (keyed.candidates.evolve frame.candidates) listed)
        obtain ⟨kept, foundKept, _⟩ := untouched.1.candidates.lookup found
        rw [foundKept]
        rfl)
    simp only [offerTransaction, ok_iff]
    exact ⟨_, _, expired, rank, ranked, active, debits, native, held, _, folded, final, looped, rfl⟩

end Stages

/-! ## Restarts -/

/-- The tables of a coordinator store after any number of runs, each under a
configuration of its own. -/
inductive ReachedStore (storeUuid : Uuid) : MachineStore → Prop where
  | initial (same : config.storeUuid = storeUuid) : ReachedStore storeUuid (.initial config)
  | run {commits : List (Request × Outcome)} (before : ReachedStore storeUuid store)
      (same : config.storeUuid = storeUuid) (run : StoreRun config store commits next) :
      ReachedStore storeUuid next

section Restarts

variable {config : CoordinatorConfig} {store next : MachineStore}
variable {commits : List (Request × Outcome)}

private theorem StoreStep.own (keyed : Keyed store) (own : OwnGrants config store.grants)
    (step : StoreStep config store commits next) : OwnGrants config next.grants := by
  cases step with
  | commit committed =>
    intro key row found
    obtain ⟨old, stored, moves⟩ := (committed.evolves keyed.grants).origin found
    rw [moves.sameGrant.grantId]
    exact own key old stored
  | challenge | session => exact own
  | pass made => exact own.passes (offerTransaction_eq_ok keyed.grants keyed.candidates made).2
  | native same =>
    intro key row found
    exact own key row ((same.grants key).trans found)

private theorem StoreRun.own (keyed : Keyed store) (own : OwnGrants config store.grants)
    (run : StoreRun config store commits next) : OwnGrants config next.grants := by
  induction run with
  | refl => exact own
  | step one _ ih => exact ih (one.keyed keyed) (one.own keyed own)

theorem ReachedStore.serviceable (reached : ReachedStore config.storeUuid store) :
    Serviceable config store := by
  induction reached with
  | initial same => exact ⟨.initial _, fun _ _ found => nomatch found⟩
  | @run _ other _ _ _ same run ih =>
    refine ⟨run.sound ih.sound fun _ _ _ _ => trivial, ?_⟩
    have own : OwnGrants other _ := fun key row found => (ih.own key row found).trans same.symm
    intro key row found
    exact (run.own ih.sound.keyed own key row found).trans same

/-- After a restart the topology and a pass succeed exactly if the new map still
has every aliased resource and, unless the authority holds the pass back, every
resource that a debit or a live reservation names. -/
theorem pass_succeeds_iff_configured {topology : ResourceTopology} {capacities : ResourceCapacities}
    {sha : String} {blocked : Bool} {input : OfferInput} {view : NativeView}
    (paired : machineTopology config = .ok (some topology))
    (reached : ReachedStore config.storeUuid store) (queued : NativeQueued input view store) :
    ((∃ other, machineTopology (config.restart capacities sha) = .ok (some other)) ∧
      ∃ result, machineOfferBeforeNative (config.restart capacities sha) blocked input view store =
        .ok result) ↔
      (∀ entry ∈ (topologyAliases config).rows,
        (config.restart capacities sha).HasResource entry.2) ∧
      (blocked = false → DebitsConfigured (config.restart capacities sha)
        (max input.now store.scheduleMs) view store) := by
  have serviceable : Serviceable (config.restart capacities sha) store :=
    ⟨reached.serviceable.sound, reached.serviceable.own⟩
  rw [machineTopology_restart paired]
  apply and_congr_right
  intro aliased
  obtain ⟨other, made⟩ := (machineTopology_restart paired).mpr aliased
  rw [← offerTransaction_iff made serviceable queued]
  cases blocked with
  | true => simp [machineOfferBeforeNative, pure_eq_ok]
  | false =>
    simp only [machineOfferBeforeNative, made, bind_eq_ok, Bool.false_eq_true, if_false,
      forall_const]
    constructor
    · rintro ⟨_, _, same, succeeded⟩
      cases same
      obtain ⟨result, made, _⟩ := bind_eq_ok.mp succeeded
      exact ⟨result, made⟩
    · rintro ⟨result, succeeded⟩
      exact ⟨_, _, rfl, bind_eq_ok.mpr ⟨result, succeeded, rfl⟩⟩

end Restarts

/-- A host with one configured license, and a paired domain that calls it a
seat. -/
def seatConfig : CoordinatorConfig :=
  { soloConfig with
    participants := [⟨6, 7, .executor, 8, 4, .empty, .empty⟩,
      ⟨16, 17, .executor, 18, 4, .empty, Table.empty.set "seat" "license"⟩]
    capacities := ⟨8, 1024, 1, 0, Table.empty.set "license" 1⟩ }

/-- The same host without the alias. -/
def licenseConfig : CoordinatorConfig :=
  { soloConfig with capacities := ⟨8, 1024, 1, 0, Table.empty.set "license" 1⟩ }

/-- A native Lease that holds the license. -/
def licenseView : NativeView :=
  ⟨[⟨1, 0, 0, 0, Table.empty.set "license" 1, [], [], []⟩], []⟩

/-- A pass with no native Job to try. -/
def idleInput : OfferInput := ⟨0, none, fun _ => ⟨0, 0⟩⟩

private theorem idleInput_queued (view : NativeView) (none_ : view.reservations = [])
    (store : MachineStore) : NativeQueued idleInput view store where
  tried _ _ asked := nomatch asked
  reserving reservation member := by
    rw [none_] at member
    cases member

/-- More processors, the same license. -/
def largerConfig : CoordinatorConfig :=
  seatConfig.restart ⟨16, 2048, 1, 0, Table.empty.set "license" 1⟩ "new"

theorem CoordinatorRun.reachedStore {coordinator : Coordinator}
    (run : CoordinatorRun config (fun _ => True) (fun _ => True) coordinator history) :
    ReachedStore config.storeUuid coordinator.store := by
  induction run with
  | start => exact .initial rfl
  | step earlier one ih => exact .run ih rfl (one.effect earlier.sound).1

private theorem soloOffered_reached : ReachedStore seatConfig.storeUuid soloOffered.store := by
  obtain ⟨history, run⟩ := soloQueued_run
  have offered : CoordinatorRun soloConfig (fun _ => True) (fun _ => True) soloOffered _ :=
    .step run (soloPass_step (by decide +kernel))
  exact offered.reachedStore

private theorem largerConfig_expands : ∃ topology, machineTopology largerConfig =
    .ok (some topology) ∧
      (∀ claims ∈ licenseView.granted, ∃ expanded,
        expandClaims topology largerConfig.domains.nativeDomain claims = .ok expanded) ∧
      ∀ row ∈ soloOffered.store.grants.rows, ∃ expanded,
        expandClaims topology row.2.snapshot.candidate.key.domainId
          (machineClaims row.2.snapshot.candidate.claims) = .ok expanded := by
  have computed : ((machineTopology largerConfig).toOption.join.any fun topology =>
      (licenseView.granted.all fun claims =>
        (expandClaims topology largerConfig.domains.nativeDomain claims).toOption.isSome) &&
      soloOffered.store.grants.rows.all fun row =>
        (expandClaims topology row.2.snapshot.candidate.key.domainId
          (machineClaims row.2.snapshot.candidate.claims)).toOption.isSome) = true := by
    decide +kernel
  obtain ⟨topology, made, expands⟩ := (Option.any_eq_true _ _).mp computed
  simp only [Bool.and_eq_true, List.all_eq_true, Option.isSome_iff_exists, toOption_eq_some]
    at expands
  refine ⟨topology, ?_, expands⟩
  cases topologies : machineTopology largerConfig with
  | error error => simp [topologies, Except.toOption] at made
  | ok found => simpa [topologies, Except.toOption] using made

/-- The pairing with its alias and an outstanding Offer outlast the restart. -/
theorem largerConfig_passes :
    ((soloOffered.store.grants.get? soloKey).any fun row => row.snapshot.state = .offered) = true ∧
      (∃ other, machineTopology largerConfig = .ok (some other)) ∧
      ∃ result, machineOfferBeforeNative largerConfig false idleInput licenseView
        soloOffered.store = .ok result := by
  obtain ⟨topology, paired⟩ : ∃ topology, machineTopology seatConfig = .ok (some topology) :=
    ⟨_, rfl⟩
  refine ⟨by decide +kernel, (pass_succeeds_iff_configured paired soloOffered_reached
    (idleInput_queued _ rfl _)).mpr ⟨by decide +kernel, fun _ => ⟨?_, ?_, ?_, ?_⟩⟩⟩
  · obtain ⟨larger, made, expands, _⟩ := largerConfig_expands
    exact fun claims member => (expandClaims_iff made).mp (expands claims member)
  · obtain ⟨larger, made, _, expands⟩ := largerConfig_expands
    exact fun key row found _ _ =>
      (expandClaims_iff made).mp (expands (key, row) (Table.mem_rows.mpr found))
  · intro reservation member
    cases member
  · have none_ : remoteReservations soloOffered.store
        (max idleInput.now soloOffered.store.scheduleMs) = [] := by decide +kernel
    intro reservation member
    rw [none_] at member
    cases member

/-- Without the license the pairing is refused, and where nothing is aliased to
it, the Lease that holds it stops the pass. -/
theorem removed_license_stops_passes :
    (∃ topology, machineTopology seatConfig = .ok (some topology)) ∧
      machineTopology (seatConfig.restart soloConfig.capacities "new") =
        .error (.invalidState "alias has an unknown domain or physical resource") ∧
      (∃ result, machineOfferBeforeNative licenseConfig false idleInput licenseView
        (.initial licenseConfig) = .ok (some result)) ∧
      machineOfferBeforeNative (licenseConfig.restart soloConfig.capacities "new") false idleInput
        licenseView (.initial licenseConfig) =
          .error (.invalidState "unmapped physical resource license") :=
  ⟨⟨_, rfl⟩, rfl, ⟨_, rfl⟩, rfl⟩

end Stillyard
