import Stillyard.Admission.Topology

/-!
# Claims against the Leases of ancestors

A managed process that waits for a Job keeps its own Leases, and so do its
ancestors.  `ancestor_blockers` tests whether a claim can be granted while they
are held.  It treats a missing debit, an overflow and a claim above the capacity
in its own way; the module shows that it is nevertheless empty for the same vectors
as the full-vector test, the scalar and the non-scalar test together, and the
decision that grants.
-/

namespace Stillyard

open Relational Fallible

def ResolvedClaims.scalarBlockers (claims : ResolvedClaims) (capacities : ResourceCapacities)
    (debits : List ResolvedClaims) : List Blocker :=
  scalarVectorBlockers (scalarEntries claims) (legacyCapacities capacities)
    (debits.map scalarEntries) id

def ancestorScalarBlocker (name : String) (requested capacity : Nat) (retained : Option Nat) :
    List Blocker :=
  if requested = 0 then []
  else if capacity < requested then
    [⟨"resource_capacity", s!"{name}: requested {requested}, configured capacity {capacity}"⟩]
  else match retained with
    | none => [⟨"blocked_by_ancestor", s!"{name}: retained ancestor debit sum overflow"⟩]
    | some retained =>
      if retained = 0 then []
      else
        let available := capacity - retained
        if available < requested then
          [⟨"blocked_by_ancestor", s!"{name}: requested {requested}, " ++
            s!"available while ancestors retain Leases {available}, configured {capacity}"⟩]
        else []

/-- `scalar_vector_blockers` with `ancestors_only = true`. -/
def ancestorVectorBlockers (claims capacities : Table String Nat)
    (debits : List (Table String Nat)) : List Blocker :=
  sortBlockers <| claims.rows.flatMap fun entry =>
    ancestorScalarBlocker entry.1 entry.2 (amount capacities entry.1)
      (checkedTotal (debits.map fun debit => amount debit entry.1))

def ancestorFenceBlocker (fence : String) : Blocker :=
  ⟨"blocked_by_ancestor", s!"path fence retained by an ancestor: {fence}"⟩

/-- The blockers between two sets of impacts. -/
def ancestorImpactBlockers (impacts held : List String) (rules : Table String (List String)) :
    List Blocker :=
  impacts.flatMap fun impact =>
    (held.filter fun other => impactsConflict impact other rules).map fun other =>
      ⟨"blocked_by_ancestor", s!"impact {impact} incompatible with ancestor {other}"⟩

def ResolvedClaims.ancestorBlockers (claims : ResolvedClaims) (capacities : ResourceCapacities)
    (ancestors : List ResolvedClaims) (rules : Table String (List String)) : List Blocker :=
  sortBlockers <|
    ancestorVectorBlockers (scalarEntries claims) (legacyCapacities capacities)
        (ancestors.map scalarEntries) ++
      ancestors.flatMap fun held =>
        (fenceConflicts claims.exclusiveFences claims.sharedFences
            held.exclusiveFences held.sharedFences).map ancestorFenceBlocker ++
          ancestorImpactBlockers claims.impacts held.impacts rules

/-- Every scalar is a `u64`. -/
def ResolvedClaims.Words (claims : ResolvedClaims) : Prop := ∀ name, claims.debit name < u64Bound

variable {φ : Type*} {exclusive shared heldExclusive heldShared : List φ}

theorem fenceConflicts_eq_nil [DecidableEq φ] :
    fenceConflicts exclusive shared heldExclusive heldShared = [] ↔
      (∀ fence ∈ exclusive, fence ∉ heldExclusive) ∧ (∀ fence ∈ exclusive, fence ∉ heldShared) ∧
        ∀ fence ∈ shared, fence ∉ heldExclusive := by
  simp [fenceConflicts, List.filter_eq_nil_iff]

/-- A renaming that separates fences neither adds nor removes a conflict. -/
private theorem fenceConflicts_map {ψ : Type*} [DecidableEq φ] [DecidableEq ψ] {rename : φ → ψ}
    (separates : Function.Injective rename) :
    fenceConflicts (exclusive.map rename) (shared.map rename) (heldExclusive.map rename)
        (heldShared.map rename) = [] ↔
      fenceConflicts exclusive shared heldExclusive heldShared = [] := by
  simp only [fenceConflicts_eq_nil, List.forall_mem_map, List.mem_map_of_injective separates]

section

variable {claims : ResolvedClaims} {capacities : ResourceCapacities} {active : List ResolvedClaims}
  {rules : Table String (List String)}

/-- A claimed scalar fits next to the debits. -/
def ScalarFits (claims : ResolvedClaims) (capacities : ResourceCapacities)
    (debits : List ResolvedClaims) (name : String) : Prop :=
  ∃ used, checkedTotal (debits.map fun debit => debit.debit name) = some used ∧
    claims.debit name ≤ capacities.of name - used

/-- No fence and no impact of the claims conflicts with the debits. -/
def NonScalarClear (claims : ResolvedClaims) (debits : List ResolvedClaims)
    (rules : Table String (List String)) : Prop :=
  ∀ held ∈ debits, fenceConflicts claims.exclusiveFences claims.sharedFences
      held.exclusiveFences held.sharedFences = [] ∧
    ∀ impact ∈ claims.impacts, ∀ other ∈ held.impacts, impactsConflict impact other rules = false

private theorem completeCapacities_isSome (listed : name ∈ names ∨ (table.get? name).isSome) :
    ((completeCapacities table names).get? name).isSome := by
  unfold completeCapacities
  induction names generalizing table with
  | nil => exact listed.resolve_left List.not_mem_nil
  | cons first rest ih =>
    rw [List.foldl_cons]
    apply ih
    obtain listed | stored := listed
    · cases List.mem_cons.mp listed with
      | inr later => exact .inl later
      | inl same =>
        right
        subst same
        split
        · assumption
        · rw [Table.get?_set, if_pos rfl]
          rfl
    · right
      split
      · exact stored
      · rw [Table.get?_set]
        split
        · rfl
        · exact stored

/-- The topology with one scope in which the flat test is made. -/
private theorem new_flat (flat : Table String Nat) :
    ∃ topology, ResourceTopology.new 0 [⟨0, none, flat⟩] .empty = .ok topology := ⟨_, rfl⟩

private theorem impactBlockers_eq_nil :
    impactBlockers impacts held rules = [] ↔
      ∀ impact ∈ impacts, ∀ other ∈ held, impactsConflict impact other rules = false := by
  simp [impactBlockers, List.filter_eq_nil_iff]

private theorem ancestorImpactBlockers_eq_nil :
    ancestorImpactBlockers impacts held rules = [] ↔
      ∀ impact ∈ impacts, ∀ other ∈ held, impactsConflict impact other rules = false := by
  simp [ancestorImpactBlockers, List.filter_eq_nil_iff]

theorem ResolvedClaims.nonScalarBlockers_eq_nil :
    claims.nonScalarBlockers active rules = [] ↔ NonScalarClear claims active rules := by
  simp only [nonScalarBlockers, sortBlockers_eq_nil, List.flatMap_eq_nil_iff,
    List.append_eq_nil_iff, List.map_eq_nil_iff, impactBlockers_eq_nil, NonScalarClear]

/-- The parts of an expansion that are no scalars. -/
private theorem fences_of_expand {topology : ResourceTopology} {expanded : ScopedClaims}
    (computed : topology.expand domain claims = .ok expanded) :
    expanded.sharedFences = claims.sharedFences.map (⟨domain, .filesystemFence, ·⟩) ∧
      expanded.exclusiveFences = claims.exclusiveFences.map (⟨domain, .filesystemFence, ·⟩) ∧
      expanded.impacts = claims.impacts := by
  simp only [ResourceTopology.expand, ok_iff] at computed
  obtain ⟨_, _, _, _, rfl⟩ := computed
  exact ⟨rfl, rfl, rfl⟩

/-- The scalars of two vectors over flat names fit one by one. -/
theorem fits_scalarEntries :
    fits (scalarEntries claims) (legacyCapacities capacities) (active.map scalarEntries) = true ↔
      ∀ name, claims.debit name ≠ 0 → ScalarFits claims capacities active name := by
  rw [fits_iff]
  simp only [List.map_map]
  rfl

/-- In the topology of the flat test an expanded vector meets the conflicts of
the vector it comes from. -/
private theorem nonScalarClear_expand {topology : ResourceTopology} {expanded : ScopedClaims}
    (computed : topology.expand 0 claims = .ok expanded)
    (mapped : active.mapM (topology.expand 0) = .ok held) :
    (∀ debit ∈ held, fenceConflicts expanded.exclusiveFences expanded.sharedFences
        debit.exclusiveFences debit.sharedFences = [] ∧
      ∀ impact ∈ expanded.impacts, ∀ other ∈ debit.impacts,
        impactsConflict impact other rules = false) ↔ NonScalarClear claims active rules := by
  have separates : Function.Injective fun name : String =>
      (⟨0, .filesystemFence, name⟩ : ScopedResourceId) := by
    intro left right same
    cases same
    rfl
  obtain ⟨shared, exclusive, impacts⟩ := fences_of_expand computed
  rw [shared, exclusive, impacts]
  constructor
  · intro every claim member
    obtain ⟨debit, listed, expandedHeld⟩ := result_of_mapM mapped claim member
    obtain ⟨heldShared, heldExclusive, heldImpacts⟩ := fences_of_expand expandedHeld
    have clear := every debit listed
    rwa [heldShared, heldExclusive, heldImpacts, fenceConflicts_map separates] at clear
  · intro every debit member
    obtain ⟨claim, listed, expandedHeld⟩ := mem_of_mapM mapped debit member
    obtain ⟨heldShared, heldExclusive, heldImpacts⟩ := fences_of_expand expandedHeld
    rw [heldShared, heldExclusive, heldImpacts, fenceConflicts_map separates]
    exact every claim listed

/-- The topology of the flat test: one scope whose budgets are the completed
capacities. -/
private structure FlatTopology (topology : ResourceTopology) (flat : Table String Nat) : Prop where
  root : topology.root = 0
  aliases : topology.aliases = .empty
  keys : topology.domains.keys = [0]
  budget : ∀ name, topology.budget 0 name = flat.get? name
  above : ∃ path, topology.ancestors 0 = .ok path

private theorem flatTopology_of_new
    (created : ResourceTopology.new 0 [⟨0, none, flat⟩] .empty = .ok topology) :
    FlatTopology topology flat := by
  obtain ⟨root, domains, aliases⟩ := ResourceTopology.root_of_new created
  have keys : topology.domains.keys = [0] := ResourceTopology.keys_collect domains
  refine ⟨root, aliases, keys, ?_, ResourceTopology.ancestors_of_new created ?_⟩
  · intro name
    rw [ResourceTopology.collect_singleton, Option.some.injEq] at domains
    rw [ResourceTopology.budget, ← domains, Table.get?_set, if_pos rfl, Option.bind_some]
  · rw [keys]
    exact List.mem_singleton.mpr rfl

namespace FlatTopology

variable {topology : ResourceTopology} {flat : Table String Nat} {held : List ScopedClaims}
  {name : String}

variable (one : FlatTopology topology flat)

include one

/-- Words expand if all their names have a budget. -/
private theorem expands (words : claims.Words)
    (budgeted : ∀ entry ∈ (scalarEntries claims).rows, (flat.get? entry.1).isSome) :
    ∃ expanded, topology.expand 0 claims = .ok expanded := by
  apply ResourceTopology.expand_iff.mpr
  refine ⟨one.above, ?_, ?_⟩
  · intro entry listed _
    rw [one.root, one.budget, ResourceTopology.translate, one.aliases, Table.get?_empty,
      Option.getD_none]
    exact budgeted entry listed
  · intro name
    rw [ResourceTopology.claimOn_of_no_aliases one.aliases]
    exact words name

/-- Everything that an expansion debits is a name with a budget. -/
private theorem named {id : ScopedResourceId} (computed : topology.expand 0 claims = .ok expanded)
    (debited : expanded.debit id ≠ 0) :
    id = scalarId 0 id.resourceId ∧ (flat.get? id.resourceId).isSome := by
  obtain ⟨kind, constrained⟩ := ResourceTopology.constrains_of_debit_ne_zero computed debited
  have scope : id.scope = 0 := by
    cases stored : topology.domains.get? id.scope with
    | none =>
      have budgeted := constrained.2
      rw [ResourceTopology.budget, stored] at budgeted
      cases budgeted
    | some domain =>
      have key : id.scope ∈ topology.domains.keys := by
        rw [← Table.get?_isSome, stored]
        rfl
      rw [one.keys] at key
      exact List.mem_singleton.mp key
  constructor
  · rw [scalarId, ← scope, ← kind]
  · rw [← one.budget, ← scope]
    exact constrained.2

private theorem debit (budgeted : (flat.get? name).isSome)
    (computed : topology.expand 0 claims = .ok expanded) :
    expanded.debit (scalarId 0 name) = claims.debit name := by
  have constrained : topology.Constrains 0 0 name := by
    refine ⟨.self 0, ?_⟩
    rw [one.budget]
    exact budgeted
  rw [ResourceTopology.debit_expand computed constrained,
    ResourceTopology.claimOn_of_no_aliases one.aliases]

/-- At a name with a budget the scoped and the flat test look at the same debits. -/
private theorem debits (budgeted : (flat.get? name).isSome)
    (mapped : active.mapM (topology.expand 0) = .ok held) :
    (held.map ScopedClaims.scalars).map (fun scalars => amount scalars (scalarId 0 name)) =
      active.map fun claim => claim.debit name := by
  rw [List.map_map]
  exact map_of_mapM (fun claim _ expandedClaim => one.debit budgeted) mapped

private theorem capacity :
    amount topology.capacities (scalarId 0 name) = amount flat name := by
  rw [ResourceTopology.amount_capacities, one.budget, amount]

end FlatTopology

/-- Words always expand, and what has no full-vector blocker is what fits name by
name without conflicts. -/
theorem legacyFullVectorBlockers_eq_ok (own : claims.Words) (others : ∀ held ∈ active, held.Words) :
    ∃ blockers, legacyFullVectorBlockers claims capacities active rules = .ok blockers ∧
      (blockers = [] ↔ (∀ name, claims.debit name ≠ 0 → ScalarFits claims capacities active name) ∧
        NonScalarClear claims active rules) := by
  simp only [legacyFullVectorBlockers, ok_iff]
  obtain ⟨topology, created⟩ := new_flat (completeCapacities (legacyCapacities capacities)
    ((claims :: active).flatMap fun claim => (scalarEntries claim).keys))
  have one := flatTopology_of_new created
  have budgeted : ∀ claim ∈ claims :: active, ∀ entry ∈ (scalarEntries claim).rows,
      ((completeCapacities (legacyCapacities capacities)
        ((claims :: active).flatMap fun claim => (scalarEntries claim).keys)).get?
          entry.1).isSome := by
    intro claim member entry listed
    apply completeCapacities_isSome
    exact .inl (List.mem_flatMap.mpr ⟨claim, member, List.mem_map_of_mem listed⟩)
  obtain ⟨expanded, computed⟩ := one.expands own (budgeted claims List.mem_cons_self)
  obtain ⟨held, mapped⟩ := mapM_of_forall fun claim member =>
    one.expands (others claim member) (budgeted claim (List.mem_cons_of_mem _ member))
  refine ⟨_, ⟨topology, created, expanded, computed, held, mapped, rfl⟩, ?_⟩
  simp only [ScopedClaims.blockers, sortBlockers_eq_nil, List.append_eq_nil_iff,
    scalarVectorBlockers_eq_nil, fits_iff, List.flatMap_eq_nil_iff, List.map_eq_nil_iff,
    impactBlockers_eq_nil]
  apply and_congr ?_ (nonScalarClear_expand computed mapped)
  constructor
  · intro every name asked
    have stored : ((completeCapacities (legacyCapacities capacities)
        ((claims :: active).flatMap fun claim =>
          (scalarEntries claim).keys)).get? name).isSome := by
      cases found : (scalarEntries claims).get? name with
      | none =>
        rw [ResolvedClaims.debit, amount, found] at asked
        exact absurd rfl asked
      | some value =>
        exact budgeted claims List.mem_cons_self (name, value) (Table.mem_rows.mpr found)
    have fit := every (scalarId 0 name)
    rw [← ScopedClaims.debit, one.debit stored computed, one.debits stored mapped, one.capacity,
      amount_completeCapacities] at fit
    exact fit asked
  · intro every id asked
    obtain ⟨named, stored⟩ := one.named computed asked
    rw [named, ← ScopedClaims.debit, one.debit stored computed] at asked
    rw [named, ← ScopedClaims.debit, one.debit stored computed, one.debits stored mapped,
      one.capacity, amount_completeCapacities]
    exact every id.resourceId asked

/-! ## The four tests agree -/

private theorem ancestorScalarBlocker_eq_nil :
    ancestorScalarBlocker name requested capacity retained = [] ↔
      requested = 0 ∨ retained.any (fun used => requested ≤ capacity - used) = true := by
  by_cases zero : requested = 0
  · simp [ancestorScalarBlocker, zero]
  · by_cases above : capacity < requested
    · cases retained with
      | none => simp [ancestorScalarBlocker, zero, above]
      | some used => simp [ancestorScalarBlocker, zero, above]; omega
    · cases retained with
      | none => simp [ancestorScalarBlocker, zero, above]
      | some used =>
        by_cases nothing : used = 0
        · simp [ancestorScalarBlocker, zero, above, nothing, Nat.le_of_not_lt above]
        · simp [ancestorScalarBlocker, zero, above, nothing]

theorem ResolvedClaims.ancestorBlockers_eq_nil :
    claims.ancestorBlockers capacities active rules = [] ↔
      (∀ name, claims.debit name ≠ 0 → ScalarFits claims capacities active name) ∧
        NonScalarClear claims active rules := by
  rw [← fits_scalarEntries]
  simp only [ancestorBlockers, ancestorVectorBlockers, sortBlockers_eq_nil,
    List.append_eq_nil_iff, List.flatMap_eq_nil_iff, List.map_eq_nil_iff,
    ancestorScalarBlocker_eq_nil, ancestorImpactBlockers_eq_nil, NonScalarClear, fits,
    List.all_eq_true, Bool.or_eq_true, decide_eq_true_eq]

theorem ResolvedClaims.scalarBlockers_eq_nil :
    claims.scalarBlockers capacities active = [] ↔
      ∀ name, claims.debit name ≠ 0 → ScalarFits claims capacities active name := by
  rw [scalarBlockers, scalarVectorBlockers_eq_nil, fits_scalarEntries]

/-- Against the Leases of ancestors the two tests agree: what has no ancestor
blocker has no full-vector blocker. -/
theorem legacyFullVectorBlockers_of_ancestorBlockers (own : claims.Words)
    (others : ∀ held ∈ active, held.Words)
    (clear : claims.ancestorBlockers capacities active rules = []) :
    legacyFullVectorBlockers claims capacities active rules = .ok [] := by
  obtain ⟨blockers, computed, none_⟩ := legacyFullVectorBlockers_eq_ok own others
  rw [computed, none_.mpr (ResolvedClaims.ancestorBlockers_eq_nil.mp clear)]

/-- The checked test is exact: below the word bound of a capacity no sum that
fits overflows. -/
private theorem scalarFits_iff (word : capacities.of name < u64Bound)
    (asked : claims.debit name ≠ 0) :
    ScalarFits claims capacities active name ↔
      (active.map fun held => held.debit name).sum + claims.debit name ≤ capacities.of name := by
  rw [ScalarFits]
  constructor
  · rintro ⟨used, total, room⟩
    rw [← checkedTotal_eq_some total]
    omega
  · intro room
    exact ⟨_, checkedTotal_of_lt (by omega), by omega⟩

/-- Words have no full-vector blocker exactly if the sums stay within the capacities
and nothing conflicts. -/
theorem legacyFullVectorBlockers_eq_nil (own : claims.Words) (others : ∀ held ∈ active, held.Words)
    (words : ∀ name, capacities.of name < u64Bound) :
    legacyFullVectorBlockers claims capacities active rules = .ok [] ↔
      (∀ name, claims.debit name ≠ 0 →
        (active.map fun held => held.debit name).sum + claims.debit name ≤ capacities.of name) ∧
      NonScalarClear claims active rules := by
  obtain ⟨blockers, computed, none_⟩ := legacyFullVectorBlockers_eq_ok own others
  rw [computed, Except.ok.injEq, none_]
  exact and_congr_left' (forall_congr' fun name => forall_congr' (scalarFits_iff (words name)))

/-- Without reservations, a backoff or a reservation of its own a vector is
granted exactly if it fits. -/
private theorem localReservationDecision_eq_grant {higherOverlaps : Bool} :
    localReservationDecision claims capacities active [] none higherOverlaps none now = .grant ↔
      fits (scalarEntries claims) (legacyCapacities capacities) (active.map scalarEntries) =
        true := by
  simp only [localReservationDecision, reservationDecision, List.map_nil, List.append_nil,
    Option.any_none, Bool.false_eq_true, if_false]
  constructor
  · intro granted
    split at granted
    · cases granted
    · split at granted
      · assumption
      · split at granted
        · cases granted
        · cases granted
  · intro fit
    simp [fit, fits_nil fit]

/-- The full-vector test never panics.  It agrees with the scalar and the
non-scalar test together and with the test against ancestors; the scalar test is
the exact inequality of sums, and it is the decision that grants. -/
theorem fit_tests_agree (own : claims.Words) (others : ∀ held ∈ active, held.Words)
    (words : ∀ name, capacities.of name < u64Bound) :
    (∃ blockers, legacyFullVectorBlockers claims capacities active rules = .ok blockers ∧
      (blockers = [] ↔ claims.scalarBlockers capacities active = [] ∧
        claims.nonScalarBlockers active rules = []) ∧
      (blockers = [] ↔ claims.ancestorBlockers capacities active rules = [])) ∧
    (claims.scalarBlockers capacities active = [] ↔ ∀ name, 0 < claims.debit name →
      (active.map fun held => held.debit name).sum + claims.debit name ≤ capacities.of name) ∧
    ∀ higherOverlaps now, claims.scalarBlockers capacities active = [] ↔
      localReservationDecision claims capacities active [] none higherOverlaps none now =
        .grant := by
  refine ⟨?_, ?_, ?_⟩
  · obtain ⟨blockers, computed, none_⟩ := legacyFullVectorBlockers_eq_ok own others
    refine ⟨blockers, computed, ?_, ?_⟩
    · rw [none_, ResolvedClaims.scalarBlockers_eq_nil, ResolvedClaims.nonScalarBlockers_eq_nil]
    · rw [none_, ResolvedClaims.ancestorBlockers_eq_nil]
  · rw [ResolvedClaims.scalarBlockers_eq_nil]
    apply forall_congr'
    intro name
    rw [Nat.pos_iff_ne_zero]
    exact forall_congr' fun asked => scalarFits_iff (words name) asked
  · intro higherOverlaps now
    rw [localReservationDecision_eq_grant, ResolvedClaims.scalarBlockers,
      scalarVectorBlockers_eq_nil]

theorem words_of_rows
    (each : ∀ entry ∈ (scalarEntries claims).rows, entry.2 < u64Bound) : claims.Words :=
  (forall_rows_amount (scalarEntries claims) (fun _ value => value < u64Bound)
    fun _ => Nat.two_pow_pos 64).mp each

private def twoUnits : ResolvedClaims := { ResolvedClaims.default with cpuUnits := 2 }

private def fourUnits : ResourceCapacities := ⟨4, 0, 0, 0, .empty⟩

/-- The last two of four units are granted beside a Lease of two. -/
theorem fit_tests_agree_at_capacity :
    (∃ blockers, legacyFullVectorBlockers twoUnits fourUnits [twoUnits] .empty = .ok blockers ∧
      blockers = []) ∧
    localReservationDecision twoUnits fourUnits [twoUnits] [] none true none 0 = .grant := by
  have words : twoUnits.Words := words_of_rows (by decide +kernel)
  have others : ∀ held ∈ [twoUnits], held.Words := List.forall_mem_singleton.mpr words
  have capacity : ∀ name, fourUnits.of name < u64Bound :=
    (forall_rows_amount (legacyCapacities fourUnits) (fun _ value => value < u64Bound)
      fun _ => Nat.two_pow_pos 64).mp (by decide +kernel)
  obtain ⟨⟨blockers, computed, split, _⟩, _, granted⟩ :=
    @fit_tests_agree twoUnits fourUnits [twoUnits] .empty words others capacity
  have fit : twoUnits.scalarBlockers fourUnits [twoUnits] = [] := by decide +kernel
  exact ⟨⟨blockers, computed, split.mpr ⟨fit, by decide +kernel⟩⟩, (granted true 0).mp fit⟩

end

end Stillyard
