import Stillyard.Admission.Decision
import Stillyard.Lib.Fallible

/-!
# Hierarchical resource scopes

Execution domains form a tree under the machine root.  A domain may carry a
budget for some physical scalars, and may name physical scalars by aliases of
its own.  `expand` turns flat claims of one domain into one scalar entry for
every scope that constrains them: the physical amount is repeated, never split,
along the path to the root.

The second half of the module says what an expanded vector contains, in terms
of the tree: an entry exists exactly for the domain itself and its ancestors
that have a budget for the name, and it is the sum of all claimed amounts that
translate to that name.
-/

namespace Stillyard

open Relational Fallible

variable {domains path : List DomainBudget} {start collected : Table ExecutionDomainId DomainBudget}
  {id domain scope root : ExecutionDomainId} {name : String} {physical : Table String Nat}
  {entry : String × Nat} {rows : List (String × Nat)} {claims : ResolvedClaims}
  {expanded : ScopedClaims} {aliases : Table (ExecutionDomainId × String) String}
  {topology : ResourceTopology}

/-- `Uuid`; the nil UUID is zero. -/
abbrev Uuid := Nat

abbrev ExecutionDomainId := Uuid

inductive ResourceKind where
  | scalar
  | filesystemFence
  | impact
  deriving DecidableEq, Repr

structure ScopedResourceId where
  scope : ExecutionDomainId
  kind : ResourceKind
  resourceId : String
  deriving DecidableEq, Repr

/-- The scalar `name` as constrained by the domain `scope`. -/
def scalarId (scope : ExecutionDomainId) (name : String) : ScopedResourceId :=
  ⟨scope, .scalar, name⟩

def ScopedResourceId.display (id : ScopedResourceId) : String :=
  if id.scope = 0 then id.resourceId else s!"{id.resourceId} in domain {id.scope}"

/-- `DomainBudget`.  A missing budget adds no constraint, a present zero is
zero. -/
structure DomainBudget where
  id : ExecutionDomainId
  parent : Option ExecutionDomainId
  capacities : Table String Nat

/-- `ResourceTopology`.  Every budget is stored under its own domain. -/
structure ResourceTopology where
  root : ExecutionDomainId
  domains : Table ExecutionDomainId DomainBudget
  aliases : Table (ExecutionDomainId × String) String
  idOfKey : ∀ id budget, domains.get? id = some budget → budget.id = id

structure ScopedClaims where
  scalars : Table ScopedResourceId Nat
  sharedFences : List ScopedResourceId
  exclusiveFences : List ScopedResourceId
  impacts : List String

/-- What an expanded allocation takes from each scoped resource. -/
def ScopedClaims.debit (claims : ScopedClaims) : ScopedResourceId → Nat := amount claims.scalars

namespace ResourceTopology

variable (topology : ResourceTopology)

/-- The loop of `ancestors`: `fuel` domains may still be added, `seen` are the
domains already passed. -/
def ancestorsFrom : Nat → ExecutionDomainId → List ExecutionDomainId →
    Except String (List DomainBudget)
  | 0, _, _ => .error "domain tree is cyclic or deeper than 16"
  | fuel + 1, id, seen =>
    if id ∈ seen then .error "domain tree is cyclic or deeper than 16"
    else match topology.domains.get? id with
      | none => .error "unknown domain"
      | some domain => match domain.parent with
        | some parent => (ancestorsFrom fuel parent (id :: seen)).map (domain :: ·)
        | none =>
          if id = topology.root then .ok [domain]
          else .error "domain is disconnected from machine root"

/-- `ResourceTopology::ancestors`: the domain itself first, the root last. -/
def ancestors (id : ExecutionDomainId) : Except String (List DomainBudget) :=
  topology.ancestorsFrom 16 id []

/-- The budget a domain has for a physical scalar. -/
def budget (domain : ExecutionDomainId) (name : String) : Option Nat :=
  (topology.domains.get? domain).bind fun budget => budget.capacities.get? name

/-- The physical name that a claim name of a domain stands for. -/
def translate (domain : ExecutionDomainId) (name : String) : String :=
  (topology.aliases.get? (domain, name)).getD name

/-- One round of the first loop of `expand`. -/
def addPhysical (domain : ExecutionDomainId) (physical : Table String Nat)
    (entry : String × Nat) : Except String (Table String Nat) :=
  if entry.2 = 0 then .ok physical
  else
    let name := topology.translate domain entry.1
    if (topology.budget topology.root name).isNone then
      .error s!"unmapped physical resource {name}"
    else match checkedAdd (amount physical name) entry.2 with
      | none => .error "physical claim overflow"
      | some value => .ok (physical.set name value)

/-- One round of the second loop of `expand`: an entry for every ancestor with
a budget for the name. -/
def addScopes (ancestors : List DomainBudget) (scalars : Table ScopedResourceId Nat)
    (entry : String × Nat) : Table ScopedResourceId Nat :=
  ancestors.foldl
    (fun scalars ancestor =>
      if (ancestor.capacities.get? entry.1).isSome then
        scalars.set (scalarId ancestor.id entry.1) entry.2
      else scalars)
    scalars

def expand (domain : ExecutionDomainId) (claims : ResolvedClaims) :
    Except String ScopedClaims := do
  let ancestors ← topology.ancestors domain
  let physical ← (scalarEntries claims).rows.foldlM (topology.addPhysical domain) .empty
  let fence (name : String) : ScopedResourceId := ⟨domain, .filesystemFence, name⟩
  return {
    scalars := physical.rows.foldl (addScopes ancestors) .empty
    sharedFences := claims.sharedFences.map fence
    exclusiveFences := claims.exclusiveFences.map fence
    impacts := claims.impacts }

/-- `ResourceTopology::capacities`: all budgets under scoped names. -/
def capacities : Table ScopedResourceId Nat :=
  topology.domains.values.foldl
    (fun flat domain => flat.setAll (scalarId domain.id) domain.capacities) .empty

/-- The domain table that `ResourceTopology::new` collects, `none` if two
domains share an id. -/
def collect (domains : List DomainBudget) : Option (Table ExecutionDomainId DomainBudget) :=
  domains.foldlM (fun collected domain => collected.insert? domain.id domain) .empty

@[simp] theorem collect_singleton (domain : DomainBudget) :
    collect [domain] = some (Table.empty.set domain.id domain) := by
  simp [collect, Table.insert?, Table.keys, Table.empty]

private theorem collect_idOfKey (keyed : ∀ id budget, start.get? id = some budget → budget.id = id)
    (folded : domains.foldlM (fun collected domain => collected.insert? domain.id domain) start =
      some collected) : ∀ id budget, collected.get? id = some budget → budget.id = id := by
  induction domains generalizing start with
  | nil =>
    simp only [List.foldlM_nil, Option.pure_def, Option.some.injEq] at folded
    rwa [← folded]
  | cons domain rest ih =>
    simp only [List.foldlM_cons, Option.bind_eq_bind] at folded
    obtain ⟨middle, inserted, restFolded⟩ := Option.bind_eq_some_iff.mp folded
    refine ih ?_ restFolded
    intro id budget found
    rw [(Table.insert?_eq_some.mp inserted).2, Table.get?_set] at found
    split at found
    · next same => cases found; exact same.symm
    · exact keyed id budget found

def new (root : ExecutionDomainId) (domains : List DomainBudget)
    (aliases : Table (ExecutionDomainId × String) String) : Except String ResourceTopology :=
  if domains.isEmpty || 256 < domains.length then .error "topology requires 1..256 domains"
  else match collected : collect domains with
    | none => .error "duplicate domain or invalid machine root"
    | some table =>
      let topology : ResourceTopology :=
        ⟨root, table, aliases, collect_idOfKey (by simp) collected⟩
      if (table.get? root).all (fun domain => domain.parent.isSome) then
        .error "duplicate domain or invalid machine root"
      else do
        table.keys.forM fun id => (topology.ancestors id).map fun _ => ()
        if aliases.rows.any fun entry =>
            (table.get? entry.1.1).isNone || (topology.budget root entry.2).isNone then
          .error "alias has an unknown domain or physical resource"
        else .ok topology

/-- The second domain is the first one or one of its ancestors. -/
inductive Below : ExecutionDomainId → ExecutionDomainId → Prop where
  | self (domain : ExecutionDomainId) : Below domain domain
  | child {domain parent ancestor : ExecutionDomainId} {budget : DomainBudget} :
      topology.domains.get? domain = some budget → budget.parent = some parent →
      Below parent ancestor → Below domain ancestor

variable {topology}

/-- The path computed by `ancestors` holds the budgets of exactly the domains
above the start. -/
private theorem mem_ancestorsFrom (computed : topology.ancestorsFrom fuel id seen = .ok path)
    (budget : DomainBudget) :
    budget ∈ path ↔
      topology.domains.get? budget.id = some budget ∧ topology.Below id budget.id := by
  induction fuel generalizing id seen path with
  | zero => simp [ancestorsFrom] at computed
  | succ fuel ih =>
    simp only [ancestorsFrom] at computed
    split at computed
    · cases computed
    · split at computed
      · cases computed
      · next domain known =>
        have named := topology.idOfKey id domain known
        split at computed
        · next parent hasParent =>
          obtain ⟨rest, above, rfl⟩ := map_eq_ok.mp computed
          rw [List.mem_cons, ih above]
          constructor
          · rintro (rfl | ⟨stored, below⟩)
            · rw [named]
              exact ⟨known, .self _⟩
            · exact ⟨stored, .child known hasParent below⟩
          · rintro ⟨stored, below⟩
            cases below with
            | self =>
              left
              rw [stored] at known
              exact Option.some.inj known
            | child known' hasParent' below =>
              right
              rw [known] at known'
              cases known'
              rw [hasParent] at hasParent'
              cases hasParent'
              exact ⟨stored, below⟩
        · next orphan =>
          split at computed
          · cases computed
            rw [List.mem_singleton]
            constructor
            · rintro rfl
              rw [named]
              exact ⟨known, .self _⟩
            · rintro ⟨stored, below⟩
              cases below with
              | self =>
                rw [stored] at known
                exact Option.some.inj known
              | child known' hasParent' below =>
                rw [known] at known'
                cases known'
                rw [orphan] at hasParent'
                cases hasParent'
          · cases computed

theorem mem_ancestors (computed : topology.ancestors id = .ok path) (budget : DomainBudget) :
    budget ∈ path ↔
      topology.domains.get? budget.id = some budget ∧ topology.Below id budget.id :=
  mem_ancestorsFrom computed budget

/-- A scope constrains a name of a domain if it lies above the domain and has a
budget for the name. -/
def Constrains (topology : ResourceTopology) (scope domain : ExecutionDomainId)
    (name : String) : Prop :=
  topology.Below domain scope ∧ (topology.budget scope name).isSome

theorem constrains_iff (computed : topology.ancestors domain = .ok path) :
    topology.Constrains scope domain name ↔
      ∃ budget ∈ path, budget.id = scope ∧ (budget.capacities.get? name).isSome := by
  constructor
  · rintro ⟨below, budgeted⟩
    cases stored : topology.domains.get? scope with
    | none => simp [ResourceTopology.budget, stored] at budgeted
    | some budget =>
      have named := topology.idOfKey scope budget stored
      refine ⟨budget, (mem_ancestors computed budget).mpr ?_, named, ?_⟩
      · rw [named]
        exact ⟨stored, below⟩
      · simpa [ResourceTopology.budget, stored] using budgeted
  · rintro ⟨budget, member, rfl, budgeted⟩
    obtain ⟨stored, below⟩ := (mem_ancestors computed budget).mp member
    exact ⟨below, by simpa [ResourceTopology.budget, stored] using budgeted⟩

/-! ## What an expansion contains -/

/-- An allocation's claim on a physical name after alias translation: all
claimed amounts that translate to the name, added together. -/
def claimOn (topology : ResourceTopology) (domain : ExecutionDomainId) (claims : ResolvedClaims)
    (name : String) : Nat :=
  (scalarEntries claims).sum fun claimed value =>
    if topology.translate domain claimed = name then value else 0

/-- One round adds the claimed amount to its translated name. -/
private theorem amount_addPhysical (added : topology.addPhysical domain physical entry = .ok next)
    (name : String) :
    amount next name = amount physical name +
      if topology.translate domain entry.1 = name then entry.2 else 0 := by
  simp only [addPhysical] at added
  split at added
  · next zero =>
    cases added
    simp [zero]
  · split at added
    · cases added
    · split at added
      · cases added
      · next total computed =>
        cases added
        simp only [checkedAdd] at computed
        split at computed
        · cases computed
          by_cases same : topology.translate domain entry.1 = name
          · subst same
            simp [amount]
          · simp [amount, same, Ne.symm same]
        · cases computed

private theorem amount_foldlM_addPhysical {start : Table String Nat}
    (folded : rows.foldlM (topology.addPhysical domain) start = .ok physical) (name : String) :
    amount physical name = amount start name +
      (rows.map fun entry =>
        if topology.translate domain entry.1 = name then entry.2 else 0).sum := by
  induction rows generalizing start with
  | nil =>
    simp only [List.foldlM_nil, pure_eq_ok] at folded
    simp [folded]
  | cons entry rest ih =>
    simp only [List.foldlM_cons, bind_eq_ok] at folded
    obtain ⟨middle, first, others⟩ := folded
    rw [ih others, amount_addPhysical first, List.map_cons, List.sum_cons, Nat.add_assoc]

/-- A physical name that is claimed at all has a root budget. -/
private theorem mapped_of_addPhysical {start : Table String Nat}
    (folded : rows.foldlM (topology.addPhysical domain) start = .ok physical)
    (member : entry ∈ rows) (positive : entry.2 ≠ 0) :
    (topology.budget topology.root (topology.translate domain entry.1)).isSome := by
  induction rows generalizing start with
  | nil => cases member
  | cons head rest ih =>
    simp only [List.foldlM_cons, bind_eq_ok] at folded
    obtain ⟨middle, first, others⟩ := folded
    rcases List.mem_cons.mp member with rfl | later
    · simp only [addPhysical, positive, ↓reduceIte] at first
      split at first
      · cases first
      · next mapped => simpa [Option.isSome_iff_ne_none] using mapped
    · exact ih others later

/-- Lookups after one round of `addScopes`. -/
private theorem get?_addScopes (path : List DomainBudget) (scalars : Table ScopedResourceId Nat)
    (entry : String × Nat) (id : ScopedResourceId) :
    (addScopes path scalars entry).get? id =
      if id.kind = .scalar ∧ id.resourceId = entry.1 ∧
          ∃ budget ∈ path, budget.id = id.scope ∧ (budget.capacities.get? entry.1).isSome then
        some entry.2
      else scalars.get? id := by
  obtain ⟨scope, kind, name⟩ := id
  simp only [addScopes]
  induction path generalizing scalars with
  | nil => simp
  | cons budget rest ih =>
    rw [List.foldl_cons, ih]
    by_cases other : kind = .scalar ∧ name = entry.1 ∧
        ∃ budget ∈ rest, budget.id = scope ∧ (budget.capacities.get? entry.1).isSome
    · obtain ⟨isScalar, named, budget', member, owned⟩ := other
      rw [if_pos ⟨isScalar, named, budget', member, owned⟩,
        if_pos ⟨isScalar, named, budget', List.mem_cons_of_mem _ member, owned⟩]
    · rw [if_neg other]
      by_cases here : kind = .scalar ∧ name = entry.1 ∧ budget.id = scope ∧
          (budget.capacities.get? entry.1).isSome
      · obtain ⟨rfl, rfl, rfl, budgeted⟩ := here
        have placed : (⟨budget.id, .scalar, entry.1⟩ : ScopedResourceId) =
          scalarId budget.id entry.1 := rfl
        rw [if_pos budgeted, Table.get?_set, if_pos placed,
          if_pos ⟨rfl, rfl, budget, List.mem_cons_self, rfl, budgeted⟩]
      · have nowhere : ¬(kind = .scalar ∧ name = entry.1 ∧ ∃ owner ∈ budget :: rest,
            owner.id = scope ∧ (owner.capacities.get? entry.1).isSome) := by
          rintro ⟨isScalar, named, owner, member, owned⟩
          rcases List.mem_cons.mp member with rfl | later
          · exact here ⟨isScalar, named, owned⟩
          · exact other ⟨isScalar, named, owner, later, owned⟩
        rw [if_neg nowhere]
        split
        · next budgeted =>
          rw [Table.get?_set, if_neg]
          intro same
          simp only [scalarId, ScopedResourceId.mk.injEq] at same
          exact here ⟨same.2.1, same.2.2, same.1.symm, budgeted⟩
        · rfl

/-- The scoped vector repeats the physical amount in every constraining scope
and has no other entries. -/
private theorem get?_foldl_addScopes (path : List DomainBudget) (physical : Table String Nat)
    (id : ScopedResourceId) :
    (physical.rows.foldl (addScopes path) Table.empty).get? id =
      if id.kind = .scalar ∧ ∃ budget ∈ path, budget.id = id.scope ∧
          (budget.capacities.get? id.resourceId).isSome then
        physical.get? id.resourceId
      else none := by
  have general : ∀ (rows : List (String × Nat)) (start : Table ScopedResourceId Nat),
      (rows.map Prod.fst).Nodup →
      (rows.foldl (addScopes path) start).get? id =
        if id.kind = .scalar ∧ ∃ budget ∈ path, budget.id = id.scope ∧
            (budget.capacities.get? id.resourceId).isSome then
          ((rows.find? fun row => row.1 = id.resourceId).map Prod.snd).or (start.get? id)
        else start.get? id := by
    intro rows
    induction rows with
    | nil =>
      intro start _
      simp
    | cons row rest ih =>
      intro start nodup
      simp only [List.map_cons, List.nodup_cons, List.mem_map, not_exists, not_and] at nodup
      rw [List.foldl_cons, ih _ nodup.2, get?_addScopes]
      by_cases same : row.1 = id.resourceId
      · have absent : (rest.find? fun row => row.1 = id.resourceId) = none := by
          rw [List.find?_eq_none]
          intro other member equal
          exact nodup.1 other member ((of_decide_eq_true equal).trans same.symm)
        simp only [absent, same, true_and, Option.map_none, Option.none_or, decide_true,
          List.find?_cons_of_pos, Option.map_some, Option.some_or]
        split <;> rfl
      · have different : ¬id.resourceId = row.1 := fun equal => same equal.symm
        simp [different, same]
  rw [general physical.rows Table.empty physical.nodup, Table.get?_empty, Option.or_none]
  rfl

/-- An expanded vector in terms of the tree: a scope that constrains a name is
debited the whole claim on it. -/
theorem debit_expand (computed : topology.expand domain claims = .ok expanded)
    (constrained : topology.Constrains scope domain name) :
    expanded.debit (scalarId scope name) = topology.claimOn domain claims name := by
  simp only [expand, ok_iff] at computed
  obtain ⟨path, above, physical, folded, rfl⟩ := computed
  have total := amount_foldlM_addPhysical folded name
  simp only [amount, Table.get?_empty, Option.getD_none, Nat.zero_add] at total
  rw [constrains_iff above] at constrained
  simp only [ScopedClaims.debit, amount, get?_foldl_addScopes, scalarId]
  rw [if_pos ⟨trivial, constrained⟩]
  exact total

/-- Nothing else is debited. -/
theorem constrains_of_debit_ne_zero {id : ScopedResourceId}
    (computed : topology.expand domain claims = .ok expanded) (debited : expanded.debit id ≠ 0) :
    id.kind = .scalar ∧ topology.Constrains id.scope domain id.resourceId := by
  simp only [expand, ok_iff] at computed
  obtain ⟨path, above, physical, folded, rfl⟩ := computed
  rw [constrains_iff above]
  simp only [ScopedClaims.debit, amount, get?_foldl_addScopes] at debited
  split at debited
  · assumption
  · exact (debited rfl).elim

/-- The flat capacity table holds exactly the domain budgets. -/
theorem amount_capacities (topology : ResourceTopology) (scope : ExecutionDomainId)
    (name : String) :
    amount topology.capacities (scalarId scope name) = (topology.budget scope name).getD 0 := by
  have injective : ∀ id, Function.Injective (scalarId id) := by
    intro id left right equal
    simpa [scalarId] using equal
  have general : ∀ (rows : List (ExecutionDomainId × DomainBudget))
      (start : Table ScopedResourceId Nat),
      (∀ row ∈ rows, row.2.id = row.1) → (rows.map Prod.fst).Nodup →
      ((rows.map Prod.snd).foldl
        (fun flat domain => flat.setAll (scalarId domain.id) domain.capacities) start).get?
          (scalarId scope name) =
        (((rows.find? fun row => row.1 = scope).map Prod.snd).bind fun budget =>
          budget.capacities.get? name).or (start.get? (scalarId scope name)) := by
    intro rows
    induction rows with
    | nil => simp
    | cons row rest ih =>
      intro start named nodup
      simp only [List.map_cons, List.nodup_cons, List.mem_map, not_exists, not_and] at nodup
      have rowNamed := named row List.mem_cons_self
      rw [List.map_cons, List.foldl_cons,
        ih _ (fun other member => named other (List.mem_cons_of_mem _ member)) nodup.2]
      by_cases same : row.1 = scope
      · have absent : (rest.find? fun row => row.1 = scope) = none := by
          rw [List.find?_eq_none]
          intro other member equal
          exact nodup.1 other member ((of_decide_eq_true equal).trans same.symm)
        have copied := Table.get?_setAll start (scalarId row.2.id) row.2.capacities name
          fun _ _ equal => injective row.2.id equal
        rw [rowNamed, same] at copied
        simp [absent, same, rowNamed, copied]
      · have untouched : (start.setAll (scalarId row.2.id) row.2.capacities).get?
            (scalarId scope name) = start.get? (scalarId scope name) := by
          apply Table.get?_setAll_of_ne
          intro other equal
          rw [rowNamed] at equal
          simp only [scalarId, ScopedResourceId.mk.injEq] at equal
          exact same equal.1
        simp [same, untouched]
  have flat := general topology.domains.rows Table.empty
    (fun row member => topology.idOfKey row.1 row.2 (Table.mem_rows.mp member))
    topology.domains.nodup
  rw [Table.get?_empty, Option.or_none] at flat
  simp only [amount, capacities, Table.values, flat]
  rfl

/-- Every physical name of the claims has a root budget, and no claim on a
physical name exceeds a machine word. -/
structure Covers (topology : ResourceTopology) (domain : ExecutionDomainId)
    (claims : ResolvedClaims) : Prop where
  named : ∀ entry ∈ (scalarEntries claims).rows, entry.2 ≠ 0 →
    (topology.budget topology.root (topology.translate domain entry.1)).isSome
  bounded : ∀ name, topology.claimOn domain claims name < u64Bound

/-- One round succeeds if its name is mapped and its sum fits. -/
private theorem addPhysical_of_mapped (named : entry.2 ≠ 0 →
      (topology.budget topology.root (topology.translate domain entry.1)).isSome)
    (bounded : amount physical (topology.translate domain entry.1) + entry.2 < u64Bound) :
    ∃ next, topology.addPhysical domain physical entry = .ok next := by
  unfold addPhysical
  split
  · exact ⟨_, rfl⟩
  · next positive =>
    have mapped := named positive
    rw [Option.isSome_iff_ne_none] at mapped
    dsimp only
    rw [if_neg (by simpa using mapped), checkedAdd, if_pos bounded]
    exact ⟨_, rfl⟩

private theorem foldlM_addPhysical {start : Table String Nat} (named : ∀ entry ∈ rows, entry.2 ≠ 0 →
      (topology.budget topology.root (topology.translate domain entry.1)).isSome)
    (bounded : ∀ name, amount start name +
      (rows.map fun entry => if topology.translate domain entry.1 = name then entry.2 else 0).sum <
        u64Bound) : ∃ physical, rows.foldlM (topology.addPhysical domain) start = .ok physical := by
  induction rows generalizing start with
  | nil => exact ⟨start, rfl⟩
  | cons entry rest ih =>
    have fits := bounded (topology.translate domain entry.1)
    rw [List.map_cons, List.sum_cons, if_pos rfl] at fits
    have sum : amount start (topology.translate domain entry.1) + entry.2 < u64Bound := by omega
    obtain ⟨middle, first⟩ := addPhysical_of_mapped (named entry List.mem_cons_self) sum
    have others : ∃ physical, rest.foldlM (topology.addPhysical domain) middle = .ok physical := by
      apply ih
      · exact fun other member => named other (List.mem_cons_of_mem _ member)
      · intro name
        rw [amount_addPhysical first, Nat.add_assoc]
        have total := bounded name
        rwa [List.map_cons, List.sum_cons] at total
    obtain ⟨physical, folded⟩ := others
    refine ⟨physical, ?_⟩
    rw [List.foldlM_cons, bind_eq_ok]
    exact ⟨middle, first, folded⟩

private theorem bounded_of_addPhysical (name : String)
    (folded : rows.foldlM (topology.addPhysical domain) .empty = .ok physical) :
    amount physical name < u64Bound := by
  refine foldlM_invariant (fun state => amount state name < u64Bound) ?_ ?_ folded
  · intro state entry after _ held added
    simp only [addPhysical] at added
    split at added
    · cases added
      exact held
    · split at added
      · cases added
      · split at added
        · cases added
        · next total computed =>
          cases added
          simp only [checkedAdd] at computed
          split at computed
          · next fits =>
            cases computed
            rw [amount, Table.get?_set]
            split
            · exact fits
            · exact held
          · cases computed
  · simp [amount, u64Bound]

/-- Claims of a domain in the tree expand exactly if they are covered. -/
theorem expand_iff :
    (∃ expanded, topology.expand domain claims = .ok expanded) ↔
      (∃ path, topology.ancestors domain = .ok path) ∧ topology.Covers domain claims := by
  simp only [expand, ok_iff]
  constructor
  · rintro ⟨_, path, above, physical, folded, _⟩
    refine ⟨⟨path, above⟩, ?_, ?_⟩
    · exact fun entry member positive => mapped_of_addPhysical folded member positive
    · intro name
      have total := amount_foldlM_addPhysical folded name
      have nothing : amount (Table.empty : Table String Nat) name = 0 := by simp [amount]
      have bound := bounded_of_addPhysical name folded
      rw [total, nothing, Nat.zero_add] at bound
      exact bound
  · rintro ⟨⟨path, above⟩, covers⟩
    obtain ⟨physical, folded⟩ := @foldlM_addPhysical domain _ topology .empty covers.named (by
      intro name
      rw [amount, Table.get?_empty, Option.getD_none, Nat.zero_add]
      exact covers.bounded name)
    exact ⟨_, path, above, physical, folded, rfl⟩

end ResourceTopology

/-! ## Blockers of scoped claims -/

def scalarBlocker (name : String) (requested capacity : Nat) (granted : Option Nat) :
    List Blocker :=
  if requested = 0 then []
  else match granted with
    | none => [⟨"resource_busy", s!"{name}: granted debit sum overflow"⟩]
    | some granted =>
      let available := capacity - granted
      if available < requested then
        [⟨if capacity < requested then "resource_capacity" else "resource_busy",
          s!"{name}: requested {requested}, available {available}, configured {capacity}"⟩]
      else []

/-- `scalar_vector_blockers` with `ancestors_only = false`. -/
def scalarVectorBlockers {κ : Type*} [DecidableEq κ] (claims capacities : Table κ Nat)
    (debits : List (Table κ Nat)) (display : κ → String) : List Blocker :=
  sortBlockers <| claims.rows.flatMap fun entry =>
    scalarBlocker (display entry.1) entry.2 (amount capacities entry.1)
      (checkedTotal (debits.map fun debit => amount debit entry.1))

private theorem scalarBlocker_eq_nil :
    scalarBlocker name requested capacity granted = [] ↔
      requested = 0 ∨ granted.any (fun used => requested ≤ capacity - used) = true := by
  by_cases zero : requested = 0
  · simp [scalarBlocker, zero]
  · cases granted <;> simp [scalarBlocker, zero]

/-- A vector without scalar blockers is one that fits. -/
theorem scalarVectorBlockers_eq_nil {κ : Type*} [DecidableEq κ] {claims capacities : Table κ Nat}
    {debits : List (Table κ Nat)} {display : κ → String} :
    scalarVectorBlockers claims capacities debits display = [] ↔
      fits claims capacities debits = true := by
  simp only [scalarVectorBlockers, sortBlockers_eq_nil, List.flatMap_eq_nil_iff,
    scalarBlocker_eq_nil, fits, List.all_eq_true, Bool.or_eq_true, decide_eq_true_eq]

def ScopedClaims.blockers (claims : ScopedClaims) (topology : ResourceTopology)
    (active : List ScopedClaims) (rules : Table String (List String)) : List Blocker :=
  sortBlockers <|
    scalarVectorBlockers claims.scalars topology.capacities (active.map ScopedClaims.scalars)
        ScopedResourceId.display ++
      active.flatMap fun held =>
        (fenceConflicts claims.exclusiveFences claims.sharedFences
            held.exclusiveFences held.sharedFences).map
          (fun fence => fenceBlocker fence.display) ++
          impactBlockers claims.impacts held.impacts rules

/-- Root capacities of the private calculation scope: names without a capacity
are added with zero, so that every claim can be expanded. -/
def completeCapacities (capacities : Table String Nat) (names : List String) : Table String Nat :=
  names.foldl (fun flat name => if (flat.get? name).isSome then flat else flat.set name 0)
    capacities

@[simp] theorem amount_completeCapacities (capacities : Table String Nat) (names : List String)
    (name : String) :
    amount (completeCapacities capacities names) name = amount capacities name := by
  simp only [completeCapacities]
  induction names generalizing capacities with
  | nil => rfl
  | cons head rest ih =>
    rw [List.foldl_cons, ih]
    split
    · rfl
    · next missing =>
      have absent : capacities.get? head = none := by simpa using missing
      by_cases same : name = head
      · subst same
        simp [amount, absent]
      · simp [amount, same]

/-- `legacy_full_vector_blockers`.  A panic of one of its `expect`s is an
error here. -/
def legacyFullVectorBlockers (claims : ResolvedClaims) (capacities : ResourceCapacities)
    (active : List ResolvedClaims) (rules : Table String (List String)) :
    Except String (List Blocker) := do
  let names := (claims :: active).flatMap fun claim => (scalarEntries claim).keys
  let flat := completeCapacities (legacyCapacities capacities) names
  let topology ← ResourceTopology.new 0 [⟨0, none, flat⟩] .empty
  let expanded ← topology.expand 0 claims
  let held ← active.mapM (topology.expand 0)
  return expanded.blockers topology held rules

namespace ResourceTopology

/-- What `ResourceTopology::new` checks. -/
theorem new_eq_ok :
    new root domains aliases = .ok topology ↔
      (topology.root = root ∧ collect domains = some topology.domains ∧
        topology.aliases = aliases) ∧
      ¬(domains.isEmpty || 256 < domains.length) = true ∧
      ¬(topology.domains.get? root).all (fun domain => domain.parent.isSome) = true ∧
      (∀ id ∈ topology.domains.keys, ∃ path, topology.ancestors id = .ok path) ∧
      ∀ entry ∈ aliases.rows, (topology.domains.get? entry.1.1).isSome ∧
        (topology.budget root entry.2).isSome := by
  simp only [new, ite_error_eq_ok]
  constructor
  · rintro ⟨counted, created⟩
    split at created
    · cases created
    · next table collected =>
      simp only [ite_error_eq_ok, bind_eq_ok] at created
      obtain ⟨rooted, _, checked, aliased, created⟩ := created
      cases created
      refine ⟨⟨rfl, collected, rfl⟩, counted, rooted, ?_, ?_⟩
      · intro id known
        obtain ⟨path, computed, _⟩ := map_eq_ok.mp (of_forM checked id known)
        exact ⟨path, computed⟩
      · intro entry member
        simpa [not_or, Option.isSome_iff_ne_none] using
          fun absent => aliased (List.any_eq_true.mpr ⟨entry, member, absent⟩)
  · rintro ⟨⟨rfl, collected, rfl⟩, counted, rooted, checked, aliased⟩
    refine ⟨counted, ?_⟩
    split
    · next none =>
      rw [none] at collected
      cases collected
    · next table found =>
      cases found.symm.trans collected
      simp only [ite_error_eq_ok, bind_eq_ok]
      refine ⟨rooted, (), forM_of_forall ?_, ?_, trivial⟩
      · intro id known
        obtain ⟨path, above⟩ := checked id known
        exact map_eq_ok.mpr ⟨path, above, rfl⟩
      intro unknown
      obtain ⟨entry, member, absent⟩ := List.any_eq_true.mp unknown
      obtain ⟨known, named⟩ := aliased entry member
      rw [Option.isSome_iff_ne_none] at known named
      simp [known, named] at absent

theorem root_of_new (created : new root domains aliases = .ok topology) :
    topology.root = root ∧ collect domains = some topology.domains ∧
      topology.aliases = aliases :=
  (new_eq_ok.mp created).1

/-- Every domain of an accepted tree has its ancestors. -/
theorem ancestors_of_new (created : new root domains aliases = .ok topology)
    (known : id ∈ topology.domains.keys) : ∃ path, topology.ancestors id = .ok path :=
  (new_eq_ok.mp created).2.2.2.1 id known

theorem mem_keys_of_ancestors (above : topology.ancestors id = .ok path) :
    id ∈ topology.domains.keys := by
  rw [← Table.get?_isSome]
  simp only [ancestors, ancestorsFrom, List.not_mem_nil, if_false] at above
  split at above
  · cases above
  · next found => rw [found]; rfl

private theorem foldlM_insert_rows
    (folded : domains.foldlM (fun collected domain => collected.insert? domain.id domain) start =
      some collected) :
    collected.rows = start.rows ++ domains.map fun domain => (domain.id, domain) := by
  induction domains generalizing start with
  | nil =>
    simp only [List.foldlM_nil, Option.pure_def, Option.some.injEq] at folded
    simp [folded]
  | cons domain rest ih =>
    simp only [List.foldlM_cons, Option.bind_eq_bind] at folded
    obtain ⟨middle, inserted, others⟩ := Option.bind_eq_some_iff.mp folded
    rw [ih others, (Table.rows_insert? inserted).2, List.append_assoc]
    rfl

theorem rows_collect (computed : collect domains = some collected) :
    collected.rows = domains.map fun domain => (domain.id, domain) :=
  foldlM_insert_rows computed

theorem keys_collect (computed : collect domains = some collected) :
    collected.keys = domains.map DomainBudget.id := by
  rw [Table.keys, rows_collect computed, List.map_map]
  rfl

theorem get?_collect {domain : DomainBudget} (computed : collect domains = some collected)
    (member : domain ∈ domains) : collected.get? domain.id = some domain := by
  rw [← Table.mem_rows, rows_collect computed]
  exact List.mem_map_of_mem member

/-- The domain, with these capacities if it is the root. -/
def withRoot (root : ExecutionDomainId) (capacities : Table String Nat) (budget : DomainBudget) :
    DomainBudget :=
  if budget.id = root then { budget with capacities } else budget

theorem id_withRoot (root : ExecutionDomainId) (capacities : Table String Nat)
    (budget : DomainBudget) : (withRoot root capacities budget).id = budget.id := by
  unfold withRoot
  split <;> rfl

theorem parent_withRoot (root : ExecutionDomainId) (capacities : Table String Nat)
    (budget : DomainBudget) : (withRoot root capacities budget).parent = budget.parent := by
  unfold withRoot
  split <;> rfl

private theorem foldlM_insert_map (sameId : ∀ budget, (change budget).id = budget.id)
    (folded : domains.foldlM (fun collected domain => collected.insert? domain.id domain) start =
      some collected) :
    (domains.map change).foldlM (fun collected domain => collected.insert? domain.id domain)
      (start.modify fun _ => change) = some (collected.modify fun _ => change) := by
  induction domains generalizing start with
  | nil =>
    simp only [List.foldlM_nil, Option.pure_def, Option.some.injEq] at folded
    simp [folded]
  | cons domain rest ih =>
    simp only [List.foldlM_cons, Option.bind_eq_bind] at folded
    obtain ⟨middle, inserted, others⟩ := Option.bind_eq_some_iff.mp folded
    have absent : domain.id ∉ start.keys :=
      Table.get?_eq_none.mp (Table.insert?_eq_some.mp inserted).1
    have again : (start.modify fun _ => change).insert? (change domain).id (change domain) =
        some (middle.modify fun _ => change) := by
      rw [sameId, Table.insert?_eq_some, Table.get?_eq_none, Table.keys_modify]
      refine ⟨absent, Table.ext ?_⟩
      rw [Table.set, dif_neg (by rw [Table.keys_modify]; exact absent)]
      simp [Table.modify, Table.rows_insert? inserted]
    simp only [List.map_cons, List.foldlM_cons, Option.bind_eq_bind, again, Option.bind_some]
    exact ih others

private theorem ancestorsFrom_modify {other : ResourceTopology}
    (sameParent : ∀ budget, (change budget).parent = budget.parent)
    (root : other.root = topology.root)
    (domains : other.domains = topology.domains.modify fun _ => change) (fuel : Nat)
    (id : ExecutionDomainId) (seen : List ExecutionDomainId) :
    other.ancestorsFrom fuel id seen = (topology.ancestorsFrom fuel id seen).map
      (List.map change) := by
  induction fuel generalizing id seen with
  | zero => rfl
  | succ fuel ih =>
    simp only [ancestorsFrom]
    split
    · rfl
    · rw [domains, Table.get?_modify]
      cases topology.domains.get? id with
      | none => rfl
      | some budget =>
        simp only [Option.map_some, sameParent]
        cases budget.parent with
        | none =>
          simp only [root]
          split <;> rfl
        | some parent =>
          simp only [ih]
          cases topology.ancestorsFrom fuel parent (id :: seen) <;> rfl

private theorem collect_withRoot {capacities : Table String Nat}
    {table : Table ExecutionDomainId DomainBudget} (collected : collect domains = some table) :
    collect (domains.map (withRoot root capacities)) =
      some (table.modify fun _ => withRoot root capacities) :=
  foldlM_insert_map (id_withRoot root capacities) collected

/-- With other capacities of the root an accepted tree stays accepted exactly if
every alias still names one of them. -/
theorem new_withRoot {capacities : Table String Nat}
    (created : new root domains aliases = .ok topology) :
    (∃ other, new root (domains.map (withRoot root capacities)) aliases = .ok other) ↔
      ∀ entry ∈ aliases.rows, (capacities.get? entry.2).isSome := by
  obtain ⟨⟨named, collected, shared⟩, counted, rooted, reached, aliased⟩ := new_eq_ok.mp created
  have mapped := @collect_withRoot domains root capacities topology.domains collected
  have present : ∃ budget, topology.domains.get? root = some budget := by
    cases stored : topology.domains.get? root with
    | none => simp [stored] at rooted
    | some budget => exact ⟨budget, rfl⟩
  obtain ⟨rootBudget, stored⟩ := present
  have rootId := topology.idOfKey root rootBudget stored
  constructor
  · rintro ⟨other, made⟩ entry member
    obtain ⟨⟨_, table, _⟩, _, _, _, aliases⟩ := new_eq_ok.mp made
    have budgeted := (aliases entry member).2
    rw [mapped, Option.some.injEq] at table
    rw [ResourceTopology.budget, ← table, Table.get?_modify, stored, Option.map_some,
      Option.bind_some, withRoot, if_pos rootId] at budgeted
    exact budgeted
  · intro configured
    have keyed : ∀ id budget,
        (topology.domains.modify fun _ => withRoot root capacities).get? id = some budget →
          budget.id = id := by
      intro id budget found
      rw [Table.get?_modify] at found
      obtain ⟨old, foundOld, rfl⟩ := Option.map_eq_some_iff.mp found
      rw [id_withRoot]
      exact topology.idOfKey id old foundOld
    refine ⟨⟨root, topology.domains.modify fun _ => withRoot root capacities, aliases, keyed⟩,
      new_eq_ok.mpr ⟨⟨rfl, mapped, rfl⟩, ?_, ?_, ?_, ?_⟩⟩
    · simpa using counted
    · rw [stored] at rooted
      simpa [stored, parent_withRoot] using rooted
    · intro id known
      rw [Table.keys_modify] at known
      obtain ⟨path, above⟩ := reached id known
      refine ⟨path.map (withRoot root capacities), ?_⟩
      rw [ancestors, ancestorsFrom_modify (parent_withRoot root capacities) named.symm rfl]
      rw [ancestors] at above
      rw [above]
      rfl
    · intro entry member
      constructor
      · rw [Table.get?_modify, Option.isSome_map]
        exact (aliased entry member).1
      · rw [ResourceTopology.budget, Table.get?_modify, stored, Option.map_some, Option.bind_some,
          withRoot, if_pos rootId]
        exact configured entry member

/-- Without aliases the claim on a name is the claimed amount. -/
theorem claimOn_of_no_aliases (none_ : topology.aliases = .empty) (domain : ExecutionDomainId)
    (claims : ResolvedClaims) (name : String) :
    topology.claimOn domain claims name = claims.debit name := by
  simp only [claimOn, translate, none_, Table.get?_empty, Option.getD_none, Table.sum_ite_key,
    ResolvedClaims.debit, amount, Option.map_id']

end ResourceTopology

end Stillyard
