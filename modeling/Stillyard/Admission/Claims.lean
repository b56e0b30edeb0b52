import Mathlib.Data.List.Destutter
import Mathlib.Data.List.Sort
import Stillyard.Lib.Table

/-!
# Resource claims, capacities and blockers

A Job claims four built-in scalars, any number of custom scalars, path fences
and impacts.  Admission compares claims with the configured capacities and with
the claims that are already debited, and reports every conflict as a blocker.

Scalar amounts are `u64` in the program.  They are natural numbers here, and the
overflow that the program checks for is checked explicitly.
-/

namespace Stillyard

open Relational

/-- Values below this bound fit the program's `u64`. -/
def u64Bound : Nat := 2 ^ 64

/-- One reason why a Job is not admitted. -/
structure Blocker where
  code : String
  detail : String
  deriving DecidableEq, Repr

/-- Order on code, then on detail. -/
def Blocker.le (left right : Blocker) : Bool :=
  left.code < right.code || (left.code = right.code && left.detail ≤ right.detail)

/-- Sort by code and detail and drop adjacent repetitions. -/
def sortBlockers (blockers : List Blocker) : List Blocker :=
  (blockers.insertionSort fun left right => left.le right).destutter (· ≠ ·)

@[simp] theorem sortBlockers_eq_nil {blockers : List Blocker} :
    sortBlockers blockers = [] ↔ blockers = [] := by
  simp only [sortBlockers, List.destutter_eq_nil]
  constructor
  · intro sorted
    have permuted := List.perm_insertionSort (fun left right => (left.le right : Prop)) blockers
    rw [sorted] at permuted
    exact (List.nil_perm.mp permuted)
  · rintro rfl
    rfl

/-- The debit that a scalar map makes on one name. -/
def amount {κ : Type*} [DecidableEq κ] (scalars : Table κ Nat) (key : κ) : Nat :=
  (scalars.get? key).getD 0

/-- `ResolvedClaims`: everything one Lease, reservation or remote Grant holds. -/
structure ResolvedClaims where
  cpuUnits : Nat
  ramMb : Nat
  cargoSlots : Nat
  gpuSlots : Nat
  custom : Table String Nat
  sharedFences : List String
  exclusiveFences : List String
  impacts : List String
  deriving DecidableEq

/-- `ResolvedClaims::default()`. -/
def ResolvedClaims.default : ResolvedClaims where
  cpuUnits := 0
  ramMb := 0
  cargoSlots := 0
  gpuSlots := 0
  custom := .empty
  sharedFences := []
  exclusiveFences := []
  impacts := []

instance : Inhabited ResolvedClaims := ⟨.default⟩

/-- `scalar_entries`: all scalars under their names.  A built-in scalar wins
over a custom one of the same name. -/
def scalarEntries (claims : ResolvedClaims) : Table String Nat :=
  (((claims.custom.set "cpu_units" claims.cpuUnits).set "ram_mb" claims.ramMb).set
    "cargo_slots" claims.cargoSlots).set "gpu_slots" claims.gpuSlots

def ResolvedClaims.scalarOnly (claims : ResolvedClaims) : ResolvedClaims :=
  { claims with sharedFences := [], exclusiveFences := [], impacts := [] }

def ResolvedClaims.overlapsScalars (claims other : ResolvedClaims) : Bool :=
  (0 < claims.cpuUnits && 0 < other.cpuUnits) || (0 < claims.ramMb && 0 < other.ramMb) ||
    (0 < claims.cargoSlots && 0 < other.cargoSlots) ||
    (0 < claims.gpuSlots && 0 < other.gpuSlots) ||
    claims.custom.rows.any fun entry => 0 < entry.2 && 0 < amount other.custom entry.1

/-- What a Lease or a physical Grant takes from the scalar named `resource`. -/
def ResolvedClaims.debit (claims : ResolvedClaims) : String → Nat :=
  amount (scalarEntries claims)

structure ResourceCapacities where
  cpuUnits : Nat
  ramMb : Nat
  cargoSlots : Nat
  gpuSlots : Nat
  custom : Table String Nat
  deriving DecidableEq

/-- The part after `vram_mb:`, if the name starts with it. -/
def stripVram (name : String) : Option String :=
  if "vram_mb:".toList.isPrefixOf name.toList then
    some (String.ofList (name.toList.drop 8))
  else none

/-- `canonical_gpu_uuid`, `none` where the program reports an invalid UUID. -/
def canonicalGpuUuid (value : String) : Option String :=
  let lower := value.toList.map Char.toLower
  if value.isEmpty || 128 < value.utf8ByteSize || value.toList.contains (Char.ofNat 0) ||
      !(value.toList.all fun char => char.toNat < 128) || !("gpu-".toList.isPrefixOf lower) then
    none
  else some (String.ofList lower)

def canonicalCustomResourceName (value : String) : Option String :=
  match stripVram value with
  | some uuid => (canonicalGpuUuid uuid).map fun canonical => "vram_mb:" ++ canonical
  | none => some value

/-- `custom_capacity`: the first configured name with this canonical form. -/
def customCapacity (capacities : ResourceCapacities) (requested : String) : Nat :=
  ((capacities.custom.rows.find? fun entry =>
    canonicalCustomResourceName entry.1 = some requested).map Prod.snd).getD 0

/-- `legacy_capacities`, also used as `machine_capacities`. -/
def legacyCapacities (capacities : ResourceCapacities) : Table String Nat :=
  let custom := capacities.custom.keys.foldl
    (fun values name =>
      let canonical := (canonicalCustomResourceName name).getD name
      values.set canonical (customCapacity capacities canonical))
    (Table.empty : Table String Nat)
  (((custom.set "cpu_units" capacities.cpuUnits).set "ram_mb" capacities.ramMb).set
    "cargo_slots" capacities.cargoSlots).set "gpu_slots" capacities.gpuSlots

/-- The configured capacity of a scalar, zero if it is not configured. -/
def ResourceCapacities.of (capacities : ResourceCapacities) : String → Nat :=
  amount (legacyCapacities capacities)

/-! ## Fences and impacts -/

/-- `impacts_conflict`: a directed declaration counts in both directions. -/
def impactsConflict (left right : String) (rules : Table String (List String)) : Bool :=
  ((rules.get? left).getD []).contains right || ((rules.get? right).getD []).contains left

def fenceBlocker (fence : String) : Blocker := ⟨"path_fence_busy", fence⟩

/-- Fences of one side that exclude a fence of the other. -/
def fenceConflicts {φ : Type*} [DecidableEq φ]
    (exclusive shared heldExclusive heldShared : List φ) : List φ :=
  exclusive.filter (heldExclusive.contains ·) ++ exclusive.filter (heldShared.contains ·) ++
    shared.filter (heldExclusive.contains ·)

/-- The `impact_busy` blockers between two sets of impacts. -/
def impactBlockers (impacts held : List String) (rules : Table String (List String)) :
    List Blocker :=
  impacts.flatMap fun impact =>
    (held.filter fun other => impactsConflict impact other rules).map fun other =>
      ⟨"impact_busy", s!"{impact} incompatible with active {other}"⟩

def ResolvedClaims.nonScalarBlockers (claims : ResolvedClaims) (active : List ResolvedClaims)
    (rules : Table String (List String)) : List Blocker :=
  sortBlockers <| active.flatMap fun held =>
    (fenceConflicts claims.exclusiveFences claims.sharedFences
        held.exclusiveFences held.sharedFences).map fenceBlocker ++
      impactBlockers claims.impacts held.impacts rules

end Stillyard
