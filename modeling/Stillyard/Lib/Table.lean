import Mathlib.Algebra.BigOperators.Group.List.Basic
import Mathlib.Algebra.Order.BigOperators.Group.List
import Mathlib.Algebra.Order.Ring.Nat
import Mathlib.Data.List.Nodup
import Mathlib.Tactic.Common
import Mathlib.Data.List.Induction

/-!
# Keyed tables

A `Table` is a finite relation with a primary key, kept in row order.  The key
constraint is a field of the structure, so every update below has to preserve
it, and a reader may pass freely between rows and lookups.

The updates are the ones a relational store offers: insertion that fails on a
duplicate key, upsert, bulk update and bulk deletion.  Each has one lookup
equation and one equation for sums over all rows.
-/

namespace Relational

universe u v

/-- Rows under a unique key, oldest row first. -/
structure Table (κ : Type u) (α : Type v) where
  rows : List (κ × α)
  nodup : (rows.map Prod.fst).Nodup

namespace Table

variable {κ : Type u} {α : Type v}
variable {table : Table κ α} {key : κ} {change : α → α}

@[ext] theorem ext {left right : Table κ α} (rows : left.rows = right.rows) : left = right := by
  cases left
  cases right
  cases rows
  rfl

instance [DecidableEq κ] [DecidableEq α] : DecidableEq (Table κ α) :=
  fun left right => decidable_of_iff (left.rows = right.rows) (Table.ext_iff).symm

instance [Repr κ] [Repr α] : Repr (Table κ α) := ⟨fun table => reprPrec table.rows⟩

/-- The table without rows. -/
def empty : Table κ α := ⟨[], List.nodup_nil⟩

instance : Inhabited (Table κ α) := ⟨empty⟩

/-- All keys in row order. -/
def keys (table : Table κ α) : List κ := table.rows.map Prod.fst

/-- All row values in row order. -/
def values (table : Table κ α) : List α := table.rows.map Prod.snd

/-- `UPDATE`: rewrite every row, keeping its key. -/
def modify (table : Table κ α) (change : κ → α → α) : Table κ α where
  rows := table.rows.map fun row => (row.1, change row.1 row.2)
  nodup := by
    rw [List.map_map]
    exact table.nodup

@[simp] theorem keys_modify (table : Table κ α) (change : κ → α → α) :
    (table.modify change).keys = table.keys := by
  simp [keys, modify]

/-- `DELETE`: keep only the rows that pass the test. -/
def filter (table : Table κ α) (keep : κ → α → Bool) : Table κ α where
  rows := table.rows.filter fun row => keep row.1 row.2
  nodup := table.nodup.sublist (List.filter_sublist.map _)

/-- `SELECT`: project the rows that qualify, in row order. -/
def select {β : Type*} (table : Table κ α) (pick : κ → α → Option β) : List β :=
  table.rows.filterMap fun row => pick row.1 row.2

/-- Rows were only appended. -/
def Extends (before after : Table κ α) : Prop := ∃ added, after.rows = before.rows ++ added

theorem Extends.refl (table : Table κ α) : table.Extends table := ⟨[], by simp⟩

theorem Extends.trans {first : Table κ α} (earlier : first.Extends second)
    (later : second.Extends third) : first.Extends third := by
  obtain ⟨added, appended⟩ := earlier
  obtain ⟨further, continued⟩ := later
  exact ⟨added ++ further, by rw [continued, appended, List.append_assoc]⟩

section Lookup

variable [DecidableEq κ]
variable {value found : α} {β : Type*} {pick : κ → α → Option β} {other : κ}
variable {next before after : Table κ α}

/-- The row under a key. -/
def get? (table : Table κ α) (key : κ) : Option α :=
  (table.rows.find? fun row => row.1 = key).map Prod.snd

/-- `INSERT … ON CONFLICT DO UPDATE`: replace the row in place, or append it. -/
def set (table : Table κ α) (key : κ) (value : α) : Table κ α :=
  if fresh : key ∈ table.keys then
    table.modify fun other old => if other = key then value else old
  else
    { rows := table.rows ++ [(key, value)]
      nodup := by
        rw [List.map_append]
        exact List.Nodup.append table.nodup (by simp) (by simpa [keys] using fresh) }

/-- `INSERT`: refuse a key that is already present. -/
def insert? (table : Table κ α) (key : κ) (value : α) : Option (Table κ α) :=
  if key ∈ table.keys then none else some (table.set key value)

/-- Delete the row under one key. -/
def erase (table : Table κ α) (key : κ) : Table κ α :=
  table.filter fun other _ => other ≠ key

/-- `UPDATE … WHERE key = …`. -/
def update (table : Table κ α) (key : κ) (change : α → α) : Table κ α :=
  table.modify fun other old => if other = key then change old else old

/-- Lookups and rows carry the same information. -/
theorem mem_rows : (key, value) ∈ table.rows ↔ table.get? key = some value := by
  obtain ⟨rows, nodup⟩ := table
  simp only [get?]
  induction rows with
  | nil => simp
  | cons head tail ih =>
    simp only [List.map_cons, List.nodup_cons, List.mem_map, not_exists, not_and] at nodup
    by_cases same : head.1 = key
    · have absent : (key, value) ∉ tail := fun member =>
        nodup.1 (key, value) member same.symm
      obtain ⟨headKey, headValue⟩ := head
      simp only at same
      subst same
      simp [absent, eq_comm]
    · have different : ¬(key, value) = head := fun equal => same (by simp [← equal])
      simp only [List.mem_cons, different, false_or, List.find?_cons, same, decide_false]
      exact ih nodup.2

theorem get?_eq_none : table.get? key = none ↔ key ∉ table.keys := by
  simp only [get?, keys, Option.map_eq_none_iff, List.find?_eq_none, decide_eq_true_eq,
    List.mem_map, not_exists, not_and]

theorem get?_isSome : (table.get? key).isSome ↔ key ∈ table.keys := by
  rw [Option.isSome_iff_ne_none, ne_eq, get?_eq_none, not_not]

theorem exists_of_mem_keys (member : key ∈ table.keys) : ∃ value, table.get? key = some value :=
  Option.isSome_iff_exists.mp (get?_isSome.mpr member)

theorem mem_values : value ∈ table.values ↔ ∃ key, table.get? key = some value := by
  simp [values, ← mem_rows]

theorem mem_select :
    result ∈ table.select pick ↔
      ∃ key value, table.get? key = some value ∧ pick key value = some result := by
  simp [select, ← mem_rows]

/-- Selected rows that remember their key are distinct. -/
theorem nodup_map_select
    (remembers : ∀ key value result, table.get? key = some value → pick key value = some result →
      keyOf result = key) : ((table.select pick).map keyOf).Nodup := by
  rcases table with ⟨rows, nodup⟩
  have local_ : ∀ row ∈ rows, ∀ result, pick row.1 row.2 = some result → keyOf result = row.1 :=
    fun row member result picked => remembers row.1 row.2 result (mem_rows.mp member) picked
  clear remembers
  simp only [select]
  induction rows with
  | nil => exact List.nodup_nil
  | cons row rest ih =>
    simp only [List.map_cons, List.nodup_cons, List.mem_map, not_exists, not_and] at nodup
    have others := ih nodup.2 fun other member => local_ other (List.mem_cons_of_mem _ member)
    cases picked : pick row.1 row.2 with
    | none =>
      simp only [List.filterMap_cons, picked]
      exact others
    | some result =>
      simp only [List.filterMap_cons, picked, List.map_cons, List.nodup_cons]
      refine ⟨?_, others⟩
      intro member
      rcases List.mem_map.mp member with ⟨other, selected, same⟩
      rcases List.mem_filterMap.mp selected with ⟨otherRow, otherMember, otherPicked⟩
      have own := local_ row List.mem_cons_self result picked
      have theirs := local_ otherRow (List.mem_cons_of_mem _ otherMember) other otherPicked
      exact nodup.1 otherRow otherMember (theirs.symm.trans (same.trans own))

@[simp] theorem get?_empty (key : κ) : (empty : Table κ α).get? key = none := rfl

@[simp] theorem get?_modify (table : Table κ α) (change : κ → α → α) (key : κ) :
    (table.modify change).get? key = (table.get? key).map (change key) := by
  ext value
  simp only [← mem_rows, modify, List.mem_map, Prod.mk.injEq, Prod.exists,
    Option.map_eq_some_iff]
  constructor
  · rintro ⟨_, old, member, rfl, changed⟩
    exact ⟨old, member, changed⟩
  · rintro ⟨old, member, changed⟩
    exact ⟨key, old, member, rfl, changed⟩

@[simp] theorem get?_update (table : Table κ α) (key other : κ) (change : α → α) :
    (table.update key change).get? other =
      if other = key then (table.get? other).map change else table.get? other := by
  simp only [update, get?_modify]
  split <;> simp

@[simp] theorem get?_filter (table : Table κ α) (keep : κ → α → Bool) (key : κ) :
    (table.filter keep).get? key = (table.get? key).filter (keep key) := by
  ext value
  simp [← mem_rows, filter, Option.filter_eq_some_iff]

@[simp] theorem get?_erase (table : Table κ α) (key other : κ) :
    (table.erase key).get? other = if other = key then none else table.get? other := by
  simp only [erase, get?_filter]
  split
  · next same =>
    subst same
    cases table.get? other <;> simp
  · next different =>
    cases table.get? other <;> simp [different]

@[simp] theorem get?_set (table : Table κ α) (key other : κ) (value : α) :
    (table.set key value).get? other =
      if other = key then some value else table.get? other := by
  unfold set
  split
  · next present =>
    rw [get?_modify]
    split
    · next same =>
      subst same
      obtain ⟨old, found⟩ := exists_of_mem_keys present
      simp [found]
    · simp
  · next absent =>
    ext found
    by_cases same : other = key
    · subst same
      have missing : ∀ old, (other, old) ∉ table.rows := by
        intro old member
        exact absent (List.mem_map.mpr ⟨(other, old), member, rfl⟩)
      rw [← mem_rows]
      simp [missing, eq_comm]
    · rw [← mem_rows, if_neg same, ← mem_rows]
      simp [same]

/-- A row of the written table is the new one or an old one under another key. -/
theorem get?_set_eq_some :
    (table.set key value).get? other = some found ↔
      other = key ∧ found = value ∨ other ≠ key ∧ table.get? other = some found := by
  rw [get?_set]
  split
  · next same => simp [same, eq_comm]
  · next distinct => simp [distinct]

theorem get?_update_eq_some :
    (table.update key change).get? other = some found ↔
      (other = key ∧ ∃ old, table.get? other = some old ∧ change old = found) ∨
        (other ≠ key ∧ table.get? other = some found) := by
  rw [get?_update]
  by_cases same : other = key <;> simp [same, Option.map_eq_some_iff]

theorem insert?_eq_some :
    table.insert? key value = some next ↔
      table.get? key = none ∧ next = table.set key value := by
  unfold insert?
  rw [get?_eq_none]
  split
  · next present => simp [present]
  · next absent => simp [absent, eq_comm]

theorem keys_set_of_absent (value : α) (absent : table.get? key = none) :
    (table.set key value).keys = table.keys ++ [key] := by
  simp only [set, get?_eq_none.mp absent, ↓reduceDIte]
  simp [keys]

/-- A new row is changed by writing the changed row. -/
theorem update_set_of_absent (value : α) (change : α → α) (absent : table.get? key = none) :
    (table.set key value).update key change = table.set key (change value) := by
  rw [get?_eq_none] at absent
  apply ext
  simp only [update, modify, set, absent, ↓reduceDIte, List.map_append, List.map_cons, if_true,
    List.map_nil, List.append_cancel_right_eq]
  refine (List.map_congr_left fun row member => ?_).trans (List.map_id _)
  rw [if_neg fun same : row.1 = key => absent (same ▸ List.mem_map_of_mem member)]
  rfl

/-- An inserted row is the last one. -/
theorem rows_insert? (inserted : table.insert? key value = some next) :
    table.get? key = none ∧ next.rows = table.rows ++ [(key, value)] := by
  obtain ⟨absent, rfl⟩ := insert?_eq_some.mp inserted
  simp [set, get?_eq_none.mp absent, absent]

theorem Extends.lookup (extended : before.Extends after) (found : before.get? key = some value) :
    after.get? key = some value := by
  obtain ⟨added, rows⟩ := extended
  rw [← mem_rows, rows]
  exact List.mem_append_left _ (mem_rows.mpr found)

/-! ## Row-wise change -/

section Evolution

variable {step : κ → α → α → Prop}

/-- The same keys, with every row changed as `step` allows. -/
def Evolves (step : κ → α → α → Prop) (before after : Table κ α) : Prop :=
  ∀ key, Option.Rel (step key) (before.get? key) (after.get? key)

theorem Evolves.refl (reflexive : ∀ key value, step key value value) (table : Table κ α) :
    Evolves step table table := by
  intro key
  cases table.get? key with
  | none => exact .none
  | some value => exact .some (reflexive key value)

/-- The row that a stored row has become. -/
theorem Evolves.lookup (evolves : Evolves step before after) (found : before.get? key = some old) :
    ∃ new, after.get? key = some new ∧ step key old new := by
  have related := evolves key
  rw [found] at related
  cases later : after.get? key with
  | none =>
    rw [later] at related
    cases related
  | some new =>
    rw [later] at related
    cases related with
    | some changed => exact ⟨new, rfl, changed⟩

/-- The row that a row has come from. -/
theorem Evolves.origin (evolves : Evolves step before after) (found : after.get? key = some new) :
    ∃ old, before.get? key = some old ∧ step key old new := by
  have related := evolves key
  rw [found] at related
  cases earlier : before.get? key with
  | none =>
    rw [earlier] at related
    cases related
  | some old =>
    rw [earlier] at related
    cases related with
    | some changed => exact ⟨old, rfl, changed⟩

theorem Evolves.get?_eq_none (evolves : Evolves step before after) :
    after.get? key = none ↔ before.get? key = none := by
  constructor
  · intro absent
    cases found : before.get? key with
    | none => rfl
    | some old =>
      rcases evolves.lookup found with ⟨new, present, _⟩
      rw [absent] at present
      cases present
  · intro absent
    cases found : after.get? key with
    | none => rfl
    | some new =>
      rcases evolves.origin found with ⟨old, present, _⟩
      rw [absent] at present
      cases present

theorem Evolves.trans
    (transitive : ∀ key first second third, step key first second → step key second third →
      step key first third) (earlier : Evolves step before middle)
    (later : Evolves step middle after) : Evolves step before after := by
  intro key
  cases found : before.get? key with
  | none => rw [later.get?_eq_none.mpr (earlier.get?_eq_none.mpr found)]; exact .none
  | some old =>
    rcases earlier.lookup found with ⟨between, foundBetween, first⟩
    rcases later.lookup foundBetween with ⟨new, foundNew, second⟩
    rw [foundNew]
    exact .some (transitive key old between new first second)

theorem Evolves.mono (evolves : Evolves step before after)
    (implies : ∀ key old new, before.get? key = some old → step key old new →
      weaker key old new) : Evolves weaker before after := by
  intro key
  cases found : before.get? key with
  | none => rw [evolves.get?_eq_none.mpr found]; exact .none
  | some old =>
    rcases evolves.lookup found with ⟨new, foundNew, changed⟩
    rw [foundNew]
    exact .some (implies key old new found changed)

theorem evolves_modify {change : κ → α → α}
    (changed : ∀ key old, table.get? key = some old → step key old (change key old)) :
    Evolves step table (table.modify change) := by
  intro key
  rw [get?_modify]
  cases found : table.get? key with
  | none => exact .none
  | some old => exact .some (changed key old found)

theorem evolves_update (reflexive : ∀ key value, step key value value)
    (changed : ∀ old, table.get? key = some old → step key old (change old)) :
    Evolves step table (table.update key change) := by
  apply evolves_modify
  intro other old found
  split
  · next same =>
    subst same
    exact changed old found
  · exact reflexive other old

end Evolution

section Copy

variable {μ : Type*} [DecidableEq μ]

/-- Upsert every row of `source` under the renamed key. -/
def setAll (start : Table μ α) (rename : κ → μ) (source : Table κ α) : Table μ α :=
  source.rows.foldl (fun table row => table.set (rename row.1) row.2) start

omit [DecidableEq κ] in
private theorem get?_foldl_set (rename : κ → μ) (rows : List (κ × α)) (start : Table μ α)
    (key : μ) (absent : ∀ row ∈ rows, rename row.1 ≠ key) :
    (rows.foldl (fun table row => table.set (rename row.1) row.2) start).get? key =
      start.get? key := by
  induction rows generalizing start with
  | nil => rfl
  | cons row rest ih =>
    rw [List.foldl_cons, ih _ fun other member => absent other (List.mem_cons_of_mem _ member),
      get?_set, if_neg (absent row List.mem_cons_self).symm]

omit [DecidableEq κ] in
theorem get?_setAll_of_ne (start : Table μ α) (rename : κ → μ) (source : Table κ α) {key : μ}
    (absent : ∀ other, rename other ≠ key) :
    (start.setAll rename source).get? key = start.get? key :=
  get?_foldl_set rename source.rows start key fun row _ => absent row.1

/-- A renaming that separates the copied keys from `key` copies its row. -/
theorem get?_setAll (start : Table μ α) (rename : κ → μ) (source : Table κ α) (key : κ)
    (distinct : ∀ other ∈ source.keys, rename other = rename key → other = key) :
    (start.setAll rename source).get? (rename key) =
      (source.get? key).or (start.get? (rename key)) := by
  obtain ⟨rows, nodup⟩ := source
  simp only [setAll, get?]
  induction rows generalizing start with
  | nil => rfl
  | cons row rest ih =>
    simp only [List.map_cons, List.nodup_cons, List.mem_map, not_exists, not_and] at nodup
    have separated : ∀ other ∈ rest, rename other.1 = rename key → other.1 = key := by
      intro other member
      exact distinct other.1 (List.mem_map.mpr ⟨other, List.mem_cons_of_mem _ member, rfl⟩)
    rw [List.foldl_cons]
    by_cases same : row.1 = key
    · subst same
      have kept := get?_foldl_set rename rest (start.set (rename row.1) row.2) (rename row.1)
        fun other member equal => nodup.1 other member (separated other member equal)
      rw [get?_set, if_pos rfl] at kept
      simpa [get?] using kept
    · have rest := ih (start.set (rename row.1) row.2) nodup.2 (by
        intro other member
        obtain ⟨row, rowMember, rfl⟩ := List.mem_map.mp member
        exact separated row rowMember)
      have untouched : (start.set (rename row.1) row.2).get? (rename key) =
          start.get? (rename key) := by
        rw [get?_set, if_neg]
        intro equal
        exact same (distinct row.1 (List.mem_map.mpr ⟨row, List.mem_cons_self, rfl⟩) equal.symm)
      simp only [get?] at untouched rest
      rw [rest, untouched]
      simp [same]

end Copy

/-- The values under their keys; of two with one key the later stays. -/
def collect (keyOf : α → κ) (values : List α) : Table κ α :=
  values.foldl (fun table value => table.set (keyOf value) value) empty

/-- The same rows, in whatever order. -/
def same [DecidableEq α] (left right : Table κ α) : Bool :=
  (left.keys ++ right.keys).all fun key => left.get? key = right.get? key

end Lookup

/-! ## Sums over all rows -/

/-- Add up a weight over every row. -/
def sum (table : Table κ α) (weight : κ → α → Nat) : Nat :=
  (table.rows.map fun row => weight row.1 row.2).sum

theorem sum_filter_le (table : Table κ α) (keep : κ → α → Bool) (weight : κ → α → Nat) :
    (table.filter keep).sum weight ≤ table.sum weight :=
  (List.filter_sublist.map _).sum_le_sum fun _ _ => Nat.zero_le _

theorem sum_add (table : Table κ α) (left right : κ → α → Nat) :
    (table.sum fun key value => left key value + right key value) =
      table.sum left + table.sum right :=
  List.sum_map_add

section Sums

variable [DecidableEq κ]

/-- Weights that shrink on the stored rows shrink the sum. -/
theorem sum_le_sum
    (below : ∀ key value, table.get? key = some value → small key value ≤ large key value) :
    table.sum small ≤ table.sum large := by
  apply List.sum_le_sum
  intro row member
  exact below row.1 row.2 (mem_rows.mp member)

/-- A change that makes no row heavier makes the table no heavier. -/
theorem sum_update_le
    (lighter : ∀ value, table.get? key = some value →
      weight key (change value) ≤ weight key value) :
    (table.update key change).sum weight ≤ table.sum weight := by
  simp only [update, modify, sum, List.map_map]
  apply List.sum_le_sum
  intro row member
  by_cases same : row.1 = key
  · have stored := mem_rows.mp member
    simpa [same] using lighter row.2 (same ▸ stored)
  · simp [same]

/-- Picking out one key leaves the weight of its row. -/
theorem sum_ite_key (table : Table κ α) (key : κ) (weight : α → Nat) :
    (table.sum fun other value => if other = key then weight value else 0) =
      ((table.get? key).map weight).getD 0 := by
  obtain ⟨rows, nodup⟩ := table
  simp only [sum, get?]
  induction rows with
  | nil => rfl
  | cons row rest ih =>
    simp only [List.map_cons, List.nodup_cons, List.mem_map, not_exists, not_and] at nodup
    rw [List.map_cons, List.sum_cons, ih nodup.2]
    by_cases same : row.1 = key
    · have absent : (rest.find? fun row => row.1 = key) = none := by
        rw [List.find?_eq_none]
        intro other member equal
        exact nodup.1 other member ((of_decide_eq_true equal).trans same.symm)
      simp [same, absent]
    · simp [same]

/-- A new row adds its own weight. -/
theorem sum_set_of_absent (value : α) (absent : table.get? key = none) (weight : κ → α → Nat) :
    (table.set key value).sum weight = table.sum weight + weight key value := by
  rw [get?_eq_none] at absent
  simp [set, absent, sum]

end Sums

end Table

end Relational
