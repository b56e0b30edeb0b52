import Mathlib

/-!
# Worklists

A loop takes nodes from the front of a queue and visits each once.  A visit may
fail; it reports findings and the nodes to add at the back of the queue.  With
fuel for every node that can be queued the loop ends, and when it ends without
failure it has visited everything that can be reached.
-/

namespace Worklist

variable {fuel : Nat}

variable {ε κ α : Type} [DecidableEq κ]

/-- The loop, `none` when the fuel runs out. -/
def run (visit : κ → Except ε (List α × List κ)) :
    (fuel : Nat) → (visited pending : List κ) → Option (Except ε (List α))
  | _, _, [] => some (.ok [])
  | 0, _, _ :: _ => none
  | fuel + 1, visited, node :: pending =>
    if node ∈ visited then run visit fuel visited pending
    else match visit node with
      | .error reason => some (.error reason)
      | .ok (findings, next) =>
        (run visit fuel (node :: visited) (pending ++ next)).map fun rest =>
          rest.map (findings ++ ·)

/-- The second node is queued by a visit of the first. -/
def Queues (visit : κ → Except ε (List α × List κ)) (node other : κ) : Prop :=
  ∃ findings next, visit node = .ok (findings, next) ∧ other ∈ next

section

variable {visit : κ → Except ε (List α × List κ)}
variable {visited pending : List κ} {node : κ} {weight : κ → Nat} {found : List α}

/-- The loop ends if there is fuel for the queue and for everything that visits
can add to it. -/
theorem run_isSome {nodes : Finset κ}
    (known : ∀ node findings next, visit node = .ok (findings, next) →
      node ∈ nodes ∧ next.length ≤ weight node)
    (enough : pending.length + ∑ node ∈ nodes \ visited.toFinset, weight node ≤ fuel) :
    (run visit fuel visited pending).isSome := by
  induction fuel generalizing visited pending with
  | zero =>
    cases pending with
    | nil => rfl
    | cons node rest => simp at enough
  | succ fuel ih =>
    cases pending with
    | nil => rfl
    | cons node rest =>
      rw [List.length_cons] at enough
      simp only [run]
      split
      · apply ih
        omega
      · next fresh =>
        split
        · rfl
        · next findings next visiting =>
          obtain ⟨member, bounded⟩ := known node findings next visiting
          have unvisited : node ∈ nodes \ visited.toFinset := by simp [member, fresh]
          rw [← Finset.add_sum_erase _ _ unvisited] at enough
          rw [Option.isSome_map]
          apply ih
          rw [List.toFinset_cons, Finset.sdiff_insert, List.length_append]
          omega

/-! ## Completeness -/

/-- The nodes that a finished loop has visited: they contain the queue, and with
a node everything that it queues. -/
theorem run_closed (finished : run visit fuel visited pending = some (.ok found))
    (closed : ∀ node ∈ visited, ∀ other, Queues visit node other →
      other ∈ visited ∨ other ∈ pending) :
    ∃ final : List κ, visited ⊆ final ∧ pending ⊆ final ∧
      (∀ node ∈ final, ∀ other, Queues visit node other → other ∈ final) ∧
      ∀ node ∈ final, node ∈ visited ∨
        ∃ findings next, visit node = .ok (findings, next) ∧ findings ⊆ found := by
  induction fuel generalizing visited pending found with
  | zero =>
    cases pending with
    | nil =>
      refine ⟨visited, List.Subset.refl _, List.nil_subset _, ?_, fun node => .inl⟩
      intro node member other queued
      simpa using closed node member other queued
    | cons node rest => cases finished
  | succ fuel ih =>
    cases pending with
    | nil =>
      refine ⟨visited, List.Subset.refl _, List.nil_subset _, ?_, fun node => .inl⟩
      intro node member other queued
      simpa using closed node member other queued
    | cons node rest =>
      simp only [run] at finished
      split at finished
      · next known =>
        obtain ⟨final, kept, queue, closedFinal, visits⟩ := ih finished (by
          intro earlier member other queued
          cases closed earlier member other queued with
          | inl seen => exact .inl seen
          | inr waiting =>
            cases List.mem_cons.mp waiting with
            | inl same => exact .inl (same ▸ known)
            | inr later => exact .inr later)
        exact ⟨final, kept, List.cons_subset.mpr ⟨kept known, queue⟩, closedFinal, visits⟩
      · split at finished
        · cases finished
        · next findings next visiting =>
          obtain ⟨result, ran, mapped⟩ := Option.map_eq_some_iff.mp finished
          cases result with
          | error reason => cases mapped
          | ok others =>
            cases mapped
            obtain ⟨final, kept, queue, closedFinal, visits⟩ := ih ran (by
              intro earlier member other queued
              cases List.mem_cons.mp member with
              | inl same =>
                obtain ⟨_, _, visited, listed⟩ := queued
                rw [same, visiting] at visited
                cases visited
                exact .inr (List.mem_append_right _ listed)
              | inr old =>
                cases closed earlier old other queued with
                | inl seen => exact .inl (List.mem_cons_of_mem _ seen)
                | inr waiting =>
                  cases List.mem_cons.mp waiting with
                  | inl same => exact .inl (same ▸ List.mem_cons_self)
                  | inr later => exact .inr (List.mem_append_left _ later))
            obtain ⟨first, older⟩ := List.cons_subset.mp kept
            refine ⟨final, older, List.cons_subset.mpr ⟨first, ?_⟩, closedFinal, ?_⟩
            · exact List.Subset.trans (List.subset_append_left rest next) queue
            · intro other member
              cases visits other member with
              | inl seen =>
                cases List.mem_cons.mp seen with
                | inl same =>
                  subst same
                  exact .inr ⟨findings, next, visiting, List.subset_append_left _ _⟩
                | inr old => exact .inl old
              | inr visit =>
                obtain ⟨reported, queued, visited, listed⟩ := visit
                exact .inr ⟨reported, queued, visited,
                  List.Subset.trans listed (List.subset_append_right _ _)⟩

/-- A finished loop has visited everything that can be reached from the queue. -/
theorem run_reaches (finished : run visit fuel [] pending = some (.ok found))
    (queued : start ∈ pending) (reached : Relation.ReflTransGen (Queues visit) start node) :
    ∃ findings next, visit node = .ok (findings, next) ∧ findings ⊆ found := by
  obtain ⟨final, _, queue, closed, visits⟩ := run_closed finished nofun
  have member : node ∈ final := by
    induction reached with
    | refl => exact queue queued
    | tail _ last ih => exact closed _ ih _ last
  exact (visits node member).resolve_left List.not_mem_nil

end

end Worklist
