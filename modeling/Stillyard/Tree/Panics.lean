import Stillyard.Submission.Lineage
import Stillyard.Tree.Children

/-!
# Which requests for children panic

With the rows that a model was loaded from, every row that a page needs is found
and every node that it changes is there, so a request panics on the token of its
cursor or not at all.
-/

namespace Stillyard.Tree

open Relational Fallible Text

namespace TreeModel

variable {model : TreeModel} {job : DurableId}

theorem contains_iff : model.contains job = true ↔ ∃ row ∈ model.rows, row.jobId = job := by
  simp [contains, byId]

theorem row_of_contains (known : model.contains job = true) : ∃ row, model.row job = .ok row := by
  obtain ⟨index, found⟩ := Option.isSome_iff_exists.mp known
  obtain ⟨bound, _⟩ := List.findIdx?_eq_some_iff_getElem.mp found
  exact ⟨model.rows[index], by simp [row, found, orError, bound, bind, Except.bind]⟩

theorem row_orderly (known : model.contains job = true) :
    FailsOnly Stop.Orderly (model.row job) := by
  obtain ⟨row, found⟩ := row_of_contains known
  rw [found]
  exact .ok row

theorem contains_of_mem_children (listed : child ∈ model.children job) :
    model.contains child = true := by
  simp only [children, List.mem_map, List.mem_insertionSort, List.mem_filter] at listed
  obtain ⟨row, ⟨member, _⟩, rfl⟩ := listed
  exact contains_iff.mpr ⟨row, member, rfl⟩

theorem checkAncestry_orderly (room : Nat) (visited : List DurableId) (job : DurableId) :
    FailsOnly Stop.Orderly (model.checkAncestry room visited job) := by
  induction room generalizing visited job with
  | zero =>
    rw [checkAncestry]
    exact .bind (.require trivial) fun _ _ => .error trivial
  | succ room ih =>
    rw [checkAncestry]
    refine .bind (.require trivial) fun _ _ => ?_
    split
    · exact .ok ()
    · exact ih _ _

theorem ancestry_orderly (room : Nat) (seen : List DurableId) (job : DurableId) :
    FailsOnly Stop.Orderly (model.ancestry room seen job) := by
  induction room generalizing seen job with
  | zero => exact .error trivial
  | succ room ih =>
    rw [ancestry]
    refine .bind (.require trivial) fun _ _ => ?_
    split
    · exact .ok _
    · exact .bind (ih _ _) fun _ _ => .ok _

/-- The rows that the queue may still get: those below Jobs that are not selected. -/
def unqueued (model : TreeModel) (selected : List DurableId) : Nat :=
  model.rows.countP fun row => !row.parentId.any selected.contains

theorem length_children_le (fresh : selected.contains job = false) :
    (model.children job).length + model.unqueued (job :: selected) ≤ model.unqueued selected := by
  have shorter : (model.children job).length ≤
      model.rows.countP fun row => row.parentId = some job := by
    rw [children, List.length_map, List.length_insertionSort, ← List.countP_eq_length_filter]
    exact List.countP_mono_left fun row _ both => (Bool.and_eq_true_iff.mp both).1
  have disjoint : ∀ rows : List TreeRow,
      rows.countP (fun row => row.parentId = some job) +
        rows.countP (fun row => !row.parentId.any (job :: selected).contains) ≤
      rows.countP fun row => !row.parentId.any selected.contains := by
    intro rows
    induction rows with
    | nil => simp
    | cons row rest ih =>
      simp only [List.countP_cons]
      cases parent : row.parentId with
      | none => simp; omega
      | some above =>
        by_cases same : above = job
        · subst same
          simp_all
          omega
        · simp [same]
          omega
  exact (Nat.add_le_add_right shorter _).trans (disjoint model.rows)

/-- The queue is worked off, and no depth in it overflows. -/
theorem selectLoop_orderly {queue : List (DurableId × Nat)}
    (enough : queue.length + model.unqueued selected ≤ fuel)
    (shallow : ∀ entry ∈ queue, entry.2 + fuel < u32Bound) :
    FailsOnly Stop.Orderly (model.selectLoop depth fuel queue visible selected) := by
  induction fuel generalizing queue visible selected with
  | zero =>
    cases queue with
    | nil => exact .ok _
    | cons entry rest => simp at enough
  | succ fuel ih =>
    cases queue with
    | nil => exact .ok _
    | cons entry rest =>
      obtain ⟨job, relative⟩ := entry
      rw [List.forall_mem_cons] at shallow
      rw [List.length_cons] at enough
      simp only [selectLoop]
      split
      · exact ih (by omega) fun entry member => by have := shallow.2 entry member; omega
      · next fresh =>
        have added : (model.children job).length + model.unqueued (job :: selected) ≤
            model.unqueued selected := length_children_le (Bool.eq_false_iff.mpr fresh)
        have room : relative + 1 < u32Bound := by have := shallow.1; omega
        refine .bind ?_ fun _ _ => ih ?_ ?_
        · simp only [room, decide_true, Bool.or_true]
          exact .ok ()
        · rw [List.length_append, List.length_map]
          omega
        · intro entry member
          cases List.mem_append.mp member with
          | inl old => have := shallow.2 entry old; omega
          | inr new =>
            obtain ⟨child, _, rfl⟩ := List.mem_map.mp new
            have := shallow.1
            dsimp only
            omega

theorem selectNodes_orderly (few : model.rows.length ≤ treeScanBudget) :
    FailsOnly Stop.Orderly (model.selectNodes selector depth) := by
  have anchors : (model.anchors selector).length ≤ model.rows.length := by
    rw [TreeModel.anchors, List.length_map]
    exact List.length_filter_le _ _
  refine .bind (.require trivial) fun _ _ => .bind ?_ fun _ _ =>
    .bind (.mapM fun anchor _ => ancestry_orderly _ _ _) fun _ _ => .ok _
  apply selectLoop_orderly
  · rw [List.length_map]
    exact Nat.add_le_add_left List.countP_le_length _
  · simp only [List.forall_mem_map, treeScanBudget, u32Bound] at *
    intro anchor _
    omega

theorem familyLoop_orderly (known : ∀ job ∈ pending, model.contains job = true) :
    FailsOnly Stop.Orderly (model.familyLoop room pending seen queued) := by
  induction room generalizing pending seen queued with
  | zero =>
    cases pending with
    | nil => exact .ok _
    | cons job rest => exact .error trivial
  | succ room ih =>
    cases pending with
    | nil => exact .ok _
    | cons job rest =>
      rw [List.forall_mem_cons] at known
      have deeper : ∀ other ∈ (model.children job).reverse ++ rest,
          model.contains other = true := by
        rw [List.forall_mem_append]
        exact ⟨fun child listed => contains_of_mem_children (List.mem_reverse.mp listed), known.2⟩
      rw [familyLoop]
      refine .bind (.require trivial) fun _ _ =>
        .bind (row_orderly known.1) fun row _ => ?_
      cases row.state with
      | active => exact .ok _
      | pending | final => exact ih deeper

end TreeModel

namespace Emission

variable {σ : Type} {page : Emission σ} {state next : EmitState σ}

/-- A step of an emission returns an error or keeps the nodes that there were. -/
structure Orderly (state : EmitState σ) (result : Except Stop (EmitState σ × EmitOutcome)) :
    Prop where
  fails : FailsOnly Stop.Orderly result
  grows : ∀ next outcome, result = .ok (next, outcome) → state.nodes.length ≤ next.nodes.length

theorem Orderly.ok (grows : state.nodes.length ≤ next.nodes.length) :
    Orderly state (.ok (next, outcome)) := by
  refine ⟨.ok _, ?_⟩
  rintro _ _ ⟨⟩
  exact grows

theorem Orderly.error (orderly : stop.Orderly) : Orderly state (.error stop) :=
  ⟨.error orderly, fun _ _ failed => by cases failed⟩

theorem truncate_eq_ok (job : DurableId) (known : page.model.contains child = true)
    (within : index < state.nodes.length) :
    ∃ next, page.truncate index job child state = .ok next ∧
      next.nodes.length = state.nodes.length := by
  obtain ⟨row, found⟩ := TreeModel.row_of_contains known
  refine ⟨{ state with nodes := state.nodes.modify index fun node =>
    { node with
      descendantsTruncated := true
      nextChildrenCursor := some (page.childCursor job row) } }, ?_, List.length_modify ..⟩
  simp only [truncate, ok_iff, decide_eq_true_eq]
  exact ⟨(), within, row, found, rfl⟩

/-- The loop over the children of a node, if it is so for each of them. -/
theorem emitChildren_orderly
    {emit : DurableId → EmitState σ → Except Stop (EmitState σ × EmitOutcome)}
    {start : EmitState σ} (known : ∀ child ∈ children, page.model.contains child = true)
    (shallow : depth + 1 < u32Bound)
    (each : ∀ child state, page.model.contains child = true →
      start.nodes.length ≤ state.nodes.length → state.nodes.length < page.nodeLimit →
      Orderly state (emit child state))
    (within : index < start.nodes.length) (later : start.nodes.length ≤ state.nodes.length) :
    Orderly state (page.emitChildren emit depth index job children state) := by
  induction children generalizing state with
  | nil => exact .ok le_rfl
  | cons child rest ih =>
    rw [List.forall_mem_cons] at known
    rw [emitChildren]
    split
    · obtain ⟨next, cut, same⟩ := truncate_eq_ok job known.1 (within.trans_le later)
      rw [cut]
      exact .ok same.ge
    · split
      · obtain ⟨next, cut, same⟩ := truncate_eq_ok job known.1 (within.trans_le later)
        rw [cut]
        exact .ok same.ge
      · next room =>
        have emitted := each child state known.1 later (Nat.lt_of_not_le room)
        simp only [shallow, decide_true, require]
        cases computed : emit child state with
        | error stop => exact .error (emitted.fails stop computed)
        | ok result =>
          obtain ⟨next, outcome⟩ := result
          have grown := emitted.grows next outcome computed
          change Orderly state (if outcome.pageFull then _ else _)
          split
          · split
            · next cutAt chosen =>
              have listed : page.model.contains cutAt = true := by
                split at chosen
                · exact known.2 cutAt (List.mem_of_head? chosen)
                · cases chosen
                  exact known.1
              obtain ⟨last, cut, same⟩ :=
                truncate_eq_ok job listed (within.trans_le (later.trans grown))
              rw [cut]
              exact .ok (grown.trans same.ge)
            · exact .ok grown
          · have rest := ih known.2 (later.trans grown)
            exact ⟨rest.fails, fun last outcome done => grown.trans (rest.grows last outcome done)⟩

theorem contains_of_eligible (listed : child ∈ page.eligibleChildren job) :
    page.model.contains child = true :=
  TreeModel.contains_of_mem_children (List.mem_filter.mp listed).1

theorem baseNode_orderly (known : page.model.contains job = true) :
    FailsOnly Stop.Orderly (page.baseNode depth job) := by
  refine .bind (TreeModel.row_orderly known) fun _ _ =>
    .bind (.mapError fun _ => trivial) fun _ _ => .bind ?_ fun _ _ => .ok _
  unfold familyAttention
  split
  · exact .map (TreeModel.familyLoop_orderly (by simpa using known))
  · exact .ok _

/-- With fuel for the nodes that a page still takes, the recursion ends. -/
theorem emitNode_orderly (known : page.model.contains job = true) (fueled : 0 < fuel)
    (enough : page.nodeLimit < state.nodes.length + fuel) (shallow : depth + fuel < u32Bound) :
    Orderly state (page.emitNode fuel depth job state) := by
  induction fuel generalizing depth job state with
  | zero => cases fueled
  | succ fuel ih =>
    rw [emitNode]
    split
    · exact .ok le_rfl
    · next room =>
      cases computed : page.baseNode depth job with
      | error stop => exact .error (baseNode_orderly known stop computed)
      | ok node =>
        simp only [bind, Except.bind]
        split
        · split
          · exact .error trivial
          · exact .ok le_rfl
        · let start : EmitState σ :=
            ⟨state.nodes ++ [node], saturatingAdd state.encodedBudget (page.nodeCost node)⟩
          have children : Orderly start (page.emitChildren (page.emitNode fuel (depth + 1)) depth
              state.nodes.length job (page.eligibleChildren job) start) := by
            refine emitChildren_orderly (fun child listed => contains_of_eligible listed)
              (by omega) ?_ (by simp [start]) le_rfl
            intro child later listed longer short
            rw [List.length_append, List.length_singleton] at longer
            exact ih listed (by omega) (by omega) (by omega)
          refine ⟨children.fails, fun next outcome done => ?_⟩
          have grown := children.grows next outcome done
          rw [List.length_append] at grown
          exact (Nat.le_add_right _ _).trans grown

theorem emitSiblings_orderly (known : ∀ child ∈ children, page.model.contains child = true)
    (bounded : page.nodeLimit ≤ maxTreePageNodes) :
    FailsOnly Stop.Orderly (page.emitSiblings children state) ∧
      ∀ next remaining, page.emitSiblings children state = .ok (next, remaining) →
        remaining ⊆ children := by
  have shallow : 1 + (page.nodeLimit + 1) < u32Bound := by
    simp only [maxTreePageNodes, u32Bound] at *
    omega
  induction children generalizing state with
  | nil =>
    refine ⟨.ok _, ?_⟩
    rintro _ _ ⟨⟩
    exact List.Subset.refl _
  | cons child rest ih =>
    rw [List.forall_mem_cons] at known
    rw [emitSiblings]
    split
    · refine ⟨.ok _, ?_⟩
      rintro _ _ ⟨⟩
      exact List.Subset.refl _
    · have emitted : Orderly state (page.emitNode (page.nodeLimit + 1) 1 child state) :=
        emitNode_orderly known.1 (Nat.succ_pos page.nodeLimit) (by omega) shallow
      cases computed : page.emitNode (page.nodeLimit + 1) 1 child state with
      | error stop =>
        exact ⟨.error (emitted.fails stop computed), fun _ _ failed => by cases failed⟩
      | ok result =>
        obtain ⟨next, outcome⟩ := result
        obtain ⟨fails, remains⟩ := @ih next known.2
        simp only [bind, Except.bind]
        split
        · refine ⟨.ok _, ?_⟩
          rintro _ _ ⟨⟩
          exact List.Subset.refl _
        · split
          · refine ⟨.ok _, ?_⟩
            rintro _ _ ⟨⟩
            exact List.subset_cons_self _ _
          · exact ⟨fails, fun last remaining done =>
              List.subset_cons_of_subset _ (remains last remaining done)⟩

end Emission

theorem validateTreeSelector_orderly (store : SubmissionStore) (selector : JobSelector) :
    FailsOnly Stop.Orderly (validateTreeSelector store selector) := by
  have jobs : ∀ seen jobIds, FailsOnly Stop.Orderly (validateJobIds store seen jobIds) := by
    intro seen jobIds
    induction jobIds generalizing seen with
    | nil => exact .ok ()
    | cons job rest ih =>
      exact .bind (.require trivial) fun _ _ =>
        .bind (.require trivial) fun _ _ => ih _
  refine .bind ?_ fun _ _ => ?_
  · cases selector with
    | all => exact .ok ()
    | jobs jobIds => exact .bind (.require trivial) fun _ _ => jobs _ _
    | batch | labels =>
      exact .bind (.require trivial) fun _ _ =>
        .require trivial
  · cases selector with
    | jobs jobIds => exact .require trivial
    | all | batch | labels => exact .ok ()

theorem loadTreeModel_orderly (store : SubmissionStore) :
    FailsOnly Stop.Orderly (loadTreeModel store) ∧
      ∀ model, loadTreeModel store = .ok model → model.rows.length ≤ treeScanBudget := by
  constructor
  · refine .bind (.require trivial) fun _ _ => .bind (.forM ?_) fun _ _ =>
      .bind (.forM fun row _ => TreeModel.checkAncestry_orderly _ _ _) fun _ _ => .ok _
    intro row member
    exact .map (TreeModel.row_orderly (TreeModel.contains_iff.mpr ⟨row, member, rfl⟩))
  · intro model loaded
    simp only [loadTreeModel, ok_iff, decide_eq_true_eq] at loaded
    obtain ⟨_, few, _, _, _, _, rfl⟩ := loaded
    exact few

/-- Behind the token nothing panics, and every walk ends. -/
theorem childrenPage_orderly {σ : Type} (reads : TreeReads σ) (store : SubmissionStore)
    (cursor : JobChildrenCursor) (bounded : nodeLimit ≤ maxTreePageNodes) :
    FailsOnly Stop.Orderly
      (childrenPage reads store cursor nodeLimit additionalDepth selector) := by
  refine .bind (validateTreeSelector_orderly store selector) fun _ _ =>
    .bind (loadTreeModel_orderly store).1 fun model loaded =>
    .bind (TreeModel.selectNodes_orderly ((loadTreeModel_orderly store).2 model loaded))
      fun selection _ => ?_
  have known : ∀ child ∈ (model.children cursor.parentJobId).filter selection.eligible.contains,
      model.contains child = true := fun child listed =>
    TreeModel.contains_of_mem_children (List.mem_filter.mp listed).1
  refine .bind (.mapM fun child listed => ?_) fun _ _ =>
    .bind (.orError trivial) fun start _ => ?_
  · unfold JobChildrenCursor.names
    split
    · exact .map (TreeModel.row_orderly (known child listed))
    · exact .ok _
  · let page : Emission σ := ⟨store.storeUuid, reads, model, selection,
      some (additionalDepth + 1), nodeLimit, cursor.selectorHash⟩
    obtain ⟨fails, remains⟩ := @Emission.emitSiblings_orderly _ page ⟨[], 0⟩ _
      (fun child listed => known child (List.mem_of_mem_drop (i := start) listed)) bounded
    refine .bind fails fun result emitted => .bind ?_ fun _ _ =>
      .bind (.mapError fun _ => trivial) fun _ _ =>
      .bind (.require trivial) fun _ _ => .ok _
    obtain ⟨state, remaining⟩ := result
    cases first : remaining with
    | nil => exact .ok _
    | cons child rest =>
      have listed : child ∈ remaining := first ▸ List.mem_cons_self
      have kept := List.mem_of_mem_drop (remains state remaining emitted listed)
      exact .map (.map (TreeModel.row_orderly (known child kept)))

theorem selectorFromToken_ended (codec : SelectorCodec) (token : List Char) :
    selectorFromToken codec token ≠ .error .unfinished := by
  have pairs : ∀ count text, unhexPairs count text ≠ .error .unfinished := by
    intro count
    induction count with
    | zero => simp [unhexPairs, pure, Except.pure]
    | succ count ih =>
      simp [unhexPairs, bind_eq_error, orError_eq_error, ih, pure, Except.pure]
  simp [selectorFromToken, unhex, bind_eq_error, orError_eq_error, require_eq_error, pairs]

theorem checkChildren_eq_ok
    (checked : checkChildren storeUuid cursor nodeLimit additionalDepth = .ok ()) :
    nodeLimit ≤ maxTreePageNodes := by
  simp only [checkChildren, validateTreeBounds, ok_iff, test_iff] at checked
  obtain ⟨_, ⟨⟨_, _, bounded⟩, _⟩, _⟩ := checked
  exact bounded

/-- A request that does not return an error stops at its token. -/
theorem treeChildren_stops {σ : Type} {reads : TreeReads σ} {stop : Stop}
    (abrupt : ¬stop.Orderly) :
    treeChildren codec reads store cursor nodeLimit additionalDepth = .error stop ↔
      reads.begins = .ok () ∧
        checkChildren store.storeUuid cursor nodeLimit additionalDepth = .ok () ∧
        selectorFromToken codec cursor.selectorHash = .error stop := by
  have never : ∀ {α : Type} {computation : Except Stop α}, FailsOnly Stop.Orderly computation →
      computation ≠ .error stop := fun fails failed => abrupt (fails stop failed)
  have bounds : checkChildren store.storeUuid cursor nodeLimit additionalDepth ≠ .error stop :=
    never (.bind (.require trivial) fun _ _ => .require trivial)
  have transaction : ∀ result : Except String Unit, result.mapError Stop.sqlite ≠ .error stop :=
    fun result => never (.mapError fun _ => trivial)
  simp only [treeChildren, treeChildrenInSnapshot, bind_eq_error, transaction, bounds, false_or,
    mapError_eq_ok]
  constructor
  · rintro ⟨_, begun, ⟨_, checked, token | ⟨selector, _, page⟩⟩ | ⟨_, _, _, _, impossible⟩⟩
    · exact ⟨begun, checked, token⟩
    · have bounded := checkChildren_eq_ok checked
      exact absurd page (never (childrenPage_orderly reads store cursor bounded))
    · cases impossible
  · rintro ⟨begun, checked, token⟩
    exact ⟨(), begun, .inl ⟨(), checked, .inl token⟩⟩

/-- Reading a children cursor panics exactly on the tokens with a slice that ends
inside a character.  It accepts only a digest that matches, and reads a written
token back wherever the JSON does.  A request for children ends, and it panics
exactly if it gets as far as such a token. -/
theorem cursors_panic_iff (codec : SelectorCodec) :
    (∀ token, selectorFromToken codec token = .error .panics ↔ Straddling token) ∧
    (∀ token selector, selectorFromToken codec token = .ok selector ↔ ∃ encoded json,
      splitOnce token = some (hex (codec.sha256 json), encoded) ∧ unhex encoded = .ok json ∧
        codec.fromSlice json = some selector) ∧
    (∀ selector, codec.fromSlice (codec.toVec selector) = some selector →
      selectorFromToken codec (selectorToken codec selector) = .ok selector) ∧
    ∀ (σ : Type) (reads : TreeReads σ) store cursor nodeLimit additionalDepth,
      treeChildren codec reads store cursor nodeLimit additionalDepth ≠ .error .unfinished ∧
      (treeChildren codec reads store cursor nodeLimit additionalDepth = .error .panics ↔
        reads.begins = .ok () ∧
          checkChildren store.storeUuid cursor nodeLimit additionalDepth = .ok () ∧
          Straddling cursor.selectorHash) := by
  refine ⟨fun _ => selectorFromToken_panics codec, fun _ _ => selectorFromToken_eq_ok codec,
    fun selector reads => ?_, fun σ reads store cursor nodeLimit additionalDepth => ?_⟩
  · exact (selectorFromToken_eq_ok codec).mpr
      ⟨_, _, splitOnce_hex _ _, unhex_hex _, reads⟩
  · constructor
    · rw [Ne, treeChildren_stops id]
      exact fun stopped => selectorFromToken_ended codec _ stopped.2.2
    · rw [treeChildren_stops id, selectorFromToken_panics]

/-- `serde_json` for selectors whose labels need no escapes. -/
def selectorJson : JobSelector → String
  | .all => "\x7b\"kind\":\"all\"\x7d"
  | .jobs jobIds => "\x7b\"kind\":\"jobs\",\"job_ids\":[" ++
      ",".intercalate (jobIds.map fun job => "\"" ++ toString job ++ "\"") ++ "]\x7d"
  | .batch batchId =>
      "\x7b\"kind\":\"batch\",\"batch_id\":\"" ++ toString batchId ++ "\"\x7d"
  | .labels labels => "\x7b\"kind\":\"labels\",\"labels\":[" ++
      ",".intercalate (labels.map fun label =>
        "\x7b\"key\":\"" ++ label.key ++ "\",\"value\":\"" ++ label.value ++ "\"\x7d") ++
      "]\x7d"

/-- A codec that reads a few selectors, with a sum in the place of the digest. -/
def demoCodec : SelectorCodec where
  toVec selector := (selectorJson selector).toList.map fun char => UInt8.ofNat char.toNat
  fromSlice bytes := [JobSelector.all, .jobs [⟨1, 2⟩], .labels [⟨"team", "red"⟩]].find?
    fun selector => (selectorJson selector).toList.map (fun char => UInt8.ofNat char.toNat) = bytes
  sha256 bytes := List.replicate 32 (bytes.foldl (· + ·) 0)

/-- Summaries are the identifiers, and a node takes 900 bytes. -/
def demoReads : TreeReads DurableId where
  begins := .ok ()
  commits := .ok ()
  jobSummary job := .ok job
  eventHead := .ok 12
  nodeBytes _ := 900
  pageBytes page := 200 + 901 * page.nodes.length

/-- The cursor of the first child of the root Job in a family of three. -/
def firstChild (selector : JobSelector) : JobChildrenCursor :=
  ⟨1, selectorToken demoCodec selector, ⟨1, 2⟩, 0, ⟨1, 5⟩⟩

theorem firstChild_reads :
    (∀ selector ∈ [JobSelector.all, .jobs [⟨1, 2⟩], .labels [⟨"team", "red"⟩]],
      selectorFromToken demoCodec (selectorToken demoCodec selector) = .ok selector) ∧
    ((treeChildren demoCodec demoReads (withGrandchild "/work/a/link") (firstChild .all) 256
      (some 1)).toOption.any fun page => page.nodes.map JobTreeNode.summary = [⟨1, 5⟩, ⟨1, 8⟩]) =
        true := by
  refine ⟨fun selector listed => (cursors_panic_iff demoCodec).2.2.1 selector ?_, ?_⟩
  · revert selector
    decide +kernel
  · decide +kernel

/-- The first two bytes after the separator are `a` and half of the next
character. -/
theorem selectorFromToken_splits_character :
    (∀ codec, selectorFromToken codec ['x', ':', 'a', 'é', 'b'] = .error .panics) ∧
      ∀ codec (parent child : Uuid), treeChildren codec demoReads (.initial 1)
        ⟨1, ['x', ':', 'a', 'é', 'b'], ⟨1, parent⟩, 0, ⟨1, child⟩⟩ 1 none = .error .panics :=
  ⟨fun _ => rfl, fun _ _ _ => rfl⟩

end Stillyard.Tree
