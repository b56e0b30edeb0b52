import Stillyard.Submission.Accept
import Stillyard.Tree.Cursor

/-!
# Pages of children

`tree_children` reads all Jobs into a model, selects the Jobs that the token of
the cursor asks for, and emits the children of one Job from the cursor on, each
with its descendants, until the page is full.

Rows are found by index and nodes are changed in place, so a missing row or a
wrong position panics.
-/

namespace Stillyard.Tree

open Relational Fallible Text

structure TreeRow where
  jobId : DurableId
  parentId : Option DurableId
  acceptedMs : Int
  state : JobState
  batchId : Option DurableId
  labels : List Label

/-- The order of `ORDER BY accepted_ms, id` and of the children of a Job. -/
def TreeRow.NotAfter (left right : TreeRow) : Prop :=
  left.acceptedMs < right.acceptedMs ∨
    left.acceptedMs = right.acceptedMs ∧ left.jobId.entityUuid ≤ right.jobId.entityUuid

instance : DecidableRel TreeRow.NotAfter := fun _ _ => inferInstanceAs (Decidable (_ ∨ _))

/-- `TreeModel`.  Where the source keeps tables of positions, children and roots, they
are computed from the rows; identifiers are a primary key, so the first row with
an identifier is the only one. -/
structure TreeModel where
  rows : List TreeRow

namespace TreeModel

variable (model : TreeModel)

def byId (job : DurableId) : Option Nat := model.rows.findIdx? fun row => row.jobId = job

def contains (job : DurableId) : Bool := (model.byId job).isSome

/-- The row of a Job; an unknown one panics. -/
def row (job : DurableId) : Except Stop TreeRow := do
  let index ← orError (model.byId job) .panics
  orError model.rows[index]? .panics

/-- The parent of a Job, if both are retained. -/
def parent (job : DurableId) : Option DurableId :=
  ((model.row job).toOption.bind TreeRow.parentId).filter model.contains

def children (job : DurableId) : List DurableId :=
  ((model.rows.filter fun row => row.parentId = some job && model.contains job).insertionSort
    TreeRow.NotAfter).map TreeRow.jobId

def roots : List DurableId :=
  (model.rows.filter fun row => !row.parentId.any model.contains).map TreeRow.jobId

/-- The walk of `validate_parent_graph` from one Job, with room for as many more. -/
def checkAncestry : (room : Nat) → (visited : List DurableId) → DurableId → Except Stop Unit
  | 0, visited, job => do
      require (!visited.contains job) (.invalidState "tree parent graph contains a cycle")
      .error (.viewUnavailable "tree_scan_limit: parent ancestry exceeds 64 Jobs")
  | room + 1, visited, job => do
      require (!visited.contains job) (.invalidState "tree parent graph contains a cycle")
      match model.parent job with
      | none => return ()
      | some parent => checkAncestry room (job :: visited) parent

def validateParentGraph : Except Stop Unit :=
  model.rows.forM fun row => model.checkAncestry 64 [] row.jobId

end TreeModel

def treeScanBudget : Nat := 16384

/-- The rows of `jobs` that `load_tree_model` reads, in order. -/
def treeRows (store : SubmissionStore) : List TreeRow :=
  (store.native.jobs.rows.filterMap fun entry =>
    (store.origins.get? entry.1).map fun origin =>
      { jobId := ⟨store.storeUuid, entry.1⟩
        parentId := origin.parentJobId.map (DurableId.mk store.storeUuid)
        acceptedMs := entry.2.acceptedMs
        state := entry.2.state
        batchId := origin.batchId.map (DurableId.mk store.storeUuid)
        labels := entry.2.spec.labels }).insertionSort TreeRow.NotAfter

def loadTreeModel (store : SubmissionStore) : Except Stop TreeModel := do
  let model : TreeModel := ⟨(treeRows store).take (treeScanBudget + 1)⟩
  require (model.rows.length ≤ treeScanBudget)
    (.viewUnavailable s!"tree_scan_limit: scanned more than {treeScanBudget} Job rows")
  -- The sort of the children looks each of them up.
  model.rows.forM fun row => (model.row row.jobId).map fun _ => ()
  model.validateParentGraph
  return model

/-- The loop of `validate_selector` over explicit Jobs. -/
def validateJobIds (store : SubmissionStore) : (seen : List DurableId) → List DurableId →
    Except Stop Unit
  | _, [] => return ()
  | seen, job :: rest => do
      require (job.storeUuid = store.storeUuid && !seen.contains job)
        (.rejected "explicit Job selector contains a foreign or duplicate ID")
      require (store.native.jobs.get? job.entityUuid).isSome (.notFound (toString job))
      validateJobIds store (job :: seen) rest

/-- The labels that `validate_selector` accepts. -/
def validLabel (label : Label) : Bool :=
  !label.key.isEmpty && !label.value.isEmpty && !label.key.toList.contains (Char.ofNat 0) &&
    !label.key.toList.contains '=' && !label.value.toList.contains (Char.ofNat 0)

def validateSelector (store : SubmissionStore) : JobSelector → Except Stop Unit
  | .all => return ()
  | .jobs jobIds => do
      require (!jobIds.isEmpty && jobIds.length ≤ 1024)
        (.rejected "explicit Job selector must contain 1..=1024 IDs")
      validateJobIds store [] jobIds
  | .batch batchId => do
      require (batchId.storeUuid = store.storeUuid)
        (.rejected "Batch selector belongs to a different store")
      require (store.batches.get? batchId.entityUuid).isSome (.notFound (toString batchId))
  | .labels labels => do
      require (!labels.isEmpty && labels.length ≤ 32)
        (.rejected "label selector must contain 1..=32 labels")
      require (labels.all validLabel && decide labels.Nodup)
        (.rejected "label selector contains an invalid or duplicate label")

def treeSelectorJobLimit : Nat := 64

def validateTreeSelector (store : SubmissionStore) (selector : JobSelector) :
    Except Stop Unit := do
  validateSelector store selector
  match selector with
  | .jobs jobIds =>
    require (jobIds.length ≤ treeSelectorJobLimit)
      (.invalidSpec s!"tree Jobs selector exceeds {treeSelectorJobLimit} anchors")
  | _ => return ()

/-- `Selection`, of sets of Jobs. -/
structure Selection where
  eligible : List DurableId
  visible : List DurableId
  selectedContent : List DurableId

/-- Depths are `u32`; an overflow panics. -/
def u32Bound : Nat := 2 ^ 32

namespace TreeModel

variable (model : TreeModel)

/-- The Jobs that a selector names. -/
def anchors (selector : JobSelector) : List DurableId :=
  (model.rows.filter fun row => match selector with
    | .all => model.roots.contains row.jobId
    | .jobs jobIds => jobIds.contains row.jobId
    | .batch batchId => row.batchId = some batchId
    | .labels labels => labels.all row.labels.contains).map TreeRow.jobId

/-- The queue of `select_nodes`, of Jobs with their distance from an anchor. -/
def selectLoop (depth : Nat) : (fuel : Nat) → (queue : List (DurableId × Nat)) →
    (visible selected : List DurableId) → Except Stop (List DurableId × List DurableId)
  | _, [], visible, selected => return (visible, selected)
  | 0, _ :: _, _, _ => .error .unfinished
  | fuel + 1, (job, relative) :: queue, visible, selected => do
      let visible := if relative ≤ depth then job :: visible else visible
      if selected.contains job then selectLoop depth fuel queue visible selected
      else
        let next := model.children job
        require (next.isEmpty || relative + 1 < u32Bound) .panics
        selectLoop depth fuel (queue ++ next.map fun child => (child, relative + 1)) visible
          (job :: selected)

/-- An anchor and the Jobs above it, with room for as many more. -/
def ancestry : (room : Nat) → (seen : List DurableId) → DurableId →
    Except Stop (List DurableId)
  | 0, _, _ =>
      .error (.invalidState "tree selector ancestry contains a cycle or exceeds 64 jobs")
  | room + 1, seen, job => do
      require (!seen.contains job)
        (.invalidState "tree selector ancestry contains a cycle or exceeds 64 jobs")
      match model.parent job with
      | none => return [job]
      | some parent => return job :: (← ancestry room (job :: seen) parent)

/-- Are the explicit Jobs of a selector retained? -/
def knows : JobSelector → Bool
  | .jobs jobIds => jobIds.all model.contains
  | _ => true

def selectNodes (selector : JobSelector) (depth : Nat) : Except Stop Selection := do
  let anchors := model.anchors selector
  require (model.knows selector) (.notFound "tree selector contains an unknown Job")
  let (visible, selected) ← model.selectLoop depth (anchors.length + model.rows.length)
    (anchors.map fun anchor => (anchor, 0)) [] []
  let above ← anchors.mapM (model.ancestry 64 [])
  return ⟨selected ++ above.flatten, visible ++ above.flatten, selected⟩

/-! ## Emission -/

end TreeModel

inductive TreeAttentionBucket where
  | running
  | queued
  | finished
  deriving DecidableEq, Repr

/-- The stack of `family_bucket`, with room for as many more Jobs. -/
def TreeModel.familyLoop (model : TreeModel) : (room : Nat) → (pending seen : List DurableId) →
    (queued : Bool) → Except Stop TreeAttentionBucket
  | _, [], _, queued => return if queued then .queued else .finished
  | 0, _ :: _, _, _ => .error (.viewUnavailable "tree_scan_limit while classifying a family")
  | room + 1, job :: pending, seen, queued => do
      require (!seen.contains job) (.viewUnavailable "tree_scan_limit while classifying a family")
      let row ← model.row job
      match row.state with
      | .active => return .running
      | .pending =>
        model.familyLoop room ((model.children job).reverse ++ pending) (job :: seen) true
      | .final =>
        model.familyLoop room ((model.children job).reverse ++ pending) (job :: seen) queued

def TreeModel.familyBucket (model : TreeModel) (root : DurableId) :
    Except Stop TreeAttentionBucket :=
  model.familyLoop treeScanBudget [root] [] false

/-- `JobTreeNode`, over what a summary of a Job is. -/
structure JobTreeNode (σ : Type) where
  summary : σ
  depth : Nat
  familyAttention : Option TreeAttentionBucket
  contextOnly : Bool
  parentRetained : Option Bool
  hasChildren : Bool
  descendantsTruncated : Bool
  nextChildrenCursor : Option JobChildrenCursor

structure JobChildrenPage (σ : Type) where
  parentJobId : DurableId
  nodes : List (JobTreeNode σ)
  nextChildrenCursor : Option JobChildrenCursor
  eventSequence : Nat

/-- What a request reads beside the Jobs: the transaction around it, the summaries of
Jobs, the newest event, and the bytes that `serde_json` writes. -/
structure TreeReads (σ : Type) where
  begins : Except String Unit
  commits : Except String Unit
  jobSummary : DurableId → Except String σ
  eventHead : Except String Nat
  nodeBytes : JobTreeNode σ → Nat
  pageBytes : JobChildrenPage σ → Nat

def treeResponseBudgetBytes : Nat := 8 * 1024 * 1024

def treeResponseMetadataReserveBytes : Nat := 256 * 1024

/-- `usize::saturating_add`. -/
def saturatingAdd (left right : Nat) : Nat := min (left + right) (2 ^ 64 - 1)

structure EmitOutcome where
  emitted : Bool
  pageFull : Bool

/-- The nodes of a page and the bytes that they take. -/
structure EmitState (σ : Type) where
  nodes : List (JobTreeNode σ)
  encodedBudget : Nat

/-- What `emit_node` is called with for one page. -/
structure Emission (σ : Type) where
  storeUuid : Uuid
  reads : TreeReads σ
  model : TreeModel
  selection : Selection
  emissionDepthLimit : Option Nat
  nodeLimit : Nat
  selectorToken : List Char

namespace Emission

variable {σ : Type} (page : Emission σ)

def childCursor (parent : DurableId) (child : TreeRow) : JobChildrenCursor :=
  ⟨page.storeUuid, page.selectorToken, parent, child.acceptedMs, child.jobId⟩

/-- Mark the node at a position as cut before a child. -/
def truncate (index : Nat) (job child : DurableId) (state : EmitState σ) :
    Except Stop (EmitState σ) := do
  require (index < state.nodes.length) .panics
  let row ← page.model.row child
  return { state with nodes := state.nodes.modify index fun node =>
    { node with
      descendantsTruncated := true
      nextChildrenCursor := some (page.childCursor job row) } }

/-- The loop of `emit_node` over the eligible children of the node at a position. -/
def emitChildren (emit : DurableId → EmitState σ → Except Stop (EmitState σ × EmitOutcome))
    (depth : Nat) (index : Nat) (job : DurableId) :
    List DurableId → EmitState σ → Except Stop (EmitState σ × EmitOutcome)
  | [], state => return (state, ⟨true, false⟩)
  | child :: rest, state =>
    if !page.selection.visible.contains child || page.emissionDepthLimit.any (· ≤ depth) then do
      return (← page.truncate index job child state, ⟨true, false⟩)
    else if page.nodeLimit ≤ state.nodes.length then do
      return (← page.truncate index job child state, ⟨true, true⟩)
    else do
      require (depth + 1 < u32Bound) .panics
      let (state, outcome) ← emit child state
      if outcome.pageFull then
        match if outcome.emitted then rest.head? else some child with
        | some next => return (← page.truncate index job next state, ⟨true, true⟩)
        | none => return (state, ⟨true, true⟩)
      else emitChildren emit depth index job rest state

/-- The children of a Job that a page may show. -/
def eligibleChildren (job : DurableId) : List DurableId :=
  (page.model.children job).filter page.selection.eligible.contains

/-- The bucket of a family, on its root only. -/
def familyAttention (depth : Nat) (job : DurableId) :
    Except Stop (Option TreeAttentionBucket) :=
  if depth = 0 then (page.model.familyBucket job).map some else .ok none

/-- The node of a Job before its descendants are emitted. -/
def baseNode (depth : Nat) (job : DurableId) : Except Stop (JobTreeNode σ) := do
  let row ← page.model.row job
  let summary ← (page.reads.jobSummary job).mapError .sqlite
  let familyAttention ← page.familyAttention depth job
  return {
    summary
    depth
    familyAttention
    contextOnly := !page.selection.selectedContent.contains job
    parentRetained := row.parentId.map page.model.contains
    hasChildren := !(page.eligibleChildren job).isEmpty
    descendantsTruncated := false
    nextChildrenCursor := none }

/-- The bytes that a node is counted with: its own, and those of a cursor. -/
def nodeCost (node : JobTreeNode σ) : Nat :=
  saturatingAdd (saturatingAdd (page.reads.nodeBytes node) (byteLength page.selectorToken)) 512

/-- `emit_node`.  Every call but the last on a way down adds a node, so the node
limit bounds the recursion. -/
def emitNode : (fuel depth : Nat) → DurableId → EmitState σ →
    Except Stop (EmitState σ × EmitOutcome)
  | 0, _, _, _ => .error .unfinished
  | fuel + 1, depth, job, state =>
    if page.nodeLimit ≤ state.nodes.length then return (state, ⟨false, true⟩)
    else do
      let node ← page.baseNode depth job
      let encodedBudget := saturatingAdd state.encodedBudget (page.nodeCost node)
      if treeResponseBudgetBytes - treeResponseMetadataReserveBytes < encodedBudget then
        if state.nodes.isEmpty then
          .error (.viewUnavailable
            "tree_response_limit: one bounded tree node exceeds the encoded response budget")
        else return (state, ⟨false, true⟩)
      else
        page.emitChildren (emitNode fuel (depth + 1)) depth state.nodes.length job
          (page.eligibleChildren job) ⟨state.nodes ++ [node], encodedBudget⟩

/-- The loop of `tree_children_in_snapshot` over the children from the cursor on;
it returns those that are left. -/
def emitSiblings : List DurableId → EmitState σ → Except Stop (EmitState σ × List DurableId)
  | [], state => return (state, [])
  | child :: rest, state =>
    if page.nodeLimit ≤ state.nodes.length then return (state, child :: rest)
    else do
      let (state, outcome) ← page.emitNode (page.nodeLimit + 1) 1 child state
      if !outcome.emitted then return (state, child :: rest)
      else if outcome.pageFull then return (state, rest)
      else emitSiblings rest state

end Emission

/-! ## Requests -/

/-- Is this the child that a cursor names? -/
def JobChildrenCursor.names (cursor : JobChildrenCursor) (model : TreeModel) (job : DurableId) :
    Except Stop Bool :=
  if job = cursor.childJobId then
    (model.row job).map fun row => row.acceptedMs = cursor.acceptedUnixMillis
  else .ok false

section Requests

variable {σ : Type} (codec : SelectorCodec) (reads : TreeReads σ) (store : SubmissionStore)

/-- The part of `tree_children_in_snapshot` after the token was read. -/
def childrenPage (cursor : JobChildrenCursor) (nodeLimit additionalDepth : Nat)
    (selector : JobSelector) : Except Stop (JobChildrenPage σ) := do
  validateTreeSelector store selector
  let model ← loadTreeModel store
  let selection ← model.selectNodes selector 64
  let children := (model.children cursor.parentJobId).filter selection.eligible.contains
  let named ← children.mapM (cursor.names model)
  let start ← orError (named.findIdx? id) (.viewStale "tree child cursor row is gone")
  let page : Emission σ :=
    { storeUuid := store.storeUuid
      reads
      model
      selection
      emissionDepthLimit := some (additionalDepth + 1)
      nodeLimit
      selectorToken := cursor.selectorHash }
  let (state, remaining) ← page.emitSiblings (children.drop start) ⟨[], 0⟩
  let nextChildrenCursor ← remaining.head?.mapM fun child =>
    (model.row child).map (page.childCursor cursor.parentJobId)
  let eventSequence ← reads.eventHead.mapError .sqlite
  let result : JobChildrenPage σ :=
    ⟨cursor.parentJobId, state.nodes, nextChildrenCursor, eventSequence⟩
  require (reads.pageBytes result ≤ treeResponseBudgetBytes)
    (.viewUnavailable (s!"tree_response_limit: encoded response is {reads.pageBytes result} " ++
      s!"bytes, maximum is {treeResponseBudgetBytes}"))
  return result

def treeChildrenInSnapshot (cursor : JobChildrenCursor) (nodeLimit : Nat)
    (additionalDepth : Option Nat) : Except Stop (JobChildrenPage σ) := do
  checkChildren store.storeUuid cursor nodeLimit additionalDepth
  let selector ← selectorFromToken codec cursor.selectorHash
  childrenPage reads store cursor nodeLimit (additionalDepth.getD 0) selector

/-- `tree_children`, in a transaction of its own. -/
def treeChildren (cursor : JobChildrenCursor) (nodeLimit : Nat) (additionalDepth : Option Nat) :
    Except Stop (JobChildrenPage σ) := do
  reads.begins.mapError .sqlite
  let page ← treeChildrenInSnapshot codec reads store cursor nodeLimit additionalDepth
  reads.commits.mapError .sqlite
  return page

end Requests

end Stillyard.Tree
