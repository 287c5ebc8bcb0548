import Mathlib.Data.Int.Order.Basic
import Mathlib.Data.List.Lex
import PgDurable.Library.Json.RoundTrip
import PgDurable.NodeStatus.Lineage

/-!
# The update-node-status activity

The activity that writes `status`, `result` and `status_details` of one `df.nodes` row. On a
schema with `status_details` it locks the row, rejects a write whose stamp belongs to a superseded
generation of the stamp already stored (`incomingStampIsSuperseded`) and otherwise runs the
update. `updateNodeStatus` is one such transaction on the addressed row, and a failed transaction
leaves the row as it was.

On stamps of one lineage of branch nodes the fence is the strict lexicographic order of the
generation vectors: `superseded_iff_lt`.
-/

namespace PgDurable.NodeStatus

open Json

/-! ## Rows and inputs -/

/-- The columns of a `df.nodes` row that status writes touch. -/
structure NodeRow where
  status : String
  result : Option Value
  statusDetails : Option Value
  deriving DecidableEq

/-- The input of the activity. -/
structure NodeStatusInput where
  nodeId : String
  instanceId : String
  status : String
  result : Option String
  executionId : Option String
  deriving DecidableEq

/-- `completed` and `failed` are terminal. -/
def isTerminalStatus (status : String) : Bool := status == "completed" || status == "failed"

/-- Read the input object: the three required names are strings, a result or stamp that is not a
string counts as absent. -/
def NodeStatusInput.ofJson (inputJson : String) : Except String NodeStatusInput := do
  let input ← (fromStr inputJson).mapError ("Failed to parse node status input: " ++ ·)
  let some nodeId := (input.index "node_id").asStr | throw "Missing node_id"
  let some status := (input.index "status").asStr | throw "Missing status"
  let some instanceId := (input.index "instance_id").asStr | throw "Missing instance_id"
  pure ⟨nodeId, instanceId, status, (input.get? "result").bind Value.asStr,
    (input.get? "execution_id").bind Value.asStr⟩

/-! ## The fence -/

/-- The stamp stored in `status_details`. -/
def executionIdFromDetails (statusDetails : Option Value) : Option String := do
  let details ← statusDetails
  let stamp ← details.get? "execution_id"
  stamp.asStr

/-- The generations of a stamp, root first, and the branch nodes between them. -/
def stampLineage (executionId : String) : Option (List Int × List String) := do
  let (lineage, currentGeneration) ← parseExecutionStamp executionId
  pure (lineage.generations ++ [currentGeneration], lineage.nodeIds)

/-- Walk two lineages level by level: an older incoming generation is superseded, a newer one is
not, and at a tie different branch nodes are unrelated while equal ones descend. -/
def olderAtFirstDifference : List Int → List String → List Int → List String → Bool
  | incoming :: incGens, incNodes, existing :: exGens, exNodes =>
      if incoming < existing then true
      else if existing < incoming then false
      else
        match incNodes, exNodes with
        | a :: incNodes, b :: exNodes =>
            if a ≠ b then false else olderAtFirstDifference incGens incNodes exGens exNodes
        | incNodes, exNodes =>
            olderAtFirstDifference incGens incNodes.tail exGens exNodes.tail
  | _, _, _, _ => false

/-- Whether the incoming write belongs to a superseded generation. Without a stored stamp, or
when either stamp does not parse, the write is not fenced. -/
def incomingStampIsSuperseded (incoming : String) (existing : Option String) : Bool :=
  match existing with
  | none => false
  | some existing =>
      match stampLineage incoming, stampLineage existing with
      | some (incGens, incNodes), some (exGens, exNodes) =>
          olderAtFirstDifference incGens incNodes exGens exNodes
      | _, _ => false

/-! ## The update -/

/-- The value stored for a result text: its JSON, or the text itself as a JSON string. -/
def storedResult (result : String) : Value := (parse result).getD (.string result)

/-- The `status_details` value of a stamp. -/
def stampDetails (executionId : Option String) : Value :=
  .object [("execution_id", (executionId.map Value.string).getD .null)]

/-- The row an update leaves. A non-terminal status without a result clears the result; a
terminal status without one keeps what is stored. -/
def pushStatusUpdate (input : NodeStatusInput) (writeDetails : Bool) (row : NodeRow) : NodeRow where
  status := input.status
  result :=
    match input.result with
    | some result => some (storedResult result)
    | none => if isTerminalStatus input.status then row.result else none
  statusDetails := if writeDetails then some (stampDetails input.executionId) else row.statusDetails

mutual
/-- No string of the value contains U+0000, which `jsonb` cannot hold. -/
def nulFree : Value → Bool
  | .string s => !s.toList.contains '\x00'
  | .array items => nulFreeItems items
  | .object members => nulFreeMembers members
  | _ => true

/-- `nulFree` for every item. -/
def nulFreeItems : List Value → Bool
  | [] => true
  | item :: rest => nulFree item && nulFreeItems rest

/-- `nulFree` for every member, names included. -/
def nulFreeMembers : List (String × Value) → Bool
  | [] => true
  | (key, value) :: rest =>
      !key.toList.contains '\x00' && nulFree value && nulFreeMembers rest
end

/-- The check constraints of an updated row: `nodes_status_chk` and `nodes_result_status_chk`. -/
def NodeRow.satisfiesChecks (row : NodeRow) : Bool :=
  ["pending", "running", "completed", "failed"].contains row.status &&
    (row.result.isNone || isTerminalStatus row.status)

/-- The values a write binds as `jsonb` are storable. -/
def NodeStatusInput.bindable (input : NodeStatusInput) (writeDetails : Bool) : Bool :=
  (input.result.all fun result => nulFree (storedResult result)) &&
    (!writeDetails || nulFree (stampDetails input.executionId))

/-- One run of the activity on the row it addresses, with the message it returns. -/
def updateNodeStatus (statusDetailsPresent : Bool) (input : NodeStatusInput)
    (row : Option NodeRow) : Except String (NodeRow × String) :=
  let writeDetails := input.executionId.isSome && statusDetailsPresent
  match row with
  | none =>
      if writeDetails then
        .error ("update_node_status affected 0 rows: node " ++ input.nodeId ++
          " not found in instance " ++ input.instanceId)
      else
        .error ("update_node_status affected 0 row(s) for node " ++ input.nodeId ++
          " in instance " ++ input.instanceId ++ " (expected exactly 1)")
  | some row =>
      if writeDetails && incomingStampIsSuperseded (input.executionId.getD "")
          (executionIdFromDetails row.statusDetails) then
        .ok (row, "Node status write fenced (superseded by newer generation)")
      else if input.bindable writeDetails &&
          (pushStatusUpdate input writeDetails row).satisfiesChecks then
        .ok (pushStatusUpdate input writeDetails row, "Node status updated")
      else .error "Failed to update node status: constraint or jsonb violation"

/-- The row after one run of the activity; a failed run is rolled back. -/
def applyStatusWrite (row : NodeRow) (input : NodeStatusInput) : NodeRow :=
  match updateNodeStatus true input (some row) with
  | .ok (updated, _) => updated
  | .error _ => row

/-- PostgreSQL accepts the columns of a write: a known status, a result only with a terminal one,
and JSON without U+0000. -/
def NodeStatusInput.accepted (input : NodeStatusInput) : Bool :=
  ["pending", "running", "completed", "failed"].contains input.status &&
    (input.result.isNone || isTerminalStatus input.status) && input.bindable true

/-! ## What one write does -/

/-- A write the fence rejects leaves the row. -/
theorem apply_status_write_fenced {row : NodeRow} {input : NodeStatusInput} {stamp : String}
    (hstamp : input.executionId = some stamp)
    (hfence : incomingStampIsSuperseded stamp (executionIdFromDetails row.statusDetails)) :
    applyStatusWrite row input = row := by
  simp [applyStatusWrite, updateNodeStatus, hstamp, hfence]

/-- Whether the updated row satisfies the check constraints depends on the write alone. -/
theorem push_status_update_checks (input : NodeStatusInput) (row : NodeRow) :
    (input.bindable true && (pushStatusUpdate input true row).satisfiesChecks) =
      input.accepted := by
  simp only [NodeRow.satisfiesChecks, pushStatusUpdate, NodeStatusInput.accepted]
  cases isTerminalStatus input.status <;> cases input.result <;> simp [Bool.and_comm]

/-- An accepted stamped write that the fence admits is stored. -/
theorem apply_status_write_admitted {row : NodeRow} {input : NodeStatusInput} {stamp : String}
    (hinput : input.accepted) (hstamp : input.executionId = some stamp)
    (hfence : incomingStampIsSuperseded stamp
      (executionIdFromDetails row.statusDetails) = false) :
    applyStatusWrite row input = pushStatusUpdate input true row := by
  have hchecks := push_status_update_checks input row
  rw [hinput, Bool.and_eq_true] at hchecks
  simp [applyStatusWrite, updateNodeStatus, hstamp, hfence, hchecks]

/-- A stamped write that PostgreSQL does not accept leaves the row. -/
theorem apply_status_write_rejected {row : NodeRow} {input : NodeStatusInput} {stamp : String}
    (hinput : input.accepted = false) (hstamp : input.executionId = some stamp) :
    applyStatusWrite row input = row := by
  have hchecks := push_status_update_checks input row
  rw [hinput] at hchecks
  cases hfence : incomingStampIsSuperseded stamp (executionIdFromDetails row.statusDetails) with
  | true => exact apply_status_write_fenced hstamp hfence
  | false =>
      simp only [applyStatusWrite, updateNodeStatus, hstamp, Option.isSome_some, Bool.and_true,
        Option.getD_some, hfence, Bool.true_and, Bool.false_eq_true, if_false, hchecks]

/-- The stored stamp of an updated row is the stamp of the write. -/
@[simp] theorem execution_id_push_status_update (input : NodeStatusInput) (row : NodeRow) :
    executionIdFromDetails (pushStatusUpdate input true row).statusDetails =
      input.executionId := by
  cases h : input.executionId <;>
    simp [pushStatusUpdate, stampDetails, executionIdFromDetails, Value.get?, Value.asStr, h]

/-! ## The fence on one lineage -/

/-- The stamp belongs to the lineage with this root and these branch nodes. -/
def SharesLineage (root : String) (nodes : List String) (stamp : String) : Prop :=
  ∃ lineage generation, parseExecutionStamp stamp = some (lineage, generation) ∧
    (splitTokens lineage.instanceId).head? = some root ∧ lineage.nodeIds = nodes

/-- The generation vector of a stamp, root first. -/
def stampGenerations (stamp : String) : List Int :=
  ((stampLineage stamp).map (·.1)).getD []

/-- A stamp of a lineage has one generation more than the lineage has branch nodes. -/
theorem SharesLineage.lineage {root stamp : String} {nodes : List String}
    (h : SharesLineage root nodes stamp) :
    stampLineage stamp = some (stampGenerations stamp, nodes) ∧
      (stampGenerations stamp).length = nodes.length + 1 := by
  obtain ⟨lineage, generation, hparse, -, rfl⟩ := h
  have hstamp : stampLineage stamp =
      some (lineage.generations ++ [generation], lineage.nodeIds) := by
    simp [stampLineage, hparse]
  have hlineage : InstanceLineage.parse lineage.instanceId = some lineage := by
    simp only [parseExecutionStamp, Option.bind_eq_bind, Option.bind_eq_some_iff, pure,
      Option.some.injEq, Prod.mk.injEq] at hparse
    obtain ⟨⟨instanceId, text⟩, _, parsed, hparsed, _, _, rfl, rfl⟩ := hparse
    rw [parse_keeps_text hparsed]
    exact hparsed
  simp [stampGenerations, hstamp, parse_lengths hlineage]

/-- On equal branch nodes the walk compares the generation vectors lexicographically. -/
theorem older_at_first_difference_iff {incoming existing : List Int} {nodes : List String}
    (hinc : incoming.length = nodes.length + 1) (hex : existing.length = nodes.length + 1) :
    olderAtFirstDifference incoming nodes existing nodes = true ↔ incoming < existing := by
  induction nodes generalizing incoming existing with
  | nil =>
      obtain ⟨a, rfl⟩ := List.length_eq_one_iff.1 hinc
      obtain ⟨b, rfl⟩ := List.length_eq_one_iff.1 hex
      rcases lt_trichotomy a b with h | rfl | h
      · simp [olderAtFirstDifference, List.cons_lt_cons_iff, h]
      · simp [olderAtFirstDifference]
      · simp [olderAtFirstDifference, List.cons_lt_cons_iff, h, not_lt_of_gt h, ne_of_gt h]
  | cons node nodes ih =>
      obtain ⟨a, incoming, rfl⟩ := List.exists_cons_of_length_eq_add_one hinc
      obtain ⟨b, existing, rfl⟩ := List.exists_cons_of_length_eq_add_one hex
      have hrec := @ih incoming existing (by simpa using hinc) (by simpa using hex)
      rcases lt_trichotomy a b with h | rfl | h
      · simp [olderAtFirstDifference, List.cons_lt_cons_iff, h]
      · simp [olderAtFirstDifference, hrec]
      · simp [olderAtFirstDifference, List.cons_lt_cons_iff, h, not_lt_of_gt h, ne_of_gt h]

/-- On one lineage a write is superseded exactly by a greater generation vector. -/
theorem superseded_iff_lt {root incoming existing : String} {nodes : List String}
    (hinc : SharesLineage root nodes incoming) (hex : SharesLineage root nodes existing) :
    incomingStampIsSuperseded incoming (some existing) = true ↔
      stampGenerations incoming < stampGenerations existing := by
  obtain ⟨hincStamp, hincLength⟩ := hinc.lineage
  obtain ⟨hexStamp, hexLength⟩ := hex.lineage
  simp only [incomingStampIsSuperseded, hincStamp, hexStamp]
  exact older_at_first_difference_iff hincLength hexLength

end PgDurable.NodeStatus
