import PgDurable.Dsl.Rows
import PgDurable.Explain.Stored
import PgDurable.Orchestration.ChildIds

/-!
# Readers of the rows

The orchestrator, the inference of statuses and the drawing of a graph each follow the children of
a row in their own way. Each of them follows some of the `references` of the row, every one once
(`child_ids_subperm`, `children_of_subperm`, `drawn_references_subperm`), so that what holds for the
references of a flattened document holds for each reader.
-/

namespace PgDurable.Dsl

open Json InsertNodes NodeStatus Orchestration Unfolding

/-! ## Columns -/

/-- The columns of a row that its readers follow. -/
def columns (id nodeType : String) (query leftNode rightNode : Option String) :
    MaterializedNode where
  id := id
  nodeType := nodeType
  query := query
  resultName := none
  leftNode := leftNode
  rightNode := rightNode

theorem as_str_index (key : String) (query : Option String) :
    ((query.bind parse).bind fun config => (config.index key).asStr).toList =
      configNode query key := by
  rw [configNode]
  cases query.bind parse with
  | none => rfl
  | some config =>
      show ((config.index key).asStr).toList = ((config.get? key).bind Value.asStr).toList
      rw [Value.index]
      cases config.get? key <;> rfl

theorem join_branch_ids_eq (node : FunctionNode) (leftId rightId : String) :
    joinBranchIds node leftId rightId = [leftId, rightId] ++ extraNodes node.query := by
  rw [joinBranchIds, extraNodes]
  cases node.query.bind parse with
  | none => rfl
  | some config =>
      simp only [Option.bind_some, Value.index]
      cases config.get? "extra_nodes" <;> rfl

/-- The condition of a loop configuration is the one that its text names. -/
theorem loop_condition {text : String} {config : LoopConfig}
    (h : LoopConfig.ofJson text = .ok config) :
    config.conditionNode.toList = configNode (some text) "condition_node" := by
  obtain ⟨value, hread, h⟩ := bind_eq_ok h
  have hparse : parse text = some value := by
    unfold fromStr at hread
    split at hread
    · next parsed hparse =>
        cases hread
        exact hparse
    · cases hread
  have hconfig : configNode (some text) "condition_node" =
      ((value.get? "condition_node").bind Value.asStr).toList := by
    rw [configNode]
    show (((parse text).bind fun config =>
      (config.get? "condition_node").bind Value.asStr).toList) = _
    rw [hparse]
    rfl
  rw [hconfig]
  cases value with
  | object members =>
      obtain ⟨flag, -, h⟩ := bind_eq_ok h
      obtain ⟨condition, hcondition, h⟩ := bind_eq_ok h
      cases h
      show condition.toList = _
      -- An absent member and `null` are no condition; everything but a string is refused.
      unfold readOptional at hcondition
      split at hcondition
      · next hnone =>
          cases hcondition
          rw [hnone]
          rfl
      · next hnull =>
          cases hcondition
          rw [hnull]
          rfl
      · next member _ hsome =>
          rw [hsome]
          cases member with
          | string id =>
              cases hcondition
              rfl
          | null | bool | number | array | object => cases hcondition
  | null | bool | number | string | array => cases h

theorem loop_condition_sublist (query : Option String) :
    List.Sublist ((query.bind fun query => (LoopConfig.ofJson query).toOption).bind
      LoopConfig.conditionNode).toList (configNode query "condition_node") := by
  cases query with
  | none => exact List.nil_sublist _
  | some text =>
      show List.Sublist ((LoopConfig.ofJson text).toOption.bind LoopConfig.conditionNode).toList _
      cases hconfig : LoopConfig.ofJson text with
      | error message => exact List.nil_sublist _
      | ok config =>
          rw [← loop_condition hconfig]
          exact List.Sublist.refl _

/-! ## The orchestrator -/

theorem type_of_kind {nodeType : String} (h : nodeType ∈ validNodeTypes) :
    (nodeKind nodeType = some .loop → nodeType = "LOOP") ∧
      (nodeKind nodeType = some .ifNode → nodeType = "IF") ∧
      (nodeKind nodeType = some .join → nodeType = "JOIN") := by
  simp only [validNodeTypes, List.mem_cons, List.not_mem_nil, or_false] at h
  rcases h with rfl | rfl | rfl | rfl | rfl | rfl | rfl | rfl | rfl | rfl | rfl | rfl
  all_goals exact ⟨by decide, by decide, by decide⟩

variable (id : String) (query leftNode rightNode : Option String)

theorem columns_sublist (nodeType : String) :
    (leftNode.toList ++ rightNode.toList).Sublist
      (references (columns id nodeType query leftNode rightNode)) := by
  rw [references, List.append_assoc]
  exact List.sublist_append_left _ _

theorem references_if : references (columns id "IF" query leftNode rightNode) =
    leftNode.toList ++ rightNode.toList ++ configNode query "condition_node" := by
  show _ ++ [] = _
  rw [List.append_nil]
  rfl

theorem references_loop : references (columns id "LOOP" query leftNode rightNode) =
    leftNode.toList ++ rightNode.toList ++ configNode query "condition_node" := by
  show _ ++ [] = _
  rw [List.append_nil]
  rfl

theorem references_join : references (columns id "JOIN" query leftNode rightNode) =
    leftNode.toList ++ rightNode.toList ++ extraNodes query := by
  show leftNode.toList ++ rightNode.toList ++ [] ++ extraNodes query = _
  rw [List.append_nil]

/-- The orchestrator executes references of the row. -/
theorem child_ids_sublist {node : FunctionNode} (h : node.nodeType ∈ validNodeTypes) :
    (childIds node).Sublist
      (references (columns node.id node.nodeType node.query node.leftNode node.rightNode)) := by
  obtain ⟨hloop, hif, hjoin⟩ := type_of_kind h
  unfold childIds
  split
  · exact columns_sublist _ _ _ _ _
  · exact columns_sublist _ _ _ _ _
  · next hkind =>
      rw [hif hkind, references_if, as_str_index]
  · next hkind =>
      split
      · next leftId rightId hleft hright =>
          rw [hjoin hkind, references_join, hleft, hright, join_branch_ids_eq]
          exact List.Sublist.refl _
      · exact List.nil_sublist _
  · next hkind =>
      rw [hloop hkind, references_loop]
      exact (List.sublist_append_left _ _).append (loop_condition_sublist node.query)
  · exact List.nil_sublist _

/-! ## The inference of statuses -/

theorem uppercase_valid {nodeType : String} (h : nodeType ∈ validNodeTypes) :
    String.ofList (nodeType.toList.map toUppercase) = nodeType := by
  simp only [validNodeTypes, List.mem_cons, List.not_mem_nil, or_false] at h
  rcases h with rfl | rfl | rfl | rfl | rfl | rfl | rfl | rfl | rfl | rfl | rfl | rfl
  all_goals decide

/-- The inference follows references of the row. -/
theorem children_of_subperm {node : NodeFacts} (h : node.nodeType ∈ validNodeTypes) :
    (childrenOf node).Subperm
      (references (columns id node.nodeType node.query node.leftNode node.rightNode)) := by
  obtain ⟨nodeType, query, leftNode, rightNode, status, statusDetails⟩ := node
  dsimp only at h ⊢
  rw [childrenOf, uppercase_valid h]
  dsimp only
  split
  · exact (columns_sublist _ _ _ _ _).subperm
  · exact (columns_sublist _ _ _ _ _).subperm
  · rw [references_join]
  · rw [references_if, List.append_assoc]
    exact List.perm_append_comm.subperm
  · rw [references_loop]
    exact ((List.sublist_append_left _ _).append (List.Sublist.refl _)).subperm
  · exact List.nil_subperm

/-! ## The drawing -/

theorem branch_ids (ids : List String) :
    (Explain.children.branches ids).map (·.id) = ids := by
  rw [Explain.children.branches, List.map_map]
  exact List.zipIdx_map_fst _ _

theorem drawn_condition_sublist (node : Explain.ExplainNode) :
    List.Sublist (Explain.loopConfigOf node).conditionNode.toList
      (configNode node.query "condition_node") := by
  have hsublist := loop_condition_sublist node.query
  rw [Explain.loopConfigOf]
  cases hconfig : node.query.bind fun query => (LoopConfig.ofJson query).toOption with
  | none => exact List.nil_sublist _
  | some config =>
      rw [hconfig] at hsublist
      exact hsublist

theorem map_child_ids (label : String) (ids : List String) :
    (ids.map fun id => Explain.Child.mk label id true).map (·.id) = ids := by
  rw [List.map_map]
  exact List.map_id' ids

/-- Drawing follows references of the row. -/
theorem drawn_references_subperm {node : Explain.ExplainNode} :
    (Explain.references node).Subperm
      (references (columns id node.nodeType node.query node.leftNode node.rightNode)) := by
  unfold Explain.references
  split_ifs with hthen
  · exact (columns_sublist _ _ _ _ _).subperm
  unfold Explain.children
  split
  · next hloop =>
      rw [hloop, references_loop, List.map_append, map_child_ids, map_child_ids]
      exact ((List.sublist_append_left _ _).append (drawn_condition_sublist node)).subperm
  · next hif =>
      rw [hif, references_if, List.map_append, List.map_append, map_child_ids, map_child_ids,
        map_child_ids, List.append_assoc, Explain.configOf, as_str_index]
      exact List.perm_append_comm.subperm
  · next hjoin =>
      have hextra : Explain.children.extras node = extraNodes node.query := by
        rw [Explain.children.extras, Explain.configOf, extraNodes]
        cases node.query.bind parse with
        | none => rfl
        | some config =>
            simp only [Option.bind_some, Value.index]
            cases config.get? "extra_nodes" with
            | none => rfl
            | some value => cases value <;> rfl
      rw [hjoin, references_join, branch_ids, hextra]
  · rw [branch_ids]
    exact (columns_sublist _ _ _ _ _).subperm
  · exact List.nil_subperm

end PgDurable.Dsl
