import PgDurable.Dsl.Flatten
import PgDurable.Library.Json.Reading
import PgDurable.NodeStatus.Inference

/-!
# Rows of a flattened document

`references` are the rows that a row names: in its columns, and in the configuration of an `IF`,
`LOOP` or `JOIN`. A flattened row names its children there and nothing else
(`references_eq_children`), since a configuration with children of its own is rejected. So with
distinct ids the rows are a tree below the root, in preorder (`document_row_tree`).
-/

namespace PgDurable.Dsl

open Json InsertNodes NodeStatus Unfolding

/-- The rows that a row names. -/
def references (row : MaterializedNode) : List String :=
  row.leftNode.toList ++ row.rightNode.toList ++
    (if supportsCondition row.nodeType then configNode row.query "condition_node" else []) ++
    (if row.nodeType = "JOIN" then extraNodes row.query else [])

/-! ## Configurations -/

theorem parse_object_fit {text : String} {members : List (String × Value)}
    (h : parse text = some (.object members)) :
    (Value.object members).WellFormed ∧ Value.depthMembers members < 127 := by
  obtain ⟨hwf, hdepth⟩ := parse_well_formed h
  have hlimit : recursionLimit = 128 := rfl
  rw [Value.depth] at hdepth
  exact ⟨hwf, by omega⟩

theorem config_members_fit {node : Durofut} {members : List (String × Value)}
    (h : configMembers node = .ok members) :
    (Value.object members).WellFormed ∧ Value.depthMembers members < 127 := by
  obtain ⟨config, hconfig, h⟩ := except_bind_ok h
  cases config with
  | object others =>
      cases h
      unfold queryConfig at hconfig
      split at hconfig
      · cases hconfig
        exact ⟨⟨List.nodup_nil, trivial⟩, by decide⟩
      · next query hquery =>
          split at hconfig
          · next config hread =>
              cases hconfig
              unfold fromStr at hread
              split at hread
              · next value hparse =>
                  cases hread
                  exact parse_object_fit hparse
              · cases hread
          · cases hconfig
  | null | bool | number | string | array => cases h

theorem with_children_fit (condition : Option String) (extra : List String)
    {members : List (String × Value)} (hwf : (Value.object members).WellFormed)
    (hdepth : Value.depthMembers members < 127) :
    (Value.object (withChildren condition extra members)).WellFormed ∧
      Value.depthMembers (withChildren condition extra members) < 127 := by
  have hcondition : (Value.object (condition.elim members fun id =>
      insertMember "condition_node" (.string id) members)).WellFormed ∧
      Value.depthMembers (condition.elim members fun id =>
        insertMember "condition_node" (.string id) members) < 127 := by
    cases condition with
    | none => exact ⟨hwf, hdepth⟩
    | some id =>
        exact ⟨⟨insert_member_nodup hwf.1, insert_member_well_formed trivial hwf.2⟩,
          insert_member_depth (show (0 : Nat) < 127 by decide) hdepth⟩
  unfold withChildren
  cases extra with
  | nil => exact hcondition
  | cons first extra =>
      have hstrings : ∀ value ∈ (first :: extra).map Value.string, ∃ text, value = .string text := by
        intro value hvalue
        obtain ⟨text, -, rfl⟩ := List.mem_map.1 hvalue
        exact ⟨text, rfl⟩
      have harray : (Value.array ((first :: extra).map Value.string)).WellFormed := by
        refine array_well_formed fun value hvalue => ?_
        obtain ⟨text, rfl⟩ := hstrings value hvalue
        trivial
      have hflat : (Value.array ((first :: extra).map Value.string)).depth < 127 := by
        have hitems : Value.depthItems ((first :: extra).map Value.string) < 1 := by
          refine (depth_items_lt_iff Nat.zero_lt_one).2 fun value hvalue => ?_
          obtain ⟨text, rfl⟩ := hstrings value hvalue
          exact Nat.zero_lt_one
        rw [Value.depth]
        omega
      exact ⟨⟨insert_member_nodup hcondition.1.1,
        insert_member_well_formed harray hcondition.1.2⟩, insert_member_depth hflat hcondition.2⟩

/-- A configuration with children is read back from the row. -/
theorem materialized_query_parse {node : Durofut} {condition : Option String}
    {extra : List String} {query : Option String}
    (hsome : (condition.isNone && extra.isEmpty) = false)
    (h : materializedQuery node condition extra = .ok query) :
    ∃ members, query.bind parse = some (.object (withChildren condition extra members)) := by
  rw [materializedQuery, if_neg (by rw [hsome]; exact Bool.false_ne_true)] at h
  obtain ⟨members, hmembers, h⟩ := except_bind_ok h
  cases h
  obtain ⟨hwf, hdepth⟩ := config_members_fit hmembers
  obtain ⟨hwf, hdepth⟩ := with_children_fit condition extra hwf hdepth
  refine ⟨members, parse_print hwf ?_⟩
  have hlimit : recursionLimit = 128 := rfl
  rw [Value.depth]
  omega

/-- Without such children it is the query of the node. -/
theorem materialized_query_plain {node : Durofut} {query : Option String}
    (h : materializedQuery node none [] = .ok query) : query = node.query := by
  cases h
  rfl

theorem config_node_children (id : String) {query : Option String}
    {members : List (String × Value)}
    (h : query.bind parse = some (.object (withChildren (some id) [] members))) :
    configNode query "condition_node" = [id] := by
  have hlookup : (Value.object (withChildren (some id) [] members)).get? "condition_node" =
      some (.string id) := by
    show (insertMember "condition_node" (.string id) members).lookup "condition_node" = _
    rw [lookup_insert_member, if_pos rfl]
  rw [configNode, h]
  show (((Value.object _).get? "condition_node").bind Value.asStr).toList = _
  rw [hlookup]
  rfl

theorem filter_map_as_str (ids : List String) :
    (ids.map Value.string).filterMap Value.asStr = ids := by
  rw [List.filterMap_map]
  exact List.filterMap_some

theorem extra_nodes_children {ids : List String} (hids : ids ≠ []) {query : Option String}
    {members : List (String × Value)}
    (h : query.bind parse = some (.object (withChildren none ids members))) :
    extraNodes query = ids := by
  have hlookup : (Value.object (withChildren none ids members)).get? "extra_nodes" =
      some (.array (ids.map .string)) := by
    unfold withChildren
    rw [if_neg (by rw [List.isEmpty_iff]; exact hids)]
    show (insertMember "extra_nodes" (.array (ids.map .string)) members).lookup "extra_nodes" = _
    rw [lookup_insert_member, if_pos rfl]
  have hextra : (query.bind parse).bind (fun config =>
      (config.get? "extra_nodes").bind Value.asArray) = some (ids.map .string) := by
    rw [h, Option.bind_some, hlookup]
    rfl
  rw [extraNodes, hextra]
  exact filter_map_as_str ids

/-! ## Rejected configurations -/

theorem checked_config {entry : PendingGraphNode} (h : checkNode entry = .ok ()) :
    entry.depth ≤ maxGraphDepth ∧ entry.node.nodeType ∈ validNodeTypes ∧
      validateConfigChildren entry.node = .ok () := by
  unfold checkNode at h
  split_ifs at h with hdepth htype
  refine ⟨Nat.le_of_not_lt hdepth, ?_, located_ok_iff.1 h⟩
  rw [Bool.not_eq_true', Bool.not_eq_false] at htype
  exact List.contains_iff_mem.1 htype

theorem rejects_embedded {node : Durofut} (h : validateConfigChildren node = .ok ()) :
    (supportsCondition node.nodeType = true → configNode node.query "condition_node" = []) ∧
      (node.nodeType = "JOIN" → extraNodes node.query = []) := by
  have hreject : rejectEmbeddedConfigChildren node = .ok () := by
    unfold validateConfigChildren at h
    split_ifs at h
    exact h
  unfold rejectEmbeddedConfigChildren at hreject
  rw [configNode, extraNodes]
  cases hconfig : node.query.bind parse with
  | none => exact ⟨fun _ => rfl, fun _ => rfl⟩
  | some config =>
      rw [hconfig] at hreject
      dsimp only at hreject
      split_ifs at hreject with hcondition hextra
      constructor
      · intro hsupports
        rw [hsupports, Bool.true_and, Option.isSome_iff_ne_none, not_not] at hcondition
        show (((config.get? "condition_node").bind Value.asStr).toList) = []
        rw [hcondition]
        rfl
      · intro hjoin
        rw [hjoin, beq_self_eq_true, Bool.true_and, Option.isSome_iff_ne_none, not_not] at hextra
        rw [Option.bind_some, hextra]
        rfl

/-! ## The children of a row -/

theorem head_map_to_list {α β : Type} (f : α → β) {items : List α} (h : items.length ≤ 1) :
    (items.head?.map f).toList = items.map f := by
  cases items with
  | nil => rfl
  | cons item items =>
      cases items with
      | nil => rfl
      | cons => exact absurd h (by simp)

theorem slots_length {parent : PendingGraphNode} {slots : List (String × RawObject)}
    {children : List PendingGraphNode} (h : List.Forall₂ (ReadsChild parent) slots children)
    (hslots : slots.length ≤ 1) : children.length ≤ 1 := by
  rw [← h.length_eq]
  exact hslots

theorem option_slots_length (segment : String) (raw : Option RawObject) :
    (raw.toList.map fun raw => (segment, raw)).length ≤ 1 := by
  cases raw with
  | none => exact Nat.zero_le _
  | some raw => exact le_rfl

variable {entry : PendingGraphNode} {row : MaterializedNode}
variable {left right condition extra : List PendingGraphNode}

theorem supports_not_join {nodeType : String} (h : supportsCondition nodeType = true) :
    nodeType ≠ "JOIN" := by
  rintro rfl
  exact absurd h (by decide)

theorem condition_children (h : Level entry row left right condition extra) :
    (if supportsCondition row.nodeType then configNode row.query "condition_node" else []) =
      condition.map (·.id) := by
  obtain ⟨-, -, hvalid⟩ := checked_config h.check
  have hcondition := h.reads_condition
  have hextra := h.reads_extra
  have hquery := h.query
  unfold conditionSlots at hcondition
  unfold extraSlots at hextra
  rw [h.node_type]
  by_cases hsupports : supportsCondition entry.node.nodeType = true
  · rw [if_neg (supports_not_join hsupports)] at hextra
    cases hextra
    have hlength : condition.length ≤ 1 := by
      rw [if_pos hsupports] at hcondition
      exact slots_length hcondition (option_slots_length _ _)
    rw [if_pos hsupports]
    cases condition with
    | nil =>
        rw [materialized_query_plain hquery]
        exact (rejects_embedded hvalid).1 hsupports
    | cons child others =>
        cases others with
        | cons => exact absurd hlength (by simp)
        | nil =>
            obtain ⟨members, hparse⟩ := materialized_query_parse rfl hquery
            exact config_node_children child.id hparse
  · rw [if_neg hsupports] at hcondition ⊢
    cases hcondition
    rfl

theorem extra_children (h : Level entry row left right condition extra) :
    (if row.nodeType = "JOIN" then extraNodes row.query else []) = extra.map (·.id) := by
  obtain ⟨-, -, hvalid⟩ := checked_config h.check
  have hcondition := h.reads_condition
  have hextra := h.reads_extra
  have hquery := h.query
  unfold conditionSlots at hcondition
  unfold extraSlots at hextra
  rw [h.node_type]
  by_cases hjoin : entry.node.nodeType = "JOIN"
  · rw [if_neg fun hsupports => supports_not_join hsupports hjoin] at hcondition
    cases hcondition
    rw [if_pos hjoin]
    cases extra with
    | nil =>
        rw [materialized_query_plain hquery]
        exact (rejects_embedded hvalid).2 hjoin
    | cons child others =>
        obtain ⟨members, hparse⟩ := materialized_query_parse rfl hquery
        exact extra_nodes_children (List.cons_ne_nil _ _) hparse
  · rw [if_neg hjoin] at hextra ⊢
    cases hextra
    rfl

/-- A row names its children in the order of its fields, and nothing else. -/
theorem references_eq_children (h : Level entry row left right condition extra) :
    references row = (left ++ right ++ condition ++ extra).map (·.id) := by
  have hleft : row.leftNode.toList = left.map (·.id) := by
    rw [h.left_node]
    exact head_map_to_list _ (slots_length h.reads_left (option_slots_length _ _))
  have hright : row.rightNode.toList = right.map (·.id) := by
    rw [h.right_node]
    exact head_map_to_list _ (slots_length h.reads_right (option_slots_length _ _))
  rw [references, hleft, hright, condition_children h, extra_children h]
  simp only [List.map_append]

/-! ## The rows as a graph -/

/-- What the row of an id names. -/
def nextRow (rows : List MaterializedNode) (id : String) : List String :=
  (rows.find? fun row => row.id == id).elim [] references

variable {rows : List MaterializedNode}

theorem find_row (hnodup : (rows.map (·.id)).Nodup) (hrow : row ∈ rows) :
    rows.find? (fun other => other.id == row.id) = some row := by
  induction rows with
  | nil => cases hrow
  | cons first rows ih =>
      obtain ⟨hfirst, hrest⟩ := List.nodup_cons.1 hnodup
      rcases List.mem_cons.1 hrow with rfl | hrow
      · rw [List.find?_cons_of_pos (by rw [beq_self_eq_true])]
      · have hne : first.id ≠ row.id := by
          intro heq
          refine hfirst ?_
          show first.id ∈ rows.map (·.id)
          rw [heq]
          exact List.mem_map_of_mem hrow
        rw [List.find?_cons_of_neg (by rw [beq_iff_eq]; exact hne), ih hrest hrow]

theorem next_row_eq (hnodup : (rows.map (·.id)).Nodup) (hrow : row ∈ rows) :
    nextRow rows row.id = references row := by
  rw [nextRow, find_row hnodup hrow]
  rfl

theorem next_row_missing {id : String} (h : id ∉ rows.map (·.id)) : nextRow rows id = [] := by
  have hnone : rows.find? (fun row => row.id == id) = none := by
    refine List.find?_eq_none.2 fun row hrow hid => h ?_
    rw [← beq_iff_eq.1 hid]
    exact List.mem_map_of_mem hrow
  rw [nextRow, hnone]
  rfl

theorem placed_ids {forest : Forest Placed} (h : Document forest) :
    forest.preorder.map (·.row.id) = forest.preorder.map (·.entry.id) := by
  refine List.map_congr_left fun placed hplaced => ?_
  obtain ⟨below, left, right, condition, extra, hlevel, -⟩ := Forest.mem_preorder_cases h hplaced
  exact hlevel.id

/-- The rows of a document unfold to its preorder. -/
theorem document_unfolds {forest : Forest Placed} (h : Document forest)
    (hrows : rows = forest.preorder.map (·.row)) (hnodup : (rows.map (·.id)).Nodup) :
    Unfolds (nextRow rows) (forest.roots.map (·.entry.id)) (rows.map (·.id)) := by
  have hids : rows.map (·.id) = forest.preorder.map (·.entry.id) := by
    rw [hrows, List.map_map, ← placed_ids h]
    rfl
  rw [hids]
  refine Forest.unfolds (Forest.Grown.imp h fun placed hplaced below hgrows => ?_)
  obtain ⟨left, right, condition, extra, hlevel, hbelow⟩ := hgrows
  have hrow : placed.row ∈ rows := hrows ▸ List.mem_map_of_mem hplaced
  rw [← hlevel.id, next_row_eq hnodup hrow, references_eq_children hlevel, ← hbelow, List.map_map]
  rfl

/-- The rows are a tree below the root, in preorder. -/
structure RowTree (rootId : String) (rows : List MaterializedNode) : Prop where
  root : rows.head?.map (·.id) = some rootId
  nodup : (rows.map (·.id)).Nodup
  preorder : Unfolds (nextRow rows) [rootId] (rows.map (·.id))
  tree : IsTree (nextRow rows) rootId
  closed : ∀ row ∈ rows, ∀ id ∈ references row, id ∈ rows.map (·.id)
  forward : rows.Pairwise fun earlier later => earlier.id ∉ references later

theorem document_row_tree {placed : Placed} {below : Forest Placed}
    (h : Document (.cons placed below .nil))
    (hrows : rows = placed.row :: below.preorder.map (·.row))
    (hnodup : (rows.map (·.id)).Nodup) : RowTree placed.entry.id rows := by
  have hpreorder : Unfolds (nextRow rows) [placed.entry.id] (rows.map (·.id)) := by
    refine document_unfolds h (hrows.trans ?_) hnodup
    rw [Forest.preorder, Forest.preorder, List.append_nil, List.map_cons]
  have hroot : placed.row.id = placed.entry.id := by
    obtain ⟨⟨left, right, condition, extra, hlevel, -⟩, -⟩ := h
    exact hlevel.id
  refine ⟨?_, hnodup, hpreorder, hpreorder.is_tree hnodup fun id => next_row_missing, ?_, ?_⟩
  · rw [hrows, ← hroot]
    rfl
  · intro row hrow id hid
    rw [← next_row_eq hnodup hrow] at hid
    exact hpreorder.closed (List.mem_map_of_mem hrow) hid
  · have hforward := List.pairwise_map.1 (hpreorder.forward hnodup)
    refine hforward.imp_of_mem fun {earlier later} _ hlater hnot => ?_
    rw [← next_row_eq hnodup hlater]
    exact hnot

/-- The ids of the rows are those that the source was asked for. -/
theorem document_ids {placed : Placed} {below : Forest Placed} {root : Durofut} {rootId : String}
    (hplaced : placed.entry = ⟨root, rootId, 0, "root"⟩)
    (h : Document (.cons placed below .nil))
    (hrows : rows = placed.row :: below.preorder.map (·.row)) :
    (rows.map (·.id)).Perm (rootId :: (below.roots ++ below.children).map (·.entry.id)) := by
  have hids : rows.map (·.id) =
      (Forest.cons placed below .nil).preorder.map (·.entry.id) := by
    rw [← placed_ids h, hrows, Forest.preorder, Forest.preorder, List.append_nil, List.map_cons,
      List.map_cons, List.map_map]
    rfl
  rw [hids, Forest.preorder, Forest.preorder, List.append_nil, List.map_cons, hplaced]
  exact (below.preorder_perm.map _).cons _

/-- The rows of a document have valid types. -/
theorem document_valid_types {forest : Forest Placed} (h : Document forest) :
    ∀ placed ∈ forest.preorder, placed.row.nodeType ∈ validNodeTypes := by
  intro placed hplaced
  obtain ⟨below, left, right, condition, extra, hlevel, -⟩ := Forest.mem_preorder_cases h hplaced
  rw [hlevel.node_type]
  exact (checked_config hlevel.check).2.1

end PgDurable.Dsl
