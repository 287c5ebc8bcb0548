import PgDurable.Dsl.Sources

/-!
# Documents that are accepted

`validateRecursive` accepts a document exactly if it is a finite tree of valid nodes within the
limits (`validate_recursive_iff`). `labelled_document` gives the nodes of such a tree ids, and
`document_nodes` takes them away again.
-/

namespace PgDurable.Dsl

open Json InsertNodes

/-! ## Trees of nodes -/

/-- The segments and texts of all children of a node. -/
def childSlots (node : Durofut) : List (String × RawObject) :=
  leftSlots node ++ rightSlots node ++ conditionSlots node ++ extraSlots node

/-- A valid node and the children that its texts describe. -/
structure Describes (node : Durofut) (children : List Durofut) : Prop where
  node_type : node.nodeType ∈ validNodeTypes
  config : validateConfigChildren node = .ok ()
  object : conditionSlots node ++ extraSlots node ≠ [] → ∃ members, configMembers node = .ok members
  children : List.Forall₂ (fun slot child => Durofut.childFromRaw slot.2 = .ok child)
    (childSlots node) children

/-- A tree of valid nodes. -/
def Tree (root : Durofut) (below : Forest Durofut) : Prop :=
  (Forest.cons root below .nil).Grown Describes

/-- The number of nodes of a tree, and of the references that lead to its deepest node. -/
def WithinLimits (below : Forest Durofut) : Prop :=
  below.preorder.length < maxGraphNodes ∧ below.height ≤ maxGraphDepth

/-! ## Nodes with ids -/

theorem children_with_ids {entry : PendingGraphNode} {slots : List (String × RawObject)}
    {nodes : List Durofut} {ids : List String}
    (h : List.Forall₂ (fun slot node => Durofut.childFromRaw slot.2 = .ok node) slots nodes)
    (hids : ids.length = nodes.length) :
    ∃ children : List PendingGraphNode, List.Forall₂ (ReadsChild entry) slots children ∧
      children.map (·.id) = ids ∧ children.map (·.node) = nodes ∧
      ∀ child ∈ children, child.depth = entry.depth + 1 := by
  induction h generalizing ids with
  | nil =>
      exact ⟨[], .nil, (List.length_eq_zero_iff.1 hids).symm, rfl, List.forall_mem_nil _⟩
  | @cons slot node slots nodes hnode _ ih =>
      cases ids with
      | nil => cases hids
      | cons id ids =>
          obtain ⟨children, hreads, hchildren, hnodes, hdeeper⟩ := ih (Nat.succ.inj hids)
          exact ⟨⟨node, id, entry.depth + 1, entry.path ++ "." ++ slot.1⟩ :: children,
            .cons ⟨hnode, rfl, rfl⟩ hreads, congrArg (id :: ·) hchildren,
            congrArg (node :: ·) hnodes, List.forall_mem_cons.2 ⟨rfl, hdeeper⟩⟩

theorem forall_append_left {α β : Type} {R : α → β → Prop} {first second : List α}
    {others : List β} (h : List.Forall₂ R (first ++ second) others) :
    ∃ some rest, List.Forall₂ R first some ∧ List.Forall₂ R second rest ∧
      others = some ++ rest := by
  induction first generalizing others with
  | nil => exact ⟨[], others, .nil, h, rfl⟩
  | cons a first ih =>
      cases h with
      | cons hab hrest =>
          obtain ⟨some, rest, hfirst, hsecond, rfl⟩ := ih hrest
          exact ⟨_ :: some, rest, .cons hab hfirst, hsecond, rfl⟩

theorem check_node_ok {entry : PendingGraphNode} (hdepth : entry.depth ≤ maxGraphDepth)
    (htype : entry.node.nodeType ∈ validNodeTypes)
    (hconfig : validateConfigChildren entry.node = .ok ()) : checkNode entry = .ok () := by
  have hknown : validNodeTypes.contains entry.node.nodeType = true := List.contains_iff_mem.2 htype
  rw [checkNode, if_neg (Nat.not_lt.2 hdepth), hknown, hconfig]
  rfl

theorem no_slots {entry : PendingGraphNode} {slots : List (String × RawObject)}
    {children : List PendingGraphNode} (h : List.Forall₂ (ReadsChild entry) slots children) :
    slots = [] ↔ children = [] := by
  cases h with
  | nil => exact iff_of_true rfl rfl
  | cons => exact iff_of_false (List.cons_ne_nil _ _) (List.cons_ne_nil _ _)

theorem materialized_query_ok {entry : PendingGraphNode} {condition extra : List PendingGraphNode}
    (hcondition : List.Forall₂ (ReadsChild entry) (conditionSlots entry.node) condition)
    (hextra : List.Forall₂ (ReadsChild entry) (extraSlots entry.node) extra)
    (hobject : conditionSlots entry.node ++ extraSlots entry.node ≠ [] →
      ∃ members, configMembers entry.node = .ok members) :
    ∃ query, materializedQuery entry.node (condition.head?.map (·.id)) (extra.map (·.id)) =
      .ok query := by
  unfold materializedQuery
  split_ifs with hnone
  · exact ⟨_, rfl⟩
  · have hslots : conditionSlots entry.node ++ extraSlots entry.node ≠ [] := by
      intro hempty
      obtain ⟨hno, hno'⟩ := List.append_eq_nil_iff.1 hempty
      rw [(no_slots hcondition).1 hno, (no_slots hextra).1 hno'] at hnone
      exact hnone rfl
    obtain ⟨members, hmembers⟩ := hobject hslots
    rw [hmembers]
    exact ⟨_, rfl⟩

/-- A described node has a row for all ids of its children. -/
theorem materializes_described {entry : PendingGraphNode} {nodes : List Durofut}
    {ids : List String} (h : Describes entry.node nodes) (hdepth : entry.depth ≤ maxGraphDepth)
    (hids : ids.length = nodes.length) :
    ∃ (row : MaterializedNode) (children : List PendingGraphNode),
      Materializes entry row children ∧ children.map (·.id) = ids ∧
        children.map (·.node) = nodes ∧ ∀ child ∈ children, child.depth = entry.depth + 1 := by
  obtain ⟨children, hreads, hchildren, hnodes, hdeeper⟩ :=
    @children_with_ids entry _ _ _ h.children hids
  obtain ⟨columns, extra, hcolumns, hextra, rfl⟩ := forall_append_left hreads
  obtain ⟨branches, condition, hbranches, hcondition, rfl⟩ := forall_append_left hcolumns
  obtain ⟨left, right, hleft, hright, rfl⟩ := forall_append_left hbranches
  obtain ⟨query, hquery⟩ := materialized_query_ok hcondition hextra h.object
  exact ⟨⟨entry.id, entry.node.nodeType, query, entry.node.resultName, left.head?.map (·.id),
    right.head?.map (·.id)⟩, _, ⟨left, right, condition, extra,
      ⟨check_node_ok hdepth h.node_type h.config, hleft, hright, hcondition, hextra, hquery,
        rfl, rfl, rfl, rfl, rfl⟩, rfl⟩, hchildren, hnodes, hdeeper⟩

theorem split_length {α : Type} {items : List α} {m n : Nat} (h : items.length = m + n) :
    ∃ first second, items = first ++ second ∧ first.length = m ∧ second.length = n := by
  refine ⟨items.take m, items.drop m, (List.take_append_drop m items).symm, ?_, ?_⟩
  · rw [List.length_take]
    omega
  · rw [List.length_drop]
    omega

/-- A forest of described nodes gets ids: any for its roots, and any for those below them. -/
theorem labelled_forest {nodes : Forest Durofut} (hnodes : nodes.Grown Describes)
    {entries : List PendingGraphNode} (hroots : entries.map (·.node) = nodes.roots)
    (hdepth : ∀ entry ∈ entries, entry.depth + nodes.height ≤ maxGraphDepth + 1)
    {ids : List String} (hids : ids.length = nodes.children.length) :
    ∃ forest : Forest Placed, forest.roots.map (·.entry) = entries ∧ Document forest ∧
      forest.children.map (·.entry.id) = ids ∧ forest.map (·.entry.node) = nodes := by
  induction nodes generalizing entries ids with
  | nil =>
      rw [Forest.roots, List.map_eq_nil_iff] at hroots
      rw [Forest.children, List.length_nil, List.length_eq_zero_iff] at hids
      exact ⟨.nil, hroots.symm, trivial, hids.symm, rfl⟩
  | cons node below rest ih ih' =>
      obtain ⟨hnode, hbelow, hrest⟩ := hnodes
      cases entries with
      | nil => cases hroots
      | cons entry entries =>
          obtain ⟨rfl, hothers⟩ := List.cons.inj hroots
          rw [Forest.children, List.append_assoc, List.length_append, List.length_append] at hids
          -- The ids are those of the children, of what is below them, and of what follows.
          obtain ⟨first, more, rfl, hfirst, hmore⟩ := split_length hids
          obtain ⟨inner, last, rfl, hinner, hlast⟩ := split_length hmore
          have hroom : entry.depth + max (below.height + 1) rest.height ≤ maxGraphDepth + 1 :=
            hdepth entry List.mem_cons_self
          obtain ⟨row, children, hmaterializes, hchildren, hbelowRoots, hdeeper⟩ :=
            materializes_described hnode (by omega) hfirst
          obtain ⟨forest, hforest, hdocument, hforestIds, rfl⟩ :=
            ih hbelow hbelowRoots (fun child hchild => by rw [hdeeper child hchild]; omega) hinner
          have hothersRoom : ∀ other ∈ entries, other.depth + rest.height ≤ maxGraphDepth + 1 := by
            intro other hother
            have hmost : other.depth + max ((forest.map (·.entry.node)).height + 1) rest.height ≤
                maxGraphDepth + 1 := hdepth other (List.mem_cons_of_mem _ hother)
            omega
          obtain ⟨others, hotherRoots, hotherDocument, hotherIds, rfl⟩ :=
            ih' hrest hothers hothersRoom hlast
          refine ⟨.cons ⟨entry, row⟩ forest others, ?_, ⟨?_, hdocument, hotherDocument⟩, ?_, rfl⟩
          · rw [Forest.roots, List.map_cons, hotherRoots]
          · show Materializes entry row (forest.roots.map (·.entry))
            rw [hforest]
            exact hmaterializes
          · have hrootIds : forest.roots.map (·.entry.id) = first := by
              rw [← hchildren, ← hforest, List.map_map]
              rfl
            rw [Forest.children, List.map_append, List.map_append, hrootIds, hforestIds, hotherIds,
              List.append_assoc]

/-! ## Nodes without their ids -/

theorem reads_nodes {entry : PendingGraphNode} {slots : List (String × RawObject)}
    {children : List PendingGraphNode} (h : List.Forall₂ (ReadsChild entry) slots children) :
    List.Forall₂ (fun slot node => Durofut.childFromRaw slot.2 = .ok node) slots
      (children.map (·.node)) := by
  induction h with
  | nil => exact .nil
  | cons hread _ ih => exact .cons hread.node ih

theorem reads_depth {entry : PendingGraphNode} {slots : List (String × RawObject)}
    {children : List PendingGraphNode} (h : List.Forall₂ (ReadsChild entry) slots children) :
    ∀ child ∈ children, child.depth = entry.depth + 1 := by
  induction h with
  | nil => exact List.forall_mem_nil _
  | cons hread _ ih => exact List.forall_mem_cons.2 ⟨hread.depth, ih⟩

/-- A materialized node is described by its children. -/
theorem described_materializes {entry : PendingGraphNode} {row : MaterializedNode}
    {children : List PendingGraphNode} (h : Materializes entry row children) :
    Describes entry.node (children.map (·.node)) ∧ entry.depth ≤ maxGraphDepth ∧
      ∀ child ∈ children, child.depth = entry.depth + 1 := by
  obtain ⟨left, right, condition, extra, hlevel, rfl⟩ := h
  obtain ⟨hdepth, htype, hconfig⟩ := checked_config hlevel.check
  have hreads : List.Forall₂ (ReadsChild entry) (childSlots entry.node)
      (left ++ right ++ condition ++ extra) :=
    List.rel_append (List.rel_append (List.rel_append hlevel.reads_left hlevel.reads_right)
      hlevel.reads_condition) hlevel.reads_extra
  refine ⟨⟨htype, hconfig, fun hslots => ?_, reads_nodes hreads⟩, hdepth, reads_depth hreads⟩
  have hsome : ¬ ((condition.head?.map (·.id)).isNone && (extra.map (·.id)).isEmpty) = true := by
    intro hnone
    rw [Bool.and_eq_true, Option.isNone_map, List.isEmpty_map] at hnone
    refine hslots ?_
    rw [(no_slots hlevel.reads_condition).2 (List.head?_eq_none_iff.1 (Option.isNone_iff_eq_none.1
      hnone.1)), (no_slots hlevel.reads_extra).2 (List.isEmpty_iff.1 hnone.2)]
    rfl
  have hquery := hlevel.query
  rw [materializedQuery, if_neg hsome] at hquery
  obtain ⟨members, hmembers, -⟩ := except_bind_ok hquery
  exact ⟨members, hmembers⟩

/-- A document is a forest of described nodes of bounded height. -/
theorem document_nodes {forest : Forest Placed} (h : Document forest) {depth : Nat}
    (hroots : ∀ placed ∈ forest.roots, placed.entry.depth = depth) :
    (forest.map (·.entry.node)).Grown Describes ∧
      (forest.roots ≠ [] → depth + forest.height ≤ maxGraphDepth + 1) := by
  induction forest generalizing depth with
  | nil => exact ⟨trivial, fun h => absurd rfl h⟩
  | cons placed below rest ih ih' =>
      obtain ⟨hmaterializes, hbelow, hrest⟩ := h
      obtain ⟨rfl, hothers⟩ := List.forall_mem_cons.1 hroots
      obtain ⟨hdescribes, hdepth, hdeeper⟩ := described_materializes hmaterializes
      obtain ⟨hnodes, hheight⟩ := ih hbelow fun child hchild =>
        hdeeper child.entry (List.mem_map_of_mem hchild)
      obtain ⟨hnodes', hheight'⟩ := ih' hrest hothers
      refine ⟨⟨?_, hnodes, hnodes'⟩, fun _ => ?_⟩
      · rw [Forest.roots_map, List.map_map] at *
        exact hdescribes
      · have hinner : placed.entry.depth + (below.height + 1) ≤ maxGraphDepth + 1 := by
          cases below with
          | nil => exact Nat.succ_le_succ hdepth
          | cons child inner others =>
              have hlevels := hheight (List.cons_ne_nil _ _)
              omega
        have houter : placed.entry.depth + rest.height ≤ maxGraphDepth + 1 := by
          cases rest with
          | nil => exact Nat.le_succ_of_le hdepth
          | cons other inner others => exact hheight' (List.cons_ne_nil _ _)
        rw [Forest.height]
        omega

/-! ## What is accepted -/

theorem counter_ids_supply (counter n : Nat) :
    ∃ ids last, ids.length = n ∧ Supplied counterIds counter ids last := by
  induction n generalizing counter with
  | zero => exact ⟨[], counter, rfl, rfl⟩
  | succ n ih =>
      obtain ⟨ids, last, hlength, hids⟩ := ih (counter + 1)
      exact ⟨counterId (counter + 1) :: ids, last, congrArg Nat.succ hlength, _, rfl, hids⟩

/-- What a source flattens is a tree within the limits. -/
theorem flattened_tree {σ : Type} {source : IdSource σ} {ids : σ} {root : Durofut}
    {rootId : String} {rows : List MaterializedNode}
    (h : flattenGraph source root ids = some (.ok (rootId, rows))) :
    ∃ (placed : Placed) (forest : Forest Placed), placed.entry = ⟨root, rootId, 0, "root"⟩ ∧
      Document (.cons placed forest .nil) ∧ rows = placed.row :: forest.preorder.map (·.row) ∧
      Tree root (forest.map (·.entry.node)) ∧ WithinLimits (forest.map (·.entry.node)) := by
  obtain ⟨placed, forest, hplaced, hdocument, -, hsize, hrows⟩ := (flatten_graph_iff _ _ _ _ _).1 h
  have hdepth : ∀ other ∈ (Forest.cons placed forest .nil).roots, other.entry.depth = 0 := by
    intro other hother
    rw [List.mem_singleton.1 hother, hplaced]
  obtain ⟨htree, hheight⟩ := document_nodes hdocument hdepth
  have hlevels := hheight (List.cons_ne_nil _ _)
  rw [Forest.height, Forest.height] at hlevels
  have hroot : placed.entry.node = root := by rw [hplaced]
  refine ⟨placed, forest, hplaced, hdocument, hrows, ?_, ?_, ?_⟩
  · rw [Tree, ← hroot]
    exact htree
  · rw [Forest.preorder_map, List.length_map]
    exact hsize
  · rw [Forest.height_map]
    omega

/-- A tree within the limits is flattened by a source that has ids for it. -/
theorem tree_flattens {root : Durofut} {below : Forest Durofut} (htree : Tree root below)
    (hlimits : WithinLimits below) (counter : Nat) :
    ∃ rootId rows, flattenGraph counterIds root counter = some (.ok (rootId, rows)) := by
  obtain ⟨ids, last, hlength, hids⟩ :=
    counter_ids_supply (counter + 1) (below.roots ++ below.children).length
  have hentry : ∀ entry ∈ [(⟨root, counterId (counter + 1), 0, "root"⟩ : PendingGraphNode)],
      entry.depth + (Forest.cons root below .nil).height ≤ maxGraphDepth + 1 := by
    intro entry hentry
    rw [List.mem_singleton.1 hentry, Forest.height, Forest.height]
    have hheight := hlimits.2
    dsimp only
    omega
  have hchildren : ids.length = (Forest.cons root below .nil).children.length := by
    rw [hlength, Forest.children, Forest.children, List.append_nil]
  obtain ⟨forest, hroots, hdocument, hforestIds, hnodes⟩ :=
    labelled_forest htree rfl hentry hchildren
  cases forest with
  | nil => cases hroots
  | cons placed inner rest =>
      obtain ⟨-, hinner, hrest⟩ := Forest.cons.inj hnodes
      cases rest with
      | cons => cases hrest
      | nil =>
          rw [Forest.children, Forest.children, List.append_nil] at hforestIds
          refine ⟨counterId (counter + 1), _, (flatten_graph_iff _ _ _ _ _).2 ⟨placed, inner,
            (List.cons.inj hroots).1, hdocument, ⟨last, counter + 1, rfl, ?_⟩, ?_, rfl⟩⟩
          · rw [hforestIds]
            exact hids
          · rw [← List.length_map, ← Forest.preorder_map (·.entry.node), hinner]
            exact hlimits.1

end PgDurable.Dsl
