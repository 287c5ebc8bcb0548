import PgDurable.Dsl.Meaning
import PgDurable.Dsl.Stored

/-!
# Workflows in loaded graphs

`Installed` says that the rows of a workflow are nodes of a loaded graph. Each `…_decoded` says what
a handler reads in the row of a node: the ids of its steps, and its configuration.
-/

namespace PgDurable.Dsl

open Json Text InsertNodes NodeStatus Orchestration

/-! ## Shapes -/

/-- The node of a call that takes steps, without a name. -/
def Shape.node : Shape → Durofut
  | .call leaf => leaf.node
  | .thenFn a b => thenNode a.node b.node
  | .loop body condition continueOnFailure =>
      loopNode body.node (condition.map Workflow.node) continueOnFailure
  | .ifFn condition thenBranch elseBranch => ifNode condition.node thenBranch.node elseBranch.node
  | .ifRowsFn resultName thenBranch elseBranch =>
      ifRowsNode resultName thenBranch.node elseBranch.node
  | .join [] => Durofut.default "JOIN"
  | .join [_] => Durofut.default "JOIN"
  | .join (a :: b :: more) => joinNode a.node b.node (more.map Workflow.node)
  | .race a b => raceNode a.node b.node

/-- The steps of a call, in the order of the fields that hold them. -/
def Shape.children : Shape → List Workflow
  | .call _ => []
  | .thenFn a b => [a, b]
  | .loop body condition _ => body :: condition.toList
  | .ifFn condition thenBranch elseBranch => [thenBranch, elseBranch, condition]
  | .ifRowsFn _ thenBranch elseBranch => [thenBranch, elseBranch]
  | .join branches => branches
  | .race a b => [a, b]

/-- The trees of workflows, one beside the other. -/
def trees (ws : List Workflow) : Forest Durofut :=
  ws.foldr (fun w rest => .cons w.node w.steps rest) .nil

theorem shape_node (w : Workflow) : w.node = { w.shape.node with resultName := w.name } := by
  induction w with
  | leaf call => cases call <;> rfl
  | asNamed fut name ih =>
      show { fut.node with resultName := some name } = _
      rw [ih]
      rfl
  | text | thenFn | loop | loopWhile | ifFn | ifRowsFn | join | join3 | race => rfl

theorem shape_steps (w : Workflow) : w.steps = trees w.shape.children := by
  induction w with
  | asNamed fut name ih => exact ih
  | text | leaf | thenFn | loop | loopWhile | ifFn | ifRowsFn | join | join3 | race => rfl

/-! ## Installed workflows -/

/-- The index of the field that holds a step. -/
def slot : Orchestration.Step → Nat
  | .thenLeft | .ifThen | .loopBody _ => 0
  | .thenRight | .ifElse | .loopCondition _ => 1
  | .ifCondition => 2
  | .branch index => index

def idAt (forest : Forest StoredNode) (index : Nat) (position : List Nat) : String :=
  ((forest.nodeAt index position).map (·.row.id)).getD ""

section Installed

variable (surroundings : Surroundings) (nodes : Std.ExtTreeMap String FunctionNode)

/-- The rows of workflows are nodes of the graph, under distinct ids. -/
structure Loaded (ws : List Workflow) (forest : Forest StoredNode) : Prop where
  source : forest.map (·.node) = trees ws
  stored : StoredForest forest
  rows : ∀ stored ∈ forest.preorder, nodes[stored.row.id]? =
    some (loadedNode surroundings.submittedBy surroundings.database stored.row)
  nodup : (forest.preorder.map (·.row.id)).Nodup

/-- The messages about steps name the rows. -/
def NamesSteps (position : List Nat) (start : Nat) (forest : Forest StoredNode) : Prop :=
  ∀ (path : Path) (index : Nat) (inner : List Nat),
    path.map slot = position ++ (start + index) :: inner →
    surroundings.stepId path = idAt forest index inner

/-- The tree of a workflow, at the position of its step. -/
structure Installed (position : List Nat) (w : Workflow) (tree : StoredNode)
    (below : Forest StoredNode) : Prop where
  loaded : Loaded surroundings nodes [w] (.cons tree below .nil)
  step_id : ∀ path : Path, path.map slot = position → surroundings.stepId path = tree.row.id
  names : NamesSteps surroundings position 0 below

variable {surroundings} {nodes} {position : List Nat} {start : Nat}
variable {w : Workflow} {ws : List Workflow} {tree : StoredNode} {below rest : Forest StoredNode}

/-- The first of several trees is one, and so are the others. -/
theorem Loaded.first (h : Loaded surroundings nodes (w :: ws) (.cons tree below rest)) :
    Loaded surroundings nodes [w] (.cons tree below .nil) ∧ Loaded surroundings nodes ws rest := by
  obtain ⟨hnode, hbelow, hrest⟩ := Forest.cons.inj h.source
  obtain ⟨hstored, hinner, houter⟩ := h.stored
  have hnodup := h.nodup
  rw [Forest.preorder, ← List.cons_append, List.map_append, List.nodup_append] at hnodup
  have hmem : ∀ stored, stored ∈ (Forest.cons tree below .nil).preorder →
      stored ∈ (Forest.cons tree below rest).preorder := by
    intro stored hmem
    rw [Forest.preorder, Forest.preorder, List.append_nil] at hmem
    rw [Forest.preorder, ← List.cons_append]
    exact List.mem_append_left _ hmem
  refine ⟨⟨congrArg₂ (fun a b => Forest.cons a b .nil) hnode hbelow, ⟨hstored, hinner, trivial⟩,
    fun stored hstored => h.rows stored (hmem stored hstored), ?_⟩, hrest, houter,
    fun stored hstored => h.rows stored ?_, hnodup.2.1⟩
  · rw [Forest.preorder, Forest.preorder, List.append_nil]
    exact hnodup.1
  · rw [Forest.preorder]
    exact List.mem_cons_of_mem _ (List.mem_append_right _ hstored)

/-- The first of the workflows below a position is installed there, and the others follow. -/
theorem Loaded.cons {forest : Forest StoredNode}
    (h : Loaded surroundings nodes (w :: ws) forest)
    (hnames : NamesSteps surroundings position start forest) :
    ∃ tree below rest, forest = .cons tree below rest ∧
      Installed surroundings nodes (position ++ [start]) w tree below ∧
      Loaded surroundings nodes ws rest ∧
      NamesSteps surroundings position (start + 1) rest := by
  obtain ⟨tree, below, rest, rfl, -, -, -⟩ := Forest.map_eq_cons h.source
  obtain ⟨hfirst, hrest⟩ := h.first
  refine ⟨tree, below, rest, rfl, ⟨hfirst, fun path hpath => ?_, fun path index inner hpath => ?_⟩,
    hrest, fun path index inner hpath => ?_⟩
  · exact hnames path 0 [] hpath
  · rw [Nat.zero_add, List.append_assoc] at hpath
    exact hnames path 0 (index :: inner) hpath
  · rw [Nat.add_right_comm, Nat.add_assoc] at hpath
    exact hnames path (index + 1) inner hpath

theorem Loaded.nil {forest : Forest StoredNode} (h : Loaded surroundings nodes [] forest) :
    forest = .nil := by
  cases forest with
  | nil => rfl
  | cons => cases h.source

namespace Installed

variable (h : Installed surroundings nodes position w tree below)
include h

theorem stored_as : StoredAs { w.shape.node with resultName := w.name } tree.row := by
  obtain ⟨hnode, -, -⟩ := Forest.cons.inj h.loaded.source
  rw [← shape_node, ← hnode]
  exact h.loaded.stored.1.1

theorem references_eq : references tree.row = below.roots.map (·.row.id) := h.loaded.stored.1.2

theorem found : nodes[tree.row.id]? =
    some (loadedNode surroundings.submittedBy surroundings.database tree.row) :=
  h.loaded.rows tree List.mem_cons_self

/-- The steps of a workflow are installed below it. -/
theorem children : Loaded surroundings nodes w.shape.children below := by
  obtain ⟨-, hbelow, -⟩ := Forest.cons.inj h.loaded.source
  have hnodup := h.loaded.nodup
  have hpreorder : (Forest.cons tree below .nil).preorder = tree :: below.preorder := by
    rw [Forest.preorder, Forest.preorder, List.append_nil]
  rw [hpreorder] at hnodup
  refine ⟨?_, h.loaded.stored.2.1, fun stored hstored => h.loaded.rows stored ?_,
    (List.nodup_cons.1 hnodup).2⟩
  · rw [hbelow]
    exact shape_steps w
  · rw [hpreorder]
    exact List.mem_cons_of_mem _ hstored

/-- The row of a workflow is not one of its steps. -/
theorem not_below : tree.row.id ∉ below.preorder.map (·.row.id) := by
  have hnodup := h.loaded.nodup
  rw [Forest.preorder, Forest.preorder, List.append_nil] at hnodup
  exact (List.nodup_cons.1 hnodup).1

end Installed

end Installed

/-! ## What the handlers read -/

section Rows

variable {row : MaterializedNode} {name : Option String} {first second third : String}
variable {others : List String}

/-- The columns of a row are its first references. -/
theorem columns_decoded (hleft : row.leftNode.isSome = true) (hright : row.rightNode.isSome = true)
    (h : references row = first :: second :: others) :
    row.leftNode = some first ∧ row.rightNode = some second ∧
      (if supportsCondition row.nodeType then configNode row.query "condition_node" else []) ++
        (if row.nodeType = "JOIN" then NodeStatus.extraNodes row.query else []) = others := by
  obtain ⟨left, hleft⟩ := Option.isSome_iff_exists.1 hleft
  obtain ⟨right, hright⟩ := Option.isSome_iff_exists.1 hright
  rw [references, hleft, hright, List.append_assoc] at h
  obtain ⟨hfirst, h⟩ := List.cons.inj h
  obtain ⟨hsecond, h⟩ := List.cons.inj h
  rw [← hfirst, ← hsecond]
  exact ⟨hleft, hright, h⟩

theorem then_decoded {a b : Durofut}
    (h : StoredAs { thenNode a b with resultName := name } row)
    (hreferences : references row = [first, second]) :
    row.leftNode = some first ∧ row.rightNode = some second := by
  obtain ⟨hleft, hright, -⟩ := columns_decoded h.left_node h.right_node hreferences
  exact ⟨hleft, hright⟩

theorem race_decoded {a b : Durofut}
    (h : StoredAs { raceNode a b with resultName := name } row)
    (hreferences : references row = [first, second]) :
    row.leftNode = some first ∧ row.rightNode = some second := by
  obtain ⟨hleft, hright, -⟩ := columns_decoded h.left_node h.right_node hreferences
  exact ⟨hleft, hright⟩

/-- The configuration of a row with a condition names it. -/
theorem condition_query {node : Durofut} {members : List (String × Value)}
    (h : StoredAs node row) (hslots : conditionSlots node ≠ []) (hextra : extraSlots node = [])
    (hmembers : configMembers node = .ok members)
    (hcondition : configNode row.query "condition_node" = [third]) :
    row.query = some (print (.object (insertMember "condition_node" (.string third) members))) := by
  obtain ⟨condition, extra, hnone, hno, hquery⟩ := h.query
  rw [hno.2 hextra] at hquery
  cases condition with
  | none => exact absurd (hnone.1 rfl) hslots
  | some id =>
      obtain ⟨others, hparse⟩ := materialized_query_parse rfl hquery
      have hid := config_node_children id hparse
      rw [hcondition] at hid
      obtain ⟨rfl, -⟩ := List.cons.inj hid
      rw [materializedQuery, hmembers] at hquery
      exact (Except.ok.inj hquery).symm

theorem if_decoded {condition thenBranch elseBranch : Durofut}
    (h : StoredAs { ifNode condition thenBranch elseBranch with resultName := name } row)
    (hreferences : references row = [first, second, third]) :
    row.leftNode = some first ∧ row.rightNode = some second ∧
      row.query = some (print (.object [("condition_node", .string third)])) := by
  obtain ⟨hleft, hright, hcondition⟩ := columns_decoded h.left_node h.right_node hreferences
  rw [h.node_type] at hcondition
  exact ⟨hleft, hright, condition_query h (List.cons_ne_nil _ _) rfl rfl
    ((List.append_nil _).symm.trans hcondition)⟩

theorem if_rows_decoded {resultName : String} {thenBranch elseBranch : Durofut}
    (h : StoredAs { ifRowsNode resultName thenBranch elseBranch with resultName := name } row)
    (hreferences : references row = [first, second]) :
    row.leftNode = some first ∧ row.rightNode = some second ∧
      row.query = some (print (ifRowsConfig resultName)) := by
  obtain ⟨hleft, hright, -⟩ := columns_decoded h.left_node h.right_node hreferences
  exact ⟨hleft, hright, stored_none h rfl rfl⟩

theorem loop_config_read :
    LoopConfig.ofJson (print loopConfig) = .ok ⟨true, none⟩ := by
  rw [LoopConfig.ofJson, (from_str_print_iff loop_config_well_formed).2 ⟨rfl, by decide⟩]
  rfl

/-- The configuration of a loop with a condition is read as it was written. -/
theorem loop_while_config_read (id : String) (continueOnFailure : Bool) :
    LoopConfig.ofJson (print (.object (insertMember "condition_node" (.string id)
      (if continueOnFailure then [("continue_on_failure", .bool true)] else [])))) =
      .ok ⟨continueOnFailure, some id⟩ := by
  have hkeys : ["continue_on_failure", "condition_node"].Nodup := by decide
  cases continueOnFailure with
  | false =>
      have hwf : (Value.object [("condition_node", .string id)]).WellFormed :=
        ⟨List.nodup_singleton _, trivial, trivial⟩
      show LoopConfig.ofJson (print (.object [("condition_node", .string id)])) = _
      rw [LoopConfig.ofJson, (from_str_print_iff hwf).2 ⟨rfl, (by decide : (1 : Nat) < 128)⟩]
      rfl
  | true =>
      have hwf : (Value.object [("continue_on_failure", .bool true),
          ("condition_node", .string id)]).WellFormed := ⟨hkeys, trivial, trivial, trivial⟩
      show LoopConfig.ofJson (print (.object [("continue_on_failure", .bool true),
        ("condition_node", .string id)])) = _
      rw [LoopConfig.ofJson, (from_str_print_iff hwf).2 ⟨rfl, (by decide : (1 : Nat) < 128)⟩]
      rfl

/-- A loop without a condition. -/
theorem loop_decoded {body : Durofut} {continueOnFailure : Bool} {node : FunctionNode}
    (h : StoredAs { loopNode body none continueOnFailure with resultName := name } row)
    (hreferences : references row = [first]) (hquery : node.query = row.query) (nodeId : String) :
    row.leftNode = some first ∧
      parseLoopConfig node nodeId = .ok ⟨continueOnFailure, none⟩ := by
  obtain ⟨left, hleft⟩ := Option.isSome_iff_exists.1 h.left_node
  rw [references, hleft] at hreferences
  obtain ⟨hfirst, -⟩ := List.cons.inj hreferences
  rw [← hfirst]
  refine ⟨hleft, ?_⟩
  have hconfig : row.query = if continueOnFailure then some (print loopConfig) else none :=
    stored_none h rfl rfl
  rw [parseLoopConfig, hquery, hconfig]
  cases continueOnFailure with
  | false => rfl
  | true =>
      rw [if_pos rfl]
      dsimp only
      rw [loop_config_read]
      rfl

/-- A loop with a condition. -/
theorem loop_while_decoded {body condition : Durofut} {continueOnFailure : Bool}
    {node : FunctionNode}
    (h : StoredAs { loopNode body (some condition) continueOnFailure with resultName := name } row)
    (hreferences : references row = [first, second]) (hquery : node.query = row.query)
    (nodeId : String) :
    row.leftNode = some first ∧
      parseLoopConfig node nodeId = .ok ⟨continueOnFailure, some second⟩ := by
  obtain ⟨left, hleft⟩ := Option.isSome_iff_exists.1 h.left_node
  have hright : row.rightNode = none :=
    Option.isNone_iff_eq_none.1 (Option.isSome_eq_false_iff.1 h.right_node)
  have hmembers : configMembers { loopNode body (some condition) continueOnFailure with
      resultName := name } =
      .ok (if continueOnFailure then [("continue_on_failure", .bool true)] else []) := by
    cases continueOnFailure with
    | false => rfl
    | true =>
        show (queryConfig _ >>= _) = _
        rw [queryConfig, loopNode]
        dsimp only
        rw [if_pos rfl]
        dsimp only
        rw [(from_str_print_iff loop_config_well_formed).2 ⟨rfl, by decide⟩]
        rfl
  rw [references, hleft, hright, h.node_type] at hreferences
  obtain ⟨hfirst, hcondition⟩ := List.cons.inj hreferences
  rw [← hfirst]
  refine ⟨hleft, ?_⟩
  have hconfig := condition_query h (List.cons_ne_nil _ _) rfl hmembers
    ((List.append_nil _).symm.trans hcondition)
  rw [parseLoopConfig, hquery, hconfig]
  dsimp only
  rw [loop_while_config_read]
  rfl

theorem join_decoded {a b : Durofut} {more : List Durofut} {node : FunctionNode}
    (h : StoredAs { joinNode a b more with resultName := name } row)
    (hreferences : references row = first :: second :: others) (hquery : node.query = row.query) :
    row.leftNode = some first ∧ row.rightNode = some second ∧
      joinBranchIds node first second = first :: second :: others := by
  obtain ⟨hleft, hright, hextra⟩ := columns_decoded h.left_node h.right_node hreferences
  rw [h.node_type] at hextra
  refine ⟨hleft, hright, ?_⟩
  rw [join_branch_ids_eq, hquery]
  exact congrArg (fun ids => first :: second :: ids) hextra

end Rows

end PgDurable.Dsl
