import PgDurable.Dsl.Durofut
import PgDurable.Library.Forest
import PgDurable.Submissions.InsertNodes

/-!
# Flattening a workflow document

`flattenGraph` turns a document into rows. It keeps a stack of nodes that have their ids; a node is
taken off, its children are read and receive ids, and its row names them. `flatten_graph_iff` says
when this succeeds and with which rows: the document is a finite tree within the limits whose nodes
are valid, the id source supplies an id for each node, and the rows are those of the tree in
preorder.
-/

namespace PgDurable.Dsl

open Json Text InsertNodes

/-- The deepest nesting of a graph. -/
def maxGraphDepth : Nat := 256

/-- The most nodes of a graph. -/
def maxGraphNodes : Nat := 10000

/-- Supplies node ids. A call returns an id with the state for the next call, or fails. -/
abbrev IdSource (σ : Type) := σ → Except String (String × σ)

/-- A graph-materialization error with the path of the offending node. -/
structure GraphError where
  path : String
  message : String

def GraphError.display (error : GraphError) : String := error.path ++ ": " ++ error.message

/-- A node that waits to be materialized. -/
structure PendingGraphNode where
  node : Durofut
  id : String
  depth : Nat
  path : String

/-! ## Configuration -/

def supportsCondition (nodeType : String) : Bool := nodeType == "IF" || nodeType == "LOOP"

/-- Reject children in the configuration, where an older format had them. -/
def rejectEmbeddedConfigChildren (node : Durofut) : Except String Unit :=
  match node.query.bind parse with
  | none => .ok ()
  | some config =>
      let reject (field : String) : Except String Unit :=
        .error (field ++ " in " ++ node.nodeType ++
          " must be a first-class Durofut field, not embedded in query")
      if supportsCondition node.nodeType && (config.get? "condition_node").isSome then
        reject "condition_node"
      else if node.nodeType == "JOIN" && (config.get? "extra_nodes").isSome then
        reject "extra_nodes"
      else .ok ()

def validateConfigChildren (node : Durofut) : Except String Unit :=
  if node.conditionNode.isSome && !supportsCondition node.nodeType then
    .error ("condition_node is not valid for " ++ node.nodeType ++ " nodes")
  else if !node.extraNodes.isEmpty && node.nodeType != "JOIN" then
    .error ("extra_nodes is not valid for " ++ node.nodeType ++ " nodes")
  else rejectEmbeddedConfigChildren node

/-- The configuration that a node has as its query. -/
def queryConfig (node : Durofut) : Except String Value :=
  match node.query with
  | none => .ok (.object [])
  | some query =>
      match fromStr query with
      | .ok config => .ok config
      | .error message =>
          .error ("query in " ++ node.nodeType ++ " must be valid JSON config: " ++ message)

def configMembers (node : Durofut) : Except String (List (String × Value)) := do
  match ← queryConfig node with
  | .object members => pure members
  | _ => .error ("query in " ++ node.nodeType ++ " must be a JSON config object")

/-- The configuration with the ids of the children in it. -/
def withChildren (conditionNode : Option String) (extraNodes : List String)
    (members : List (String × Value)) : List (String × Value) :=
  let members := conditionNode.elim members fun id =>
    insertMember "condition_node" (.string id) members
  if extraNodes.isEmpty then members
  else insertMember "extra_nodes" (.array (extraNodes.map .string)) members

/-- The query of a row: that of the node, with the ids of the children that are configuration. -/
def materializedQuery (node : Durofut) (conditionNode : Option String) (extraNodes : List String) :
    Except String (Option String) :=
  if conditionNode.isNone && extraNodes.isEmpty then .ok node.query
  else do
    let members ← configMembers node
    pure (some (print (.object (withChildren conditionNode extraNodes members))))

/-! ## The walk -/

section Walk

variable {σ : Type}

/-- What reading a child changes: the id source and the number of nodes. -/
structure Discovery (σ : Type) where
  ids : σ
  discovered : Nat

/-- An error at a path. -/
def located {α : Type} (path : String) : Except String α → Except GraphError α
  | .ok value => .ok value
  | .error message => .error ⟨path, message⟩

def tooManyNodes : String :=
  "Workflow exceeds maximum node count of " ++ toString maxGraphNodes ++
    ". Simplify the workflow or break it into multiple instances."

def tooDeep : String :=
  "Graph exceeds maximum nesting depth of " ++ toString maxGraphDepth ++
    ". Simplify the workflow or break it into multiple instances."

def parseChild (nextId : IdSource σ) (entry : PendingGraphNode) (slot : String × RawObject)
    (found : Discovery σ) : Except GraphError (PendingGraphNode × Discovery σ) :=
  let path := entry.path ++ "." ++ slot.1
  if maxGraphNodes ≤ found.discovered then .error ⟨path, tooManyNodes⟩
  else do
    let node ← located path (Durofut.childFromRaw slot.2)
    let (id, ids) ← located path (nextId found.ids)
    pure (⟨node, id, entry.depth + 1, path⟩, ⟨ids, found.discovered + 1⟩)

def parseChildren (nextId : IdSource σ) (entry : PendingGraphNode) :
    List (String × RawObject) → Discovery σ →
      Except GraphError (List PendingGraphNode × Discovery σ)
  | [], found => .ok ([], found)
  | slot :: slots, found => do
      let (child, found) ← parseChild nextId entry slot found
      let (children, found) ← parseChildren nextId entry slots found
      pure (child :: children, found)

/-- The segments and texts of the children that a node has in each of its fields. -/
def leftSlots (node : Durofut) : List (String × RawObject) :=
  node.leftNode.toList.map fun raw => ("left", raw)

def rightSlots (node : Durofut) : List (String × RawObject) :=
  node.rightNode.toList.map fun raw => ("right", raw)

def conditionSlots (node : Durofut) : List (String × RawObject) :=
  if supportsCondition node.nodeType then
    node.conditionNode.toList.map fun raw => ("condition_node", raw)
  else []

def extraSlots (node : Durofut) : List (String × RawObject) :=
  if node.nodeType = "JOIN" then
    node.extraNodes.zipIdx.map fun (raw, i) => ("extra_nodes[" ++ toString i ++ "]", raw)
  else []

/-- Check a node. -/
def checkNode (entry : PendingGraphNode) : Except GraphError Unit :=
  if maxGraphDepth < entry.depth then .error ⟨entry.path, tooDeep⟩
  else if !validNodeTypes.contains entry.node.nodeType then
    .error ⟨entry.path, unknownNodeType entry.node.nodeType⟩
  else located entry.path (validateConfigChildren entry.node)

/-- One round: check a node, read its children and write its row. -/
def materialize (nextId : IdSource σ) (entry : PendingGraphNode) (found : Discovery σ) :
    Except GraphError (MaterializedNode × List PendingGraphNode × Discovery σ) := do
  checkNode entry
  let (left, found) ← parseChildren nextId entry (leftSlots entry.node) found
  let (right, found) ← parseChildren nextId entry (rightSlots entry.node) found
  let (condition, found) ← parseChildren nextId entry (conditionSlots entry.node) found
  let (extra, found) ← parseChildren nextId entry (extraSlots entry.node) found
  let query ← located entry.path (materializedQuery entry.node (condition.head?.map (·.id))
    (extra.map (·.id)))
  pure (⟨entry.id, entry.node.nodeType, query, entry.node.resultName, left.head?.map (·.id),
    right.head?.map (·.id)⟩, left ++ right ++ condition ++ extra, found)

/-- Take nodes off the stack until it is empty. -/
def flattenLoop (nextId : IdSource σ) : Nat → List PendingGraphNode → Discovery σ →
    Option (Except GraphError (List MaterializedNode))
  | _, [], _ => some (.ok [])
  | 0, _ :: _, _ => none
  | fuel + 1, entry :: pending, found =>
      match materialize nextId entry found with
      | .error error => some (.error error)
      | .ok (row, children, found) =>
          (flattenLoop nextId fuel (children ++ pending) found).map (Except.map (row :: ·))

/-- Materialize a document into rows in preorder. There is one round for each node. -/
def flattenGraph (nextId : IdSource σ) (root : Durofut) (ids : σ) :
    Option (Except GraphError (String × List MaterializedNode)) :=
  match located "root" (nextId ids) with
  | .error error => some (.error error)
  | .ok (rootId, ids) =>
      (flattenLoop nextId maxGraphNodes [⟨root, rootId, 0, "root"⟩] ⟨ids, 1⟩).map
        (Except.map fun rows => (rootId, rows))

/-! ## What is supplied and read -/

theorem except_bind_ok {ε α β : Type} {first : Except ε α} {next : α → Except ε β} {result : β}
    (h : (first >>= next) = .ok result) : ∃ value, first = .ok value ∧ next value = .ok result := by
  cases first with
  | error message => cases h
  | ok value => exact ⟨value, rfl, h⟩

/-- Successive calls of the source return the ids. -/
def Supplied (nextId : IdSource σ) : σ → List String → σ → Prop
  | ids, [], ids' => ids' = ids
  | ids, id :: more, ids' => ∃ next, nextId ids = .ok (id, next) ∧ Supplied nextId next more ids'

/-- The child of a node that a text describes. -/
structure ReadsChild (entry : PendingGraphNode) (slot : String × RawObject)
    (child : PendingGraphNode) : Prop where
  node : Durofut.childFromRaw slot.2 = .ok child.node
  depth : child.depth = entry.depth + 1
  path : child.path = entry.path ++ "." ++ slot.1

variable {nextId : IdSource σ} {entry : PendingGraphNode}

theorem supplied_append {ids ids' : σ} (first second : List String) :
    Supplied nextId ids (first ++ second) ids' ↔
      ∃ between, Supplied nextId ids first between ∧ Supplied nextId between second ids' := by
  induction first generalizing ids with
  | nil =>
      constructor
      · exact fun h => ⟨ids, rfl, h⟩
      · rintro ⟨_, rfl, h⟩
        exact h
  | cons id first ih =>
      constructor
      · rintro ⟨next, hcall, h⟩
        obtain ⟨between, hfirst, hsecond⟩ := ih.1 h
        exact ⟨between, ⟨next, hcall, hfirst⟩, hsecond⟩
      · rintro ⟨between, ⟨next, hcall, hfirst⟩, hsecond⟩
        exact ⟨next, hcall, ih.2 ⟨between, hfirst, hsecond⟩⟩

theorem located_ok_iff {α : Type} {path : String} {result : Except String α} {value : α} :
    located path result = .ok value ↔ result = .ok value := by
  cases result with
  | ok other => exact ⟨fun h => congrArg Except.ok (Except.ok.inj h), fun h => h ▸ rfl⟩
  | error message => exact ⟨fun h => (by cases h), fun h => (by cases h)⟩

theorem parse_child_iff {slot : String × RawObject} {found found' : Discovery σ}
    {child : PendingGraphNode} :
    parseChild nextId entry slot found = .ok (child, found') ↔
      ReadsChild entry slot child ∧ nextId found.ids = .ok (child.id, found'.ids) ∧
        found'.discovered = found.discovered + 1 ∧ found'.discovered ≤ maxGraphNodes := by
  constructor
  · intro h
    unfold parseChild at h
    dsimp only at h
    split_ifs at h with hfull
    obtain ⟨node, hnode, h⟩ := except_bind_ok h
    obtain ⟨⟨id, ids⟩, hid, h⟩ := except_bind_ok h
    cases h
    exact ⟨⟨located_ok_iff.1 hnode, rfl, rfl⟩, located_ok_iff.1 hid, rfl, Nat.lt_of_not_le hfull⟩
  · rintro ⟨⟨hnode, hdepth, hpath⟩, hid, hcount, hfull⟩
    obtain ⟨node, id, depth, path⟩ := child
    obtain ⟨ids, discovered⟩ := found'
    dsimp only at hnode hdepth hpath hid hcount hfull
    subst hdepth hpath hcount
    rw [parseChild, if_neg (by omega), located_ok_iff.2 hnode, located_ok_iff.2 hid]
    rfl

theorem parse_children_iff {slots : List (String × RawObject)} {found found' : Discovery σ}
    {children : List PendingGraphNode} (hfull : found.discovered ≤ maxGraphNodes) :
    parseChildren nextId entry slots found = .ok (children, found') ↔
      List.Forall₂ (ReadsChild entry) slots children ∧
        Supplied nextId found.ids (children.map (·.id)) found'.ids ∧
        found'.discovered = found.discovered + children.length ∧
        found'.discovered ≤ maxGraphNodes := by
  -- The ids come from the source in the order of the slots.
  induction slots generalizing found children with
  | nil =>
      constructor
      · intro h
        cases h
        exact ⟨.nil, rfl, rfl, hfull⟩
      · rintro ⟨hread, hids, hcount, -⟩
        cases hread
        obtain ⟨ids, discovered⟩ := found'
        dsimp only at hcount
        cases hids
        subst hcount
        rfl
  | cons slot slots ih =>
      constructor
      · intro h
        obtain ⟨⟨child, next⟩, hchild, h⟩ := except_bind_ok h
        obtain ⟨⟨others, last⟩, hothers, h⟩ := except_bind_ok h
        cases h
        obtain ⟨hread, hid, hnext, hfull⟩ := parse_child_iff.1 hchild
        obtain ⟨hreads, hids, hcount, hmost⟩ := (ih hfull).1 hothers
        refine ⟨.cons hread hreads, ⟨_, hid, hids⟩, ?_, hmost⟩
        rw [hcount, hnext, List.length_cons]
        omega
      · rintro ⟨hread, hids, hcount, hmost⟩
        cases hread with
        | @cons _ child _ others hread hreads =>
            obtain ⟨next, hid, hids⟩ := hids
            rw [List.length_cons] at hcount
            have hroom : found.discovered + 1 ≤ maxGraphNodes := by omega
            have hchild : parseChild nextId entry slot found =
                .ok (child, ⟨next, found.discovered + 1⟩) :=
              parse_child_iff.2 ⟨hread, hid, rfl, hroom⟩
            have hrest : found'.discovered = found.discovered + 1 + others.length := by omega
            have hothers : parseChildren nextId entry slots ⟨next, found.discovered + 1⟩ =
                .ok (others, found') :=
              (ih hroom).2 ⟨hreads, hids, hrest, hmost⟩
            rw [parseChildren, hchild]
            show (parseChildren nextId entry slots ⟨next, found.discovered + 1⟩).bind _ = _
            rw [hothers]
            rfl

/-- The children of a node by its fields, and the row that names them. -/
structure Level (entry : PendingGraphNode) (row : MaterializedNode)
    (left right condition extra : List PendingGraphNode) : Prop where
  check : checkNode entry = .ok ()
  reads_left : List.Forall₂ (ReadsChild entry) (leftSlots entry.node) left
  reads_right : List.Forall₂ (ReadsChild entry) (rightSlots entry.node) right
  reads_condition : List.Forall₂ (ReadsChild entry) (conditionSlots entry.node) condition
  reads_extra : List.Forall₂ (ReadsChild entry) (extraSlots entry.node) extra
  query : materializedQuery entry.node (condition.head?.map (·.id)) (extra.map (·.id)) =
    .ok row.query
  id : row.id = entry.id
  node_type : row.nodeType = entry.node.nodeType
  result_name : row.resultName = entry.node.resultName
  left_node : row.leftNode = left.head?.map (·.id)
  right_node : row.rightNode = right.head?.map (·.id)

/-- The children of a node, and the row that names them. -/
def Materializes (entry : PendingGraphNode) (row : MaterializedNode)
    (children : List PendingGraphNode) : Prop :=
  ∃ left right condition extra, Level entry row left right condition extra ∧
    children = left ++ right ++ condition ++ extra

theorem materialize_iff {found found' : Discovery σ} {row : MaterializedNode}
    {children : List PendingGraphNode} (hfull : found.discovered ≤ maxGraphNodes) :
    materialize nextId entry found = .ok (row, children, found') ↔
      Materializes entry row children ∧
        Supplied nextId found.ids (children.map (·.id)) found'.ids ∧
        found'.discovered = found.discovered + children.length ∧
        found'.discovered ≤ maxGraphNodes := by
  constructor
  · intro h
    obtain ⟨⟨⟩, hcheck, h⟩ := except_bind_ok h
    obtain ⟨⟨left, found₁⟩, hleft, h⟩ := except_bind_ok h
    obtain ⟨⟨right, found₂⟩, hright, h⟩ := except_bind_ok h
    obtain ⟨⟨condition, found₃⟩, hcondition, h⟩ := except_bind_ok h
    obtain ⟨⟨extra, found₄⟩, hextra, h⟩ := except_bind_ok h
    obtain ⟨query, hquery, h⟩ := except_bind_ok h
    cases h
    obtain ⟨hleft, hids₁, hcount₁, hfull⟩ := (parse_children_iff hfull).1 hleft
    obtain ⟨hright, hids₂, hcount₂, hfull⟩ := (parse_children_iff hfull).1 hright
    obtain ⟨hcondition, hids₃, hcount₃, hfull⟩ := (parse_children_iff hfull).1 hcondition
    obtain ⟨hextra, hids₄, hcount₄, hfull⟩ := (parse_children_iff hfull).1 hextra
    refine ⟨⟨left, right, condition, extra, ⟨hcheck, hleft, hright, hcondition, hextra,
      located_ok_iff.1 hquery, rfl, rfl, rfl, rfl, rfl⟩, rfl⟩, ?_, ?_, hfull⟩
    · simp only [List.map_append]
      exact (supplied_append _ _).2 ⟨_, (supplied_append _ _).2 ⟨_, (supplied_append _ _).2
        ⟨_, hids₁, hids₂⟩, hids₃⟩, hids₄⟩
    · simp only [List.length_append]
      omega
  · rintro ⟨⟨left, right, condition, extra, hlevel, rfl⟩, hids, hcount, hmost⟩
    simp only [List.map_append, supplied_append, List.length_append] at hids hcount
    obtain ⟨ids₃, ⟨ids₂, ⟨ids₁, hids₁, hids₂⟩, hids₃⟩, hids₄⟩ := hids
    -- The source goes on where the slots before have left it.
    have hleft : parseChildren nextId entry (leftSlots entry.node) found =
        .ok (left, ⟨ids₁, found.discovered + left.length⟩) :=
      (parse_children_iff hfull).2 ⟨hlevel.reads_left, hids₁, rfl, by dsimp only; omega⟩
    have hright : parseChildren nextId entry (rightSlots entry.node)
        ⟨ids₁, found.discovered + left.length⟩ =
        .ok (right, ⟨ids₂, found.discovered + left.length + right.length⟩) :=
      (parse_children_iff (by dsimp only; omega)).2
        ⟨hlevel.reads_right, hids₂, rfl, by dsimp only; omega⟩
    have hcondition : parseChildren nextId entry (conditionSlots entry.node)
        ⟨ids₂, found.discovered + left.length + right.length⟩ =
        .ok (condition, ⟨ids₃, found.discovered + left.length + right.length +
          condition.length⟩) :=
      (parse_children_iff (by dsimp only; omega)).2
        ⟨hlevel.reads_condition, hids₃, rfl, by dsimp only; omega⟩
    have hextra : parseChildren nextId entry (extraSlots entry.node)
        ⟨ids₃, found.discovered + left.length + right.length + condition.length⟩ =
        .ok (extra, found') :=
      (parse_children_iff (by dsimp only; omega)).2
        ⟨hlevel.reads_extra, hids₄, by dsimp only; omega, hmost⟩
    obtain ⟨id, nodeType, query, resultName, leftNode, rightNode⟩ := row
    have hid : id = entry.id := hlevel.id
    have htype : nodeType = entry.node.nodeType := hlevel.node_type
    have hresult : resultName = entry.node.resultName := hlevel.result_name
    have hleftNode : leftNode = left.head?.map (·.id) := hlevel.left_node
    have hrightNode : rightNode = right.head?.map (·.id) := hlevel.right_node
    have hquery : located entry.path (materializedQuery entry.node (condition.head?.map (·.id))
        (extra.map (·.id))) = .ok query := located_ok_iff.2 hlevel.query
    rw [materialize, hlevel.check]
    simp only [bind, Except.bind, hleft, hright, hcondition, hextra, hquery]
    rw [hid, htype, hresult, hleftNode, hrightNode]
    rfl

/-! ## Documents -/

/-- A node of a document with its row. -/
structure Placed where
  entry : PendingGraphNode
  row : MaterializedNode

/-- The nodes of a document with the children that their texts describe, and their rows. -/
def Document (forest : Forest Placed) : Prop :=
  forest.Grown fun placed children =>
    Materializes placed.entry placed.row (children.map (·.entry))

theorem loop_returns (fuel : Nat) (pending : List PendingGraphNode) (found : Discovery σ)
    (h : found.discovered ≤ maxGraphNodes)
    (hfuel : maxGraphNodes + pending.length ≤ fuel + found.discovered) :
    ∃ result, flattenLoop nextId fuel pending found = some result := by
  induction fuel generalizing pending found with
  | zero =>
      cases pending with
      | nil => exact ⟨_, rfl⟩
      | cons entry pending =>
          rw [List.length_cons] at hfuel
          omega
  | succ fuel ih =>
      cases pending with
      | nil => exact ⟨_, rfl⟩
      | cons entry pending =>
          rw [flattenLoop]
          cases hround : materialize nextId entry found with
          | error error => exact ⟨_, rfl⟩
          | ok result =>
              obtain ⟨row, children, next⟩ := result
              obtain ⟨-, -, hcount, hfull⟩ := (materialize_iff h).1 hround
              have hless : maxGraphNodes + (children ++ pending).length ≤
                  fuel + next.discovered := by
                rw [List.length_append]
                rw [List.length_cons] at hfuel
                omega
              obtain ⟨result, hresult⟩ := ih (children ++ pending) next hfull hless
              exact ⟨_, congrArg (Option.map (Except.map (row :: ·))) hresult⟩

theorem loop_sound {fuel : Nat} {pending : List PendingGraphNode} {found : Discovery σ}
    {rows : List MaterializedNode} (hfull : found.discovered ≤ maxGraphNodes)
    (h : flattenLoop nextId fuel pending found = some (.ok rows)) :
    ∃ forest : Forest Placed, forest.roots.map (·.entry) = pending ∧ Document forest ∧
      forest.preorder.map (·.row) = rows ∧
      (∃ ids, Supplied nextId found.ids (forest.children.map (·.entry.id)) ids) ∧
      found.discovered + forest.children.length ≤ maxGraphNodes := by
  induction fuel generalizing pending found rows with
  | zero =>
      cases pending with
      | nil =>
          cases h
          exact ⟨.nil, rfl, trivial, rfl, ⟨_, rfl⟩, hfull⟩
      | cons entry pending => cases h
  | succ fuel ih =>
      cases pending with
      | nil =>
          cases h
          exact ⟨.nil, rfl, trivial, rfl, ⟨_, rfl⟩, hfull⟩
      | cons entry pending =>
          rw [flattenLoop] at h
          cases hround : materialize nextId entry found with
          | error error =>
              rw [hround] at h
              cases h
          | ok result =>
              obtain ⟨row, children, next⟩ := result
              rw [hround] at h
              obtain ⟨⟨error⟩ | ⟨others⟩, hrest, h⟩ := Option.map_eq_some_iff.1 h
              · cases h
              cases h
              obtain ⟨hchildren, hids, hcount, hnext⟩ := (materialize_iff hfull).1 hround
              obtain ⟨forest, hroots, hdocument, rfl, ⟨last, hlast⟩, hmost⟩ := ih hnext hrest
              -- The children went before what was pending, so their trees are the first of the rest.
              obtain ⟨first, others, hforest, hfirst, hothers⟩ := List.map_eq_append_iff.1 hroots
              obtain ⟨below, rest, rfl, rfl, rfl⟩ := Forest.split_roots hforest
              have hgrown := (Forest.grown_append below rest).1 hdocument
              refine ⟨.cons ⟨entry, row⟩ below rest, ?_, ⟨?_, hgrown⟩, ?_, ⟨last, ?_⟩, ?_⟩
              · rw [Forest.roots, List.map_cons, hothers]
              · show Materializes entry row (below.roots.map (·.entry))
                rw [hfirst]
                exact hchildren
              · rw [Forest.preorder, List.map_cons, Forest.preorder_append]
              · rw [Forest.children, List.append_assoc, List.map_append, supplied_append]
                refine ⟨next.ids, ?_, ?_⟩
                · rw [← hfirst, List.map_map] at hids
                  exact hids
                · rw [Forest.children_append] at hlast
                  exact hlast
              · rw [← hfirst, List.length_map] at hcount
                rw [Forest.children_append, List.length_append] at hmost
                rw [Forest.children, List.length_append, List.length_append]
                omega

theorem loop_complete {fuel : Nat} {found : Discovery σ} {forest : Forest Placed} {ids : σ}
    (hdocument : Document forest)
    (hids : Supplied nextId found.ids (forest.children.map (·.entry.id)) ids)
    (hmost : found.discovered + forest.children.length ≤ maxGraphNodes)
    (hfuel : forest.preorder.length ≤ fuel) :
    flattenLoop nextId fuel (forest.roots.map (·.entry)) found =
      some (.ok (forest.preorder.map (·.row))) := by
  induction fuel generalizing forest found with
  | zero =>
      cases forest with
      | nil => rfl
      | cons placed below rest => exact absurd hfuel (Nat.not_succ_le_zero _)
  | succ fuel ih =>
      cases forest with
      | nil => rfl
      | cons placed below rest =>
          obtain ⟨hchildren, hgrown⟩ := hdocument
          rw [Forest.children, List.append_assoc, List.map_append, supplied_append] at hids
          obtain ⟨next, hfirst, hids⟩ := hids
          rw [Forest.children, List.length_append, List.length_append] at hmost
          rw [Forest.preorder, List.length_cons, List.length_append] at hfuel
          -- The ids of the children are the first that are supplied.
          have hround : materialize nextId placed.entry found =
              .ok (placed.row, below.roots.map (·.entry),
                ⟨next, found.discovered + below.roots.length⟩) := by
            refine (materialize_iff (by omega)).2 ⟨hchildren, ?_, ?_, by dsimp only; omega⟩
            · rw [List.map_map]
              exact hfirst
            · rw [List.length_map]
          have hrest : flattenLoop nextId fuel ((below.append rest).roots.map (·.entry))
              ⟨next, found.discovered + below.roots.length⟩ =
                some (.ok ((below.append rest).preorder.map (·.row))) := by
            refine ih ((Forest.grown_append below rest).2 hgrown) ?_ ?_ ?_
            · rw [Forest.children_append]
              exact hids
            · rw [Forest.children_append, List.length_append]
              dsimp only
              omega
            · rw [Forest.preorder_append, List.length_append]
              omega
          rw [Forest.roots_append, List.map_append, Forest.preorder_append] at hrest
          rw [Forest.roots, List.map_cons, flattenLoop, hround]
          show (flattenLoop nextId fuel _ _).map _ = _
          rw [hrest]
          rfl

/-- A document is flattened exactly if it is a finite tree of valid nodes within the limits for
which the source supplies ids: one for the root, then those of the children of each node in
preorder. The rows are those of the tree in preorder. -/
theorem flatten_graph_iff (nextId : IdSource σ) (root : Durofut) (ids : σ) (rootId : String)
    (rows : List MaterializedNode) :
    flattenGraph nextId root ids = some (.ok (rootId, rows)) ↔
      ∃ (placed : Placed) (below : Forest Placed),
        placed.entry = ⟨root, rootId, 0, "root"⟩ ∧ Document (.cons placed below .nil) ∧
        (∃ last, Supplied nextId ids (rootId :: (below.roots ++ below.children).map (·.entry.id))
          last) ∧
        below.preorder.length < maxGraphNodes ∧
        rows = placed.row :: below.preorder.map (·.row) := by
  have hone : (1 : Nat) ≤ maxGraphNodes := by decide
  constructor
  · intro h
    unfold flattenGraph at h
    split at h
    · cases h
    · next id next hid =>
        obtain ⟨⟨error⟩ | ⟨others⟩, hloop, h⟩ := Option.map_eq_some_iff.1 h
        · cases h
        cases h
        obtain ⟨forest, hroots, hdocument, rfl, ⟨last, hlast⟩, hmost⟩ := loop_sound hone hloop
        cases forest with
        | nil => cases hroots
        | cons placed below rest =>
            obtain ⟨hplaced, hrest⟩ := List.cons.inj hroots
            cases rest with
            | cons other inner rest => cases hrest
            | nil =>
                rw [Forest.children, Forest.children, List.append_nil] at hlast hmost
                refine ⟨placed, below, hplaced, hdocument, ⟨last, next, located_ok_iff.1 hid,
                  hlast⟩, ?_, ?_⟩
                · rw [Forest.preorder_length]
                  rw [List.length_append] at hmost
                  dsimp only at hmost
                  omega
                · rw [Forest.preorder, Forest.preorder, List.append_nil, List.map_cons]
  · rintro ⟨placed, below, hplaced, hdocument, ⟨last, next, hid, hlast⟩, hmost, rfl⟩
    -- Every round takes a node, so the limit of nodes is enough fuel.
    have hloop := @loop_complete _ nextId maxGraphNodes ⟨next, 1⟩ _ last hdocument
    rw [Forest.children, Forest.children, List.append_nil, Forest.preorder, Forest.preorder,
      List.append_nil, Forest.roots, Forest.roots, List.map_cons, List.map_nil, List.map_cons,
      hplaced, List.length_append, List.length_cons, ← Forest.preorder_length] at hloop
    have hrun := hloop hlast (by dsimp only; omega) (by omega)
    rw [flattenGraph, located_ok_iff.2 hid]
    show (flattenLoop nextId maxGraphNodes _ _).map _ = _
    rw [hrun]
    rfl

/-- Flattening always ends. -/
theorem flatten_graph_returns (nextId : IdSource σ) (root : Durofut) (ids : σ) :
    ∃ result, flattenGraph nextId root ids = some result := by
  unfold flattenGraph
  split
  · exact ⟨_, rfl⟩
  · next id next hid =>
      obtain ⟨result, hresult⟩ := @loop_returns _ nextId maxGraphNodes
        [⟨root, id, 0, "root"⟩] ⟨next, 1⟩ (show (1 : Nat) ≤ maxGraphNodes by decide) le_rfl
      exact ⟨_, congrArg (Option.map (Except.map fun rows => (id, rows))) hresult⟩

end Walk

end PgDurable.Dsl
