import PgDurable.Explain.Display
import PgDurable.Library.Unfolding

/-!
# The tree of a graph

`buildTreeRecursive` draws a graph from a node down. It keeps no set of the nodes it has drawn, so
it follows every path. `build_returns_iff` says when it returns: no cycle is reachable and the line
of every reachable node is written. What it then draws are the visits of the graph
(`build_draws`), a sequence of `THEN` nodes as one list.
-/

namespace PgDurable.Explain

open Json Text NodeStatus Outcome Relation Unfolding

/-- The nodes of an instance by id. -/
abbrev ExplainMap := Std.ExtTreeMap String ExplainNode

/-- A line of the output with the node that it is for; a label is for none. -/
structure Line where
  node : Option String
  text : String

def statusMarker (showStatus : Bool) (node : ExplainNode) : String :=
  if showStatus then
    match node.status with
    | some "completed" => " ✓"
    | some "failed" => " ✗"
    | some "running" => " ⏳"
    | some "pending" => " ○"
    | some "skipped" => " ⊘"
    | _ => ""
  else ""

/-! ## Children -/

/-- A child of a node with the label above it. -/
structure Child where
  label : String
  id : String
  isLast : Bool

/-- The children that are drawn below a node. -/
def children (node : ExplainNode) : List Child :=
  match node.nodeType with
  | "LOOP" =>
      node.leftNode.toList.map (⟨"↻ body:", ·, true⟩) ++
        (loopConfigOf node).conditionNode.toList.map (⟨"? while:", ·, true⟩)
  | "IF" =>
      let condition := (configOf node).bind fun config => (config.index "condition_node").asStr
      condition.toList.map (⟨"? condition:", ·, true⟩) ++
        node.leftNode.toList.map (⟨"✓ then:", ·, true⟩) ++
        node.rightNode.toList.map (⟨"✗ else:", ·, true⟩)
  | "JOIN" => branches (node.leftNode.toList ++ node.rightNode.toList ++ extras)
  | "RACE" => branches (node.leftNode.toList ++ node.rightNode.toList)
  | _ => []
where
  extras : List String :=
    (((configOf node).bind fun config => (config.index "extra_nodes").asArray).getD []).filterMap
      Value.asStr
  branches (ids : List String) : List Child :=
    ids.zipIdx.map fun (id, i) =>
      ⟨"║ branch " ++ toString (i + 1) ++ ":", id, i == ids.length - 1⟩

/-- Render children of a node. -/
def renderChildren (build : String → String → Bool → Outcome (List Line)) (node : ExplainNode)
    (indent : String) : Outcome (List Line) :=
  concat (children node) fun child => do
    let below ← build child.id (indent ++ "  ") child.isLast
    return ⟨none, indent ++ child.label⟩ :: below

/-! ## Sequences -/

/-- Collect all nodes in a `THEN` sequence, flattening nested `THEN`s. -/
def collectSequence (nodes : ExplainMap) : Nat → String → Outcome (List String)
  | 0, _ => .exhausted
  | fuel + 1, id =>
      match nodes[id]? with
      | none => .done []
      | some node =>
          if node.nodeType = "THEN" then
            concat (node.leftNode.toList ++ node.rightNode.toList) (collectSequence nodes fuel)
          else .done [id]

/-- The node types below which a sequence draws nothing. -/
def isLeafType (nodeType : String) : Bool :=
  nodeType == "THEN" || nodeType == "SQL" || nodeType == "SLEEP" || nodeType == "WAIT_SCHEDULE" ||
    nodeType == "HTTP" || nodeType == "HTTP_MULTIPART"

def renderBelow (build : String → String → Bool → Outcome (List Line)) (node : ExplainNode)
    (indent : String) : Outcome (List Line) :=
  if isLeafType node.nodeType then .done [] else renderChildren build node indent

/-- Draw one node of a sequence with what is below it. -/
def renderItem (display : ExplainNode → Outcome String) (nodes : ExplainMap) (showStatus : Bool)
    (build : String → String → Bool → Outcome (List Line)) (indent connector id : String) :
    Outcome (List Line) :=
  match nodes[id]? with
  | none => .done []
  | some node => do
      let shown ← display node
      let below ← renderBelow build node (indent ++ "    ")
      return ⟨some id, indent ++ connector ++ shown ++ statusMarker showStatus node⟩ :: below

/-! ## The drawing -/

def connectorOf (indent : String) (isLast : Bool) : String :=
  if indent = "" then "" else if isLast then "└─" else "├─"

def childIndent (indent : String) (isLast : Bool) : String :=
  if indent = "" then "    " else if isLast then indent ++ "    " else indent ++ "│   "

/-- Recursively build the tree visualization. -/
def buildTreeRecursive (display : ExplainNode → Outcome String) (nodes : ExplainMap)
    (showStatus : Bool) : Nat → String → String → Bool → Outcome (List Line)
  | 0, _, _, _ => .exhausted
  | fuel + 1, id, indent, isLast =>
      let build := buildTreeRecursive display nodes showStatus fuel
      match nodes[id]? with
      | none => .done []
      | some node => do
          let shown ← display node
          if node.nodeType = "THEN" then
            let sequence ← collectSequence nodes fuel id
            concat sequence.zipIdx fun (item, i) =>
              let connector := if i = 0 then connectorOf indent isLast else "→ "
              renderItem display nodes showStatus build indent connector item
          else
            let below ← renderChildren build node (childIndent indent isLast)
            let connector := connectorOf indent isLast
            return ⟨some id, indent ++ connector ++ shown ++ statusMarker showStatus node⟩ :: below

/-! ## References -/

/-- The nodes that drawing a node follows. -/
def references (node : ExplainNode) : List String :=
  if node.nodeType = "THEN" then node.leftNode.toList ++ node.rightNode.toList
  else (children node).map (·.id)

/-- The graph that is drawn. -/
def next (nodes : ExplainMap) (id : String) : List String :=
  (nodes[id]?.map references).getD []

/-- No node below the root is below itself. -/
def NoCycle (nodes : ExplainMap) (root : String) : Prop :=
  ∀ id, ReflTransGen (Refers (next nodes)) root id → ¬ TransGen (Refers (next nodes)) id id

/-- A node that has a line of its own. -/
def isDrawn (nodes : ExplainMap) (id : String) : Bool :=
  nodes[id]?.any fun node => node.nodeType != "THEN"

/-- The nodes that the lines are for. -/
def drawn (lines : List Line) : List String := lines.filterMap (·.node)

variable {nodes : ExplainMap} {id : String} {node : ExplainNode}

theorem next_eq (hnode : nodes[id]? = some node) : next nodes id = references node := by
  rw [next, hnode]
  rfl

theorem next_missing (hnode : nodes[id]? = none) : next nodes id = [] := by
  rw [next, hnode]
  rfl

theorem references_then (hthen : node.nodeType = "THEN") :
    references node = node.leftNode.toList ++ node.rightNode.toList :=
  if_pos hthen

theorem references_other (hthen : node.nodeType ≠ "THEN") :
    references node = (children node).map (·.id) :=
  if_neg hthen

theorem acc_iff_no_cycle_below (nodes : ExplainMap) (root : String) :
    Acc (fun b a => Refers (next nodes) a b) root ↔ NoCycle nodes root := by
  have hkeys : ∀ id, next nodes id ≠ [] → id ∈ nodes.keys := by
    intro id hne
    cases hnode : nodes[id]? with
    | none => exact absurd (next_missing hnode) hne
    | some node =>
        rw [Std.ExtTreeMap.mem_keys, Std.ExtTreeMap.mem_iff_isSome_getElem?, hnode]
        rfl
  exact acc_iff_no_cycle hkeys root

theorem drawn_append (lines lines' : List Line) :
    drawn (lines ++ lines') = drawn lines ++ drawn lines' :=
  List.filterMap_append

/-- A sequence leaves out only what has no children. -/
theorem children_leaf (hleaf : isLeafType node.nodeType = true) : children node = [] := by
  unfold isLeafType at hleaf
  unfold children
  split
  · next htype => rw [htype] at hleaf; exact absurd hleaf (by decide)
  · next htype => rw [htype] at hleaf; exact absurd hleaf (by decide)
  · next htype => rw [htype] at hleaf; exact absurd hleaf (by decide)
  · next htype => rw [htype] at hleaf; exact absurd hleaf (by decide)
  · rfl

theorem render_below_eq (build : String → String → Bool → Outcome (List Line)) (indent : String) :
    renderBelow build node indent = renderChildren build node indent := by
  unfold renderBelow
  split
  · next hleaf =>
      rw [renderChildren, children_leaf hleaf]
      rfl
  · rfl

/-! ## What a sequence collects -/

theorem collect_missing (fuel : Nat) (hnode : nodes[id]? = none) :
    collectSequence nodes (fuel + 1) id = .done [] := by
  rw [collectSequence, hnode]

theorem collect_then (fuel : Nat) (hnode : nodes[id]? = some node)
    (hthen : node.nodeType = "THEN") :
    collectSequence nodes (fuel + 1) id = concat (next nodes id) (collectSequence nodes fuel) := by
  rw [collectSequence, hnode, next_eq hnode, references_then hthen]
  exact if_pos hthen

theorem collect_other (fuel : Nat) (hnode : nodes[id]? = some node)
    (hthen : node.nodeType ≠ "THEN") : collectSequence nodes (fuel + 1) id = .done [id] := by
  rw [collectSequence, hnode]
  exact if_neg hthen

theorem collect_grows (nodes : ExplainMap) (id : String) :
    GrowsWithFuel fun fuel => collectSequence nodes fuel id := by
  intro fuel
  induction fuel generalizing id with
  | zero => exact .inl rfl
  | succ fuel ih =>
      show (collectSequence nodes (fuel + 1) id).Approximates (collectSequence nodes (fuel + 2) id)
      cases hnode : nodes[id]? with
      | none =>
          rw [collect_missing _ hnode, collect_missing _ hnode]
          exact .refl _
      | some node =>
          by_cases hthen : node.nodeType = "THEN"
          · rw [collect_then _ hnode hthen, collect_then _ hnode hthen]
            exact concat_approximates ih
          · rw [collect_other _ hnode hthen, collect_other _ hnode hthen]
            exact .refl _

theorem collect_not_panicked (fuel : Nat) (id : String) :
    collectSequence nodes fuel id ≠ .panicked := by
  induction fuel generalizing id with
  | zero => exact fun h => (by cases h)
  | succ fuel ih =>
      cases hnode : nodes[id]? with
      | none =>
          rw [collect_missing _ hnode]
          exact fun h => (by cases h)
      | some node =>
          by_cases hthen : node.nodeType = "THEN"
          · rw [collect_then _ hnode hthen]
            intro h
            obtain ⟨item, -, hitem⟩ := concat_eq_panicked h
            exact ih item hitem
          · rw [collect_other _ hnode hthen]
            exact fun h => (by cases h)

/-- Where the references end, the sequence is collected. -/
theorem collect_ends (h : Acc (fun b a => Refers (next nodes) a b) id) :
    ∃ fuel sequence, collectSequence nodes fuel id = .done sequence := by
  have hends : ∃ fuel, collectSequence nodes fuel id ≠ .exhausted := by
    induction h with
    | intro id _ ih =>
        cases hnode : nodes[id]? with
        | none => exact ⟨1, by rw [collect_missing _ hnode]; exact fun h => (by cases h)⟩
        | some node =>
            by_cases hthen : node.nodeType = "THEN"
            · obtain ⟨fuel, hfuel⟩ := concat_ends (collect_grows nodes) ih
              exact ⟨fuel + 1, by rw [collect_then _ hnode hthen]; exact hfuel⟩
            · exact ⟨1, by rw [collect_other _ hnode hthen]; exact fun h => (by cases h)⟩
  obtain ⟨fuel, hfuel⟩ := hends
  exact ⟨fuel, returns_of_ends hfuel (collect_not_panicked fuel id)⟩

/-- What a sequence of a node collects has a line of its own and is reachable. -/
theorem collect_reachable {fuel : Nat} {sequence : List String}
    (h : collectSequence nodes fuel id = .done sequence) {item : String} (hitem : item ∈ sequence) :
    ReflTransGen (Refers (next nodes)) id item ∧ isDrawn nodes item = true := by
  induction fuel generalizing id sequence with
  | zero => cases h
  | succ fuel ih =>
      cases hnode : nodes[id]? with
      | none =>
          rw [collect_missing _ hnode] at h
          rw [← Outcome.done.inj h] at hitem
          exact absurd hitem List.not_mem_nil
      | some node =>
          by_cases hthen : node.nodeType = "THEN"
          · rw [collect_then _ hnode hthen] at h
            obtain ⟨child, hchild, part, hcollect, hitem⟩ := mem_concat h hitem
            exact (ih hcollect hitem).imp_left fun hreach => .head hchild hreach
          · rw [collect_other _ hnode hthen] at h
            rw [← Outcome.done.inj h, List.mem_singleton] at hitem
            subst hitem
            refine ⟨.refl, ?_⟩
            rw [isDrawn, hnode]
            exact bne_iff_ne.2 hthen

/-! ## What is drawn below a node -/

/-- The nodes below a node that have a line of their own, in the order of the visits. -/
noncomputable def drawnBelow (nodes : ExplainMap) (id : String) : List String :=
  (visits (next nodes) id).filter (isDrawn nodes)

theorem drawn_below_cons (h : Acc (fun b a => Refers (next nodes) a b) id)
    (hdrawn : isDrawn nodes id = true) :
    drawnBelow nodes id = id :: (next nodes id).flatMap (drawnBelow nodes) := by
  rw [drawnBelow, visits_eq h, List.filter_cons_of_pos hdrawn, List.filter_flatMap]
  rfl

theorem drawn_below_flat (h : Acc (fun b a => Refers (next nodes) a b) id)
    (hdrawn : isDrawn nodes id = false) :
    drawnBelow nodes id = (next nodes id).flatMap (drawnBelow nodes) := by
  have hnot : ¬ isDrawn nodes id = true := by
    rw [hdrawn]
    decide
  rw [drawnBelow, visits_eq h, List.filter_cons_of_neg hnot, List.filter_flatMap]
  rfl

/-- What is drawn below a sequence is what is drawn below the nodes it collects. -/
theorem collect_drawn {fuel : Nat} {sequence : List String}
    (h : collectSequence nodes fuel id = .done sequence)
    (hacc : ∀ item ∈ sequence, Acc (fun b a => Refers (next nodes) a b) item) :
    Acc (fun b a => Refers (next nodes) a b) id ∧
      sequence.flatMap (drawnBelow nodes) = drawnBelow nodes id := by
  induction fuel generalizing id sequence with
  | zero => cases h
  | succ fuel ih =>
      cases hnode : nodes[id]? with
      | none =>
          rw [collect_missing _ hnode] at h
          have hnext := next_missing hnode
          have hid : Acc (fun b a => Refers (next nodes) a b) id := by
            refine .intro id fun child hchild => ?_
            rw [Refers, hnext] at hchild
            exact absurd hchild List.not_mem_nil
          refine ⟨hid, ?_⟩
          rw [← Outcome.done.inj h, drawn_below_flat hid (by rw [isDrawn, hnode]; rfl), hnext]
      | some node =>
          by_cases hthen : node.nodeType = "THEN"
          · rw [collect_then _ hnode hthen] at h
            have hall := concat_induction (P := fun items sequence =>
                (∀ item ∈ sequence, Acc (fun b a => Refers (next nodes) a b) item) →
                  (∀ item ∈ items, Acc (fun b a => Refers (next nodes) a b) item) ∧
                  sequence.flatMap (drawnBelow nodes) = items.flatMap (drawnBelow nodes))
              (fun _ => ⟨fun _ hnone => absurd hnone List.not_mem_nil, rfl⟩)
              (fun item part items others hitem hothers hacc => by
                rw [List.forall_mem_append] at hacc
                obtain ⟨hfirst, hpart⟩ := ih hitem hacc.1
                obtain ⟨hrest, hparts⟩ := hothers hacc.2
                refine ⟨List.forall_mem_cons.2 ⟨hfirst, hrest⟩, ?_⟩
                rw [List.flatMap_append, hpart, hparts, List.flatMap_cons]) h hacc
            have hid : Acc (fun b a => Refers (next nodes) a b) id := .intro id hall.1
            refine ⟨hid, hall.2.trans (drawn_below_flat hid ?_).symm⟩
            rw [isDrawn, hnode]
            exact bne_eq_false_iff_eq.2 hthen
          · rw [collect_other _ hnode hthen] at h
            rw [← Outcome.done.inj h] at hacc ⊢
            exact ⟨hacc id List.mem_cons_self, List.append_nil _⟩

/-- The lines are those of the nodes, and of what is below them. -/
structure Draws (display : ExplainNode → Outcome String) (nodes : ExplainMap) (ids : List String)
    (lines : List Line) : Prop where
  ends : ∀ id ∈ ids, Acc (fun b a => Refers (next nodes) a b) id
  nodes_eq : drawn lines = ids.flatMap (drawnBelow nodes)
  shown : ∀ line ∈ lines, ∀ id ∈ line.node, ∀ node, nodes[id]? = some node →
    ∃ text front back, display node = .done text ∧ line.text = front ++ text ++ back

variable {display : ExplainNode → Outcome String} {ids ids' : List String}
  {lines lines' : List Line}

theorem Draws.nil : Draws display nodes [] [] :=
  ⟨fun _ hnone => absurd hnone List.not_mem_nil, rfl, fun _ hnone => absurd hnone List.not_mem_nil⟩

theorem Draws.append (h : Draws display nodes ids lines) (h' : Draws display nodes ids' lines') :
    Draws display nodes (ids ++ ids') (lines ++ lines') where
  ends := List.forall_mem_append.2 ⟨h.ends, h'.ends⟩
  nodes_eq := by rw [drawn_append, h.nodes_eq, h'.nodes_eq, List.flatMap_append]
  shown := List.forall_mem_append.2 ⟨h.shown, h'.shown⟩

theorem Draws.label (h : Draws display nodes ids lines) (text : String) :
    Draws display nodes ids (⟨none, text⟩ :: lines) :=
  ⟨h.ends, h.nodes_eq, List.forall_mem_cons.2 ⟨fun _ hnone => (by cases hnone), h.shown⟩⟩

/-- A node without a line of its own is drawn by what is below it. -/
theorem Draws.flat (hdrawn : isDrawn nodes id = false)
    (h : Draws display nodes (next nodes id) lines) : Draws display nodes [id] lines := by
  have hacc : Acc (fun b a => Refers (next nodes) a b) id := .intro id h.ends
  refine ⟨List.forall_mem_singleton.2 hacc, ?_, h.shown⟩
  rw [h.nodes_eq, List.flatMap_singleton, drawn_below_flat hacc hdrawn]

/-- A node with a line of its own is drawn by the line and what is below it. -/
theorem Draws.cons (hnode : nodes[id]? = some node) (hthen : node.nodeType ≠ "THEN")
    {text : String} (hshown : display node = .done text)
    (h : Draws display nodes (next nodes id) lines) (front back : String) :
    Draws display nodes [id] (⟨some id, front ++ text ++ back⟩ :: lines) := by
  have hacc : Acc (fun b a => Refers (next nodes) a b) id := .intro id h.ends
  have hdrawn : isDrawn nodes id = true := by
    rw [isDrawn, hnode]
    exact bne_iff_ne.2 hthen
  refine ⟨List.forall_mem_singleton.2 hacc, ?_, ?_⟩
  · rw [List.flatMap_singleton, drawn_below_cons hacc hdrawn, ← h.nodes_eq]
    rfl
  · refine List.forall_mem_cons.2 ⟨fun id' hid node' hnode' => ?_, h.shown⟩
    rw [← Option.some.inj hid, hnode] at hnode'
    rw [← Option.some.inj hnode']
    exact ⟨text, front, back, hshown, rfl⟩

/-- A reachable node with a line of its own has a line that shows it. -/
theorem Draws.line_of {root : String} (h : Draws display nodes [root] lines)
    (hreach : ReflTransGen (Refers (next nodes)) root id) (hnode : nodes[id]? = some node)
    (hthen : node.nodeType ≠ "THEN") :
    ∃ text front back, ∃ line ∈ lines, display node = .done text ∧
      line.text = front ++ text ++ back := by
  have hid : id ∈ drawn lines := by
    rw [h.nodes_eq, List.flatMap_singleton, drawnBelow, List.mem_filter,
      mem_visits_iff (h.ends root List.mem_cons_self)]
    refine ⟨hreach, ?_⟩
    rw [isDrawn, hnode]
    exact bne_iff_ne.2 hthen
  obtain ⟨line, hline, hid⟩ := List.mem_filterMap.1 hid
  obtain ⟨text, front, back, hshown⟩ := h.shown line hline id hid node hnode
  exact ⟨text, front, back, line, hline, hshown⟩

/-! ## How drawing a node ends -/

/-- Draw a node that has a line of its own: the line, after its lead and before its marker, and
what is below it. -/
def drawNode (display : ExplainNode → Outcome String)
    (build : String → String → Bool → Outcome (List Line)) (id : String) (node : ExplainNode)
    (indent lead marker : String) : Outcome (List Line) :=
  (display node).bind fun shown => (renderChildren build node indent).bind fun below =>
    .done (⟨some id, lead ++ shown ++ marker⟩ :: below)

variable {showStatus : Bool} {build build' : String → String → Bool → Outcome (List Line)}

theorem render_item_missing (indent connector : String) (hnode : nodes[id]? = none) :
    renderItem display nodes showStatus build indent connector id = .done [] := by
  rw [renderItem, hnode]

theorem render_item_eq (indent connector : String) (hnode : nodes[id]? = some node) :
    renderItem display nodes showStatus build indent connector id =
      drawNode display build id node (indent ++ "    ") (indent ++ connector)
        (statusMarker showStatus node) := by
  simp only [renderItem, hnode, render_below_eq]
  rfl

/-- Draw the nodes of a sequence. -/
def renderSequence (display : ExplainNode → Outcome String) (nodes : ExplainMap)
    (showStatus : Bool) (build : String → String → Bool → Outcome (List Line)) (indent : String)
    (isLast : Bool) (sequence : List String) : Outcome (List Line) :=
  concat sequence.zipIdx fun item =>
    renderItem display nodes showStatus build indent
      (if item.2 = 0 then connectorOf indent isLast else "→ ") item.1

section Step

variable (fuel : Nat) (indent : String) (isLast : Bool)

theorem build_missing (hnode : nodes[id]? = none) :
    buildTreeRecursive display nodes showStatus (fuel + 1) id indent isLast = .done [] := by
  rw [buildTreeRecursive, hnode]

theorem build_then (hnode : nodes[id]? = some node) (hthen : node.nodeType = "THEN") :
    buildTreeRecursive display nodes showStatus (fuel + 1) id indent isLast =
      (display node).bind fun _ => (collectSequence nodes fuel id).bind
        (renderSequence display nodes showStatus (buildTreeRecursive display nodes showStatus fuel)
          indent isLast) := by
  simp only [buildTreeRecursive, hnode, if_pos hthen]
  rfl

theorem build_other (hnode : nodes[id]? = some node) (hthen : node.nodeType ≠ "THEN") :
    buildTreeRecursive display nodes showStatus (fuel + 1) id indent isLast =
      drawNode display (buildTreeRecursive display nodes showStatus fuel) id node
        (childIndent indent isLast) (indent ++ connectorOf indent isLast)
        (statusMarker showStatus node) := by
  simp only [buildTreeRecursive, hnode, if_neg hthen]
  rfl

end Step

/-! ### More fuel -/

theorem render_children_approximates (indent : String)
    (h : ∀ id indent isLast, (build id indent isLast).Approximates (build' id indent isLast)) :
    (renderChildren build node indent).Approximates (renderChildren build' node indent) :=
  concat_approximates fun _ => (h _ _ _).bind fun _ => .refl _

theorem draw_node_approximates (indent lead marker : String)
    (h : ∀ id indent isLast, (build id indent isLast).Approximates (build' id indent isLast)) :
    (drawNode display build id node indent lead marker).Approximates
      (drawNode display build' id node indent lead marker) :=
  (Approximates.refl _).bind fun _ => (render_children_approximates indent h).bind fun _ => .refl _

theorem render_item_approximates (indent connector : String)
    (h : ∀ id indent isLast, (build id indent isLast).Approximates (build' id indent isLast)) :
    (renderItem display nodes showStatus build indent connector id).Approximates
      (renderItem display nodes showStatus build' indent connector id) := by
  cases hnode : nodes[id]? with
  | none =>
      rw [render_item_missing _ _ hnode, render_item_missing _ _ hnode]
      exact .refl _
  | some node =>
      rw [render_item_eq _ _ hnode, render_item_eq _ _ hnode]
      exact draw_node_approximates _ _ _ h

theorem render_sequence_approximates (showStatus : Bool) (sequence : List String)
    (indent : String) (isLast : Bool)
    (h : ∀ id indent isLast, (build id indent isLast).Approximates (build' id indent isLast)) :
    (renderSequence display nodes showStatus build indent isLast sequence).Approximates
      (renderSequence display nodes showStatus build' indent isLast sequence) :=
  concat_approximates fun _ => render_item_approximates _ _ h

theorem build_grows (display : ExplainNode → Outcome String) (nodes : ExplainMap)
    (showStatus : Bool) (id indent : String) (isLast : Bool) :
    GrowsWithFuel fun fuel => buildTreeRecursive display nodes showStatus fuel id indent isLast := by
  intro fuel
  induction fuel generalizing id indent isLast with
  | zero => exact .inl rfl
  | succ fuel ih =>
      show (buildTreeRecursive display nodes showStatus (fuel + 1) id indent isLast).Approximates
        (buildTreeRecursive display nodes showStatus (fuel + 2) id indent isLast)
      cases hnode : nodes[id]? with
      | none =>
          rw [build_missing _ _ _ hnode, build_missing _ _ _ hnode]
          exact .refl _
      | some node =>
          by_cases hthen : node.nodeType = "THEN"
          · rw [build_then _ _ _ hnode hthen, build_then _ _ _ hnode hthen]
            exact (Approximates.refl _).bind fun _ => (collect_grows nodes id fuel).bind fun _ =>
              render_sequence_approximates _ _ _ _ ih
          · rw [build_other _ _ _ hnode hthen, build_other _ _ _ hnode hthen]
            exact draw_node_approximates _ _ _ ih

/-! ### What is drawn -/

theorem render_children_draws {indent : String}
    (hbuild : ∀ id indent isLast lines, build id indent isLast = .done lines →
      Draws display nodes [id] lines)
    (h : renderChildren build node indent = .done lines) :
    Draws display nodes ((children node).map (·.id)) lines := by
  refine concat_induction (P := fun items lines =>
    Draws display nodes (items.map (·.id)) lines) .nil ?_ h
  intro child part items others hchild hothers
  obtain ⟨below, hbelow, hpart⟩ := bind_eq_done hchild
  rw [← Outcome.done.inj hpart]
  exact ((hbuild _ _ _ _ hbelow).label _).append hothers

theorem draw_node_draws {indent lead marker : String}
    (hbuild : ∀ id indent isLast lines, build id indent isLast = .done lines →
      Draws display nodes [id] lines)
    (hnode : nodes[id]? = some node) (hthen : node.nodeType ≠ "THEN")
    (h : drawNode display build id node indent lead marker = .done lines) :
    Draws display nodes [id] lines := by
  obtain ⟨shown, hshown, h⟩ := bind_eq_done h
  obtain ⟨below, hbelow, h⟩ := bind_eq_done h
  rw [← Outcome.done.inj h]
  refine .cons hnode hthen hshown ?_ lead marker
  rw [next_eq hnode, references_other hthen]
  exact render_children_draws hbuild hbelow

/-- What a sequence draws is drawn below its node. -/
theorem sequence_draws {fuel : Nat} {indent : String} {isLast : Bool} {sequence : List String}
    (hbuild : ∀ id indent isLast lines, build id indent isLast = .done lines →
      Draws display nodes [id] lines)
    (hcollect : collectSequence nodes fuel id = .done sequence)
    (h : renderSequence display nodes showStatus build indent isLast sequence = .done lines) :
    Draws display nodes [id] lines := by
  have hdrawn : ∀ item ∈ sequence, isDrawn nodes item = true :=
    fun _ hitem => (collect_reachable hcollect hitem).2
  have hsequence : Draws display nodes (sequence.zipIdx.map (·.1)) lines := by
    refine concat_induction (P := fun items lines => (∀ item ∈ items, isDrawn nodes item.1 = true) →
      Draws display nodes (items.map (·.1)) lines) (fun _ => .nil) ?_ h ?_
    · intro item part items others hitem hothers hall
      rw [List.forall_mem_cons] at hall
      suffices hfirst : Draws display nodes [item.1] part from hfirst.append (hothers hall.2)
      cases hnode : nodes[item.1]? with
      | none =>
          have hmissing := hall.1
          rw [isDrawn, hnode] at hmissing
          cases hmissing
      | some node =>
          have hthen := hall.1
          rw [isDrawn, hnode] at hthen
          rw [render_item_eq _ _ hnode] at hitem
          exact draw_node_draws hbuild hnode (bne_iff_ne.1 hthen) hitem
    · intro item hitem
      exact hdrawn item.1 (List.fst_mem_of_mem_zipIdx hitem)
  rw [List.zipIdx_map_fst 0] at hsequence
  obtain ⟨hacc, hbelow⟩ := collect_drawn hcollect hsequence.ends
  refine ⟨List.forall_mem_singleton.2 hacc, ?_, hsequence.shown⟩
  rw [hsequence.nodes_eq, hbelow, List.flatMap_singleton]

/-- What is drawn from a node down are the visits of the graph that have a line of their own. -/
theorem build_draws {fuel : Nat} {indent : String} {isLast : Bool}
    (h : buildTreeRecursive display nodes showStatus fuel id indent isLast = .done lines) :
    Draws display nodes [id] lines := by
  induction fuel generalizing id indent isLast lines with
  | zero => cases h
  | succ fuel ih =>
      have hbuild : ∀ id indent isLast lines,
          buildTreeRecursive display nodes showStatus fuel id indent isLast = .done lines →
            Draws display nodes [id] lines := fun _ _ _ _ h => ih h
      cases hnode : nodes[id]? with
      | none =>
          rw [build_missing _ _ _ hnode] at h
          rw [← Outcome.done.inj h]
          refine .flat (by rw [isDrawn, hnode]; rfl) ?_
          rw [next_missing hnode]
          exact .nil
      | some node =>
          by_cases hthen : node.nodeType = "THEN"
          · rw [build_then _ _ _ hnode hthen] at h
            obtain ⟨_, -, h⟩ := bind_eq_done h
            obtain ⟨sequence, hcollect, h⟩ := bind_eq_done h
            exact sequence_draws hbuild hcollect h
          · rw [build_other _ _ _ hnode hthen] at h
            exact draw_node_draws hbuild hnode hthen h

/-! ### Panics -/

/-- Drawing a node panics only if its line or drawing a child does. -/
theorem draw_node_panicked {indent lead marker : String}
    (h : drawNode display build id node indent lead marker = .panicked) :
    display node = .panicked ∨
      ∃ child ∈ children node, build child.id (indent ++ "  ") child.isLast = .panicked := by
  rcases bind_eq_panicked h with hdisplay | ⟨_, -, h⟩
  · exact .inl hdisplay
  rcases bind_eq_panicked h with hbelow | ⟨_, -, h⟩
  · obtain ⟨child, hchild, h⟩ := concat_eq_panicked hbelow
    rcases bind_eq_panicked h with h | ⟨_, -, h⟩
    · exact .inr ⟨child, hchild, h⟩
    · cases h
  · cases h

/-- A child of a node is a node it refers to. -/
theorem refers_child (hnode : nodes[id]? = some node) (hthen : node.nodeType ≠ "THEN")
    {child : Child} (hchild : child ∈ children node) : Refers (next nodes) id child.id := by
  rw [Refers, next_eq hnode, references_other hthen]
  exact List.mem_map_of_mem hchild

/-- Drawing panics only if the line of a reachable node does. -/
theorem build_not_panicked (fuel : Nat) (indent : String) (isLast : Bool)
    (h : ∀ a, ReflTransGen (Refers (next nodes)) id a → ∀ node, nodes[a]? = some node →
      display node ≠ .panicked) :
    buildTreeRecursive display nodes showStatus fuel id indent isLast ≠ .panicked := by
  induction fuel generalizing id indent isLast with
  | zero => exact fun h => (by cases h)
  | succ fuel ih =>
      -- Neither the line of a reachable node nor a child of one panics.
      have hdraw : ∀ a node indent lead marker, ReflTransGen (Refers (next nodes)) id a →
          nodes[a]? = some node → node.nodeType ≠ "THEN" →
          drawNode display (buildTreeRecursive display nodes showStatus fuel) a node indent lead
            marker ≠ .panicked := by
        intro a node indent lead marker hreach hnode hthen hpanicked
        rcases draw_node_panicked hpanicked with hline | ⟨child, hchild, hbelow⟩
        · exact h a hreach node hnode hline
        · exact ih _ _ (fun b hb => h b ((hreach.tail (refers_child hnode hthen hchild)).trans hb))
            hbelow
      cases hnode : nodes[id]? with
      | none =>
          rw [build_missing _ _ _ hnode]
          exact fun h => (by cases h)
      | some node =>
          by_cases hthen : node.nodeType = "THEN"
          · rw [build_then _ _ _ hnode hthen]
            intro hpanicked
            rcases bind_eq_panicked hpanicked with hline | ⟨_, -, hpanicked⟩
            · exact h id .refl node hnode hline
            rcases bind_eq_panicked hpanicked with hcollect | ⟨sequence, hcollect, hpanicked⟩
            · exact collect_not_panicked fuel id hcollect
            obtain ⟨item, hitem, hpanicked⟩ := concat_eq_panicked hpanicked
            obtain ⟨hreach, hdrawn⟩ :=
              collect_reachable hcollect (List.fst_mem_of_mem_zipIdx hitem)
            cases hitem' : nodes[item.1]? with
            | none =>
                rw [render_item_missing _ _ hitem'] at hpanicked
                cases hpanicked
            | some drawnNode =>
                rw [isDrawn, hitem'] at hdrawn
                rw [render_item_eq _ _ hitem'] at hpanicked
                exact hdraw _ _ _ _ _ hreach hitem' (bne_iff_ne.1 hdrawn) hpanicked
          · rw [build_other _ _ _ hnode hthen]
            exact hdraw _ _ _ _ _ .refl hnode hthen

/-! ### Ends -/

variable (hdisplay : ∀ node, display node ≠ .exhausted)

include hdisplay in
/-- Drawing a node ends if drawing its children does. -/
theorem draw_node_ends {run : Nat → String → String → Bool → Outcome (List Line)}
    {indent lead marker : String}
    (hgrows : ∀ id indent isLast, GrowsWithFuel fun fuel => run fuel id indent isLast)
    (h : ∀ child ∈ children node, ∃ fuel,
      run fuel child.id (indent ++ "  ") child.isLast ≠ .exhausted) :
    ∃ fuel, drawNode display (run fuel) id node indent lead marker ≠ .exhausted := by
  have hchildren : ∃ fuel, renderChildren (run fuel) node indent ≠ .exhausted := by
    refine concat_ends (fun child fuel => (hgrows _ _ _ fuel).bind fun _ => .refl _)
      fun child hchild => ?_
    obtain ⟨fuel, hfuel⟩ := h child hchild
    refine ⟨fuel, fun hexhausted => ?_⟩
    rcases bind_eq_exhausted hexhausted with h | ⟨_, -, h⟩
    · exact hfuel h
    · cases h
  obtain ⟨fuel, hfuel⟩ := hchildren
  refine ⟨fuel, fun hexhausted => ?_⟩
  rcases bind_eq_exhausted hexhausted with h | ⟨_, -, h⟩
  · exact hdisplay node h
  rcases bind_eq_exhausted h with h | ⟨_, -, h⟩
  · exact hfuel h
  · cases h

/-- A sequence ends if drawing the nodes that it collected does. -/
theorem sequence_ends {run : Nat → String → String → Bool → Outcome (List Line)}
    {sequence : List String} (showStatus : Bool) (indent : String) (isLast : Bool)
    (hgrows : ∀ id indent isLast, GrowsWithFuel fun fuel => run fuel id indent isLast)
    (h : ∀ item ∈ sequence, (∀ node indent lead marker, nodes[item]? = some node →
        node.nodeType ≠ "THEN" → ∃ fuel, drawNode display (run fuel) item node indent lead marker ≠
          .exhausted) ∧ isDrawn nodes item = true) :
    ∃ fuel, renderSequence display nodes showStatus (run fuel) indent isLast sequence ≠
      .exhausted := by
  refine concat_ends (fun item fuel => render_item_approximates _ _ fun id indent isLast =>
    hgrows id indent isLast fuel) fun item hitem => ?_
  obtain ⟨hdraw, hdrawn⟩ := h item.1 (List.fst_mem_of_mem_zipIdx hitem)
  cases hnode : nodes[item.1]? with
  | none => exact ⟨0, by rw [render_item_missing _ _ hnode]; exact fun h => (by cases h)⟩
  | some node =>
      rw [isDrawn, hnode] at hdrawn
      obtain ⟨fuel, hfuel⟩ := hdraw node _ _ _ hnode (bne_iff_ne.1 hdrawn)
      exact ⟨fuel, by rw [render_item_eq _ _ hnode]; exact hfuel⟩

include hdisplay in
/-- Where the references end, drawing ends. -/
theorem build_ends (showStatus : Bool) (indent : String) (isLast : Bool)
    (h : Acc (fun b a => Refers (next nodes) a b) id) :
    ∃ fuel, buildTreeRecursive display nodes showStatus fuel id indent isLast ≠ .exhausted := by
  -- A sequence draws the children of what it collects, which may be many references away.
  have htrans := h.transGen
  induction htrans generalizing indent isLast with
  | intro id _ ih =>
      have hgrows := build_grows display nodes showStatus
      have hdraw : ∀ a node indent lead marker, ReflTransGen (Refers (next nodes)) id a →
          nodes[a]? = some node → node.nodeType ≠ "THEN" →
          ∃ fuel, drawNode display (buildTreeRecursive display nodes showStatus fuel) a node indent
            lead marker ≠ .exhausted := by
        intro a node indent lead marker hreach hnode hthen
        refine draw_node_ends hdisplay hgrows fun child hchild => ?_
        have hbelow : TransGen (Refers (next nodes)) id child.id :=
          .tail' hreach (refers_child hnode hthen hchild)
        exact ih child.id (transGen_swap.2 hbelow) _ _ (h.inv_of_transGen (transGen_swap.2 hbelow))
      cases hnode : nodes[id]? with
      | none => exact ⟨1, by rw [build_missing _ _ _ hnode]; exact fun h => (by cases h)⟩
      | some node =>
          by_cases hthen : node.nodeType = "THEN"
          · obtain ⟨fuel, sequence, hcollect⟩ := collect_ends h
            obtain ⟨fuel', hitems⟩ := sequence_ends showStatus indent isLast hgrows
              fun item hitem =>
                (collect_reachable hcollect hitem).imp_left
                  fun hreach node indent lead marker hnode hthen =>
                    hdraw item node indent lead marker hreach hnode hthen
            have hcollect' : collectSequence nodes (max fuel fuel') id = .done sequence :=
              ((collect_grows nodes id).approximates (Nat.le_max_left _ _)).done hcollect
            have hitems' := (render_sequence_approximates showStatus sequence indent
              isLast fun id indent isLast => (hgrows id indent isLast).approximates
                (Nat.le_max_right fuel fuel')).ends hitems
            refine ⟨max fuel fuel' + 1, fun hexhausted => ?_⟩
            rw [build_then _ _ _ hnode hthen] at hexhausted
            rcases bind_eq_exhausted hexhausted with h | ⟨_, -, hexhausted⟩
            · exact hdisplay node h
            rw [hcollect'] at hexhausted
            exact hitems' hexhausted
          · obtain ⟨fuel, hfuel⟩ := hdraw id node (childIndent indent isLast) _ _ .refl hnode hthen
            exact ⟨fuel + 1, by rw [build_other _ _ _ hnode hthen]; exact hfuel⟩

include hdisplay in
/-- Drawing returns if no cycle is reachable and the line of every reachable node is written. -/
theorem build_returns_iff (nodes : ExplainMap) (showStatus : Bool) (root indent : String)
    (isLast : Bool)
    (hthen : ∀ node, node.nodeType = "THEN" → ∃ text, display node = .done text) :
    (∃ fuel lines,
        buildTreeRecursive display nodes showStatus fuel root indent isLast = .done lines) ↔
      NoCycle nodes root ∧ ∀ id, ReflTransGen (Refers (next nodes)) root id →
        ∀ node, nodes[id]? = some node → ∃ text, display node = .done text := by
  rw [← acc_iff_no_cycle_below]
  constructor
  · rintro ⟨fuel, lines, h⟩
    have hdraws := build_draws h
    have hacc := hdraws.ends root List.mem_cons_self
    refine ⟨hacc, fun id hreach node hnode => ?_⟩
    by_cases hthen' : node.nodeType = "THEN"
    · exact hthen node hthen'
    · obtain ⟨text, _, _, _, _, htext, -⟩ := hdraws.line_of hreach hnode hthen'
      exact ⟨text, htext⟩
  · rintro ⟨hacc, hshown⟩
    obtain ⟨fuel, hends⟩ := build_ends hdisplay showStatus indent isLast hacc
    refine ⟨fuel, returns_of_ends hends ?_⟩
    refine build_not_panicked fuel indent isLast fun id hreach node hnode hpanicked => ?_
    obtain ⟨text, htext⟩ := hshown id hreach node hnode
    rw [hpanicked] at htext
    cases htext

/-- On a tree, every node with a line of its own has it once. -/
theorem build_draws_once {root indent : String} {isLast : Bool} {fuel : Nat}
    (htree : IsTree (next nodes) root)
    (h : buildTreeRecursive display nodes showStatus fuel root indent isLast = .done lines)
    (hreach : ReflTransGen (Refers (next nodes)) root id) :
    (drawn lines).count id = if isDrawn nodes id then 1 else 0 := by
  have hdraws := build_draws h
  have hacc := hdraws.ends root List.mem_cons_self
  rw [hdraws.nodes_eq, List.flatMap_singleton, drawnBelow]
  split
  · next hdrawn => rw [List.count_filter hdrawn, count_tree htree hacc hreach]
  · next hdrawn =>
      refine List.count_eq_zero_of_not_mem fun hmem => ?_
      exact hdrawn (List.mem_filter.1 hmem).2

/-- A tree has no cycle. -/
theorem no_cycle_of_tree {root : String} (htree : IsTree (next nodes) root) : NoCycle nodes root :=
  fun _ hreach => htree.tree.acyclic hreach

end PgDurable.Explain
