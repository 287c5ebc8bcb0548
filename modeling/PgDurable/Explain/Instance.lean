import PgDurable.Explain.Stored
import PgDurable.Library.Lines

/-!
# Explaining an instance

`explainInstance` puts the tree of an instance below a header with its status and its output.
Texts are cut at a fixed byte, so `explain_never_cuts_iff` says for which texts an explanation is
returned: those with a character boundary there. What is not cut is shown as it is.
-/

namespace PgDurable.Explain

open Json Text NodeStatus Outcome Relation Unfolding

/-! ## The texts of a node -/

/-- Where a text of the node is cut, the cut is between two characters. -/
structure CleanFields (node : ExplainNode) : Prop where
  query : node.nodeType = "SQL" → CutsCleanly 50 47 (node.query.getD "?")
  url : node.nodeType = "HTTP" ∨ node.nodeType = "HTTP_MULTIPART" → ∀ config ∈ configOf node,
    (config.index "endpoint").asStr = none →
      CutsCleanly 40 37 ((config.index "url").asStr.getD "?")
  break_value : node.nodeType = "BREAK" → ∀ config ∈ configOf node,
    ∀ value ∈ (config.index "break_value").asStr, CutsCleanly 20 17 value

theorem name_suffix_clean (node : ExplainNode) : ∀ part ∈ nameSuffix node, part.Clean := by
  unfold nameSuffix
  cases node.resultName with
  | none => exact fun _ hnone => absurd hnone List.not_mem_nil
  | some name => simp

theorem request_parts_clean (debug : String → String) (node : ExplainNode) :
    (∀ part ∈ requestParts debug node, part.Clean) ↔ ∀ config ∈ configOf node,
      (config.index "endpoint").asStr = none →
        CutsCleanly 40 37 ((config.index "url").asStr.getD "?") := by
  unfold requestParts
  cases configOf node with
  | none => simp
  | some config =>
      cases hserver : (config.index "endpoint").asStr with
      | none => simp [hserver]
      | some server => simp [hserver]

/-- The cuts of a line are those of the texts of the node. -/
theorem clean_node_iff (debug : String → String) (node : ExplainNode) :
    CleanNode debug node ↔ CleanFields node := by
  have hfields : CleanFields node ↔
      (node.nodeType = "SQL" → CutsCleanly 50 47 (node.query.getD "?")) ∧
      (node.nodeType = "HTTP" ∨ node.nodeType = "HTTP_MULTIPART" →
        ∀ part ∈ requestParts debug node, part.Clean) ∧
      (node.nodeType = "BREAK" → ∀ config ∈ configOf node,
        ∀ value ∈ (config.index "break_value").asStr, CutsCleanly 20 17 value) := by
    rw [request_parts_clean]
    exact ⟨fun h => ⟨h.query, h.url, h.break_value⟩, fun h => ⟨h.1, h.2.1, h.2.2⟩⟩
  have hsuffix : (∀ part ∈ nameSuffix node, part.Clean) ↔ True :=
    iff_true_intro (name_suffix_clean node)
  rw [hfields]
  unfold CleanNode displayParts
  split
  · next htype => simp [htype, or_imp, forall_and, hsuffix]
  · next htype => simp [htype, or_imp, forall_and, hsuffix]
  · next htype => simp [htype, or_imp, forall_and, hsuffix]
  · next htype => simp [htype, or_imp, forall_and, hsuffix]
  · next htype => simp [htype, or_imp, forall_and, hsuffix]
  · next htype => simp [htype, or_imp, forall_and, hsuffix]
  · next htype => simp [htype, or_imp, forall_and, hsuffix]
  · next htype =>
      split
      · next value hvalue =>
          obtain ⟨config, hconfig, hvalue⟩ := Option.bind_eq_some_iff.1 hvalue
          simp [htype, or_imp, forall_and, hsuffix, hconfig, hvalue]
      · next hnone =>
          have hclean : ∀ config ∈ configOf node, ∀ value ∈ (config.index "break_value").asStr,
              CutsCleanly 20 17 value := by
            intro config hconfig value hvalue
            rw [Option.bind_eq_none_iff.1 hnone config hconfig] at hvalue
            cases hvalue
          simpa [htype, hsuffix] using hclean
  · next htype => simp [htype, or_imp, forall_and, hsuffix]
  · next htype => simp [htype, or_imp, forall_and, hsuffix]
  · next htype => simp [htype]
  · simp_all

/-! ## The tree -/

/-- Build a tree visualization of the function graph. -/
def buildTreeVisualization (display : ExplainNode → Outcome String) (nodes : ExplainMap)
    (showStatus : Bool) (fuel : Nat) (root : String) : Outcome String := do
  let output ← buildTreeRecursive display nodes showStatus fuel root "" true
  return String.ofList (padLines (output.flatMap fun line => line.text.toList ++ ['\n']))

/-- Every text of a reachable node that is cut is cut cleanly. -/
def CleanBelow (nodes : ExplainMap) (root : String) : Prop :=
  ∀ id, ReflTransGen (Refers (next nodes)) root id → ∀ node, nodes[id]? = some node →
    CleanFields node

theorem display_then (debug : String → String) {node : ExplainNode}
    (hthen : node.nodeType = "THEN") : formatNodeDisplay debug node = .done "SEQUENCE" := by
  rw [formatNodeDisplay, displayParts, hthen]
  rfl

theorem display_not_exhausted (debug : String → String) (node : ExplainNode) :
    formatNodeDisplay debug node ≠ .exhausted :=
  join_parts_not_exhausted _

/-- A tree is returned if no cycle is reachable and no cut panics. -/
theorem visualization_returns_iff (debug : String → String) (nodes : ExplainMap)
    (showStatus : Bool) (root : String) :
    (∃ fuel text, buildTreeVisualization (formatNodeDisplay debug) nodes showStatus fuel root =
      .done text) ↔ NoCycle nodes root ∧ CleanBelow nodes root := by
  have hlines := build_returns_iff (display_not_exhausted debug) nodes showStatus root "" true
    fun node hthen => ⟨_, display_then debug hthen⟩
  have hclean : ∀ node, (∃ text, formatNodeDisplay debug node = .done text) ↔ CleanFields node :=
    fun node => (format_node_display_returns_iff debug node).trans (clean_node_iff debug node)
  simp only [hclean] at hlines
  refine Iff.trans ⟨?_, ?_⟩ hlines
  · rintro ⟨fuel, text, h⟩
    obtain ⟨output, houtput, -⟩ := bind_eq_done h
    exact ⟨fuel, output, houtput⟩
  · rintro ⟨fuel, output, h⟩
    refine ⟨fuel, String.ofList (padLines (output.flatMap fun line => line.text.toList ++ ['\n'])), ?_⟩
    rw [buildTreeVisualization, h]
    rfl

/-- A text is part of another. -/
def Appears (part text : String) : Prop := part.toList <:+: text.toList

theorem Appears.refl (text : String) : Appears text text := List.infix_refl _

theorem Appears.append_left {part text : String} (h : Appears part text) (front : String) :
    Appears part (front ++ text) := by
  rw [Appears, String.toList_append]
  exact List.IsInfix.trans h (List.suffix_append _ _).isInfix

theorem Appears.append_right {part text : String} (h : Appears part text) (back : String) :
    Appears part (text ++ back) := by
  rw [Appears, String.toList_append]
  exact List.IsInfix.trans h (List.prefix_append _ _).isInfix

/-- A text without a line break that does not end in white space. -/
def IsSolid (text : String) : Prop := '\n' ∉ text.toList ∧ EndsSolid text.toList

/-- The tree shows every such text of a reachable node that is not cut as it is. -/
theorem visualization_verbatim {debug : String → String} {nodes : ExplainMap} {showStatus : Bool}
    {fuel : Nat} {root tree : String}
    (h : buildTreeVisualization (formatNodeDisplay debug) nodes showStatus fuel root = .done tree)
    {id : String} (hreach : ReflTransGen (Refers (next nodes)) root id) {node : ExplainNode}
    (hnode : nodes[id]? = some node) {part : Part} (hpart : part ∈ displayParts debug node)
    {whole : String} (hwhole : part.whole = some whole) (hsolid : IsSolid whole) :
    Appears whole tree := by
  have hthen : node.nodeType ≠ "THEN" := by
    intro hthen
    rw [displayParts, hthen] at hpart
    rw [List.mem_singleton.1 hpart] at hwhole
    cases hwhole
  obtain ⟨output, houtput, htree⟩ := bind_eq_done h
  obtain ⟨text, lead, marker, line, hline, htext, hlead⟩ :=
    (build_draws houtput).line_of hreach hnode hthen
  obtain ⟨front, back, hshown⟩ := fields_verbatim htext hpart hwhole
  have hword : Appears whole line.text := by
    rw [hlead, hshown]
    exact ((((Appears.refl whole).append_left front).append_right back).append_left lead).append_right
      marker
  rw [Appears, ← Outcome.done.inj htree, String.toList_ofList]
  refine infix_pad_lines hsolid.1 hsolid.2 ?_
  refine (List.IsInfix.trans hword (List.prefix_append _ ['\n']).isInfix).trans ?_
  rw [List.flatMap_def]
  exact List.infix_of_mem_flatten (List.mem_map_of_mem hline)

/-! ## The explanation -/

/-- What `df.instances` has of an instance. -/
structure InstanceRow where
  rootNode : String
  label : Option String
  status : String

/-- The nodes with the statuses that the walk derives. -/
def withInferred (root : String) (rows : ExplainMap) : ExplainMap :=
  let inferred := inferStatuses (some root) (factsOf rows)
  rows.map fun id node =>
    match inferred[id]? with
    | some inf => { node with status := some inf.status }
    | none => node

def statusIcon (status : String) : String :=
  match String.ofList (status.toList.map Char.toLower) with
  | "completed" | "continuedasnew" => "✓"
  | "failed" | "canceled" | "cancelled" => "✗"
  | "running" => "⏳"
  | _ => "○"

def titleLine (instanceId : String) (label : Option String) : String :=
  match label with
  | some label => "Instance: " ++ instanceId ++ " (" ++ label ++ ")\n"
  | none => "Instance: " ++ instanceId ++ "\n"

def outputLine (output : Option String) : Outcome String :=
  match output with
  | some text => (truncate 60 57 text).bind fun shown => .done ("Output:   " ++ shown ++ "\n")
  | none => .done ""

/-- Explain an existing durable function instance: its row, what the engine says of its status and
output, and its nodes. -/
def explainInstance (debug : String → String) (instanceId : String) (row : Option InstanceRow)
    (engineStatus : String) (output : Option String) (rows : ExplainMap) (fuel : Nat) :
    Outcome String :=
  match row with
  | none => .done ("Instance '" ++ instanceId ++ "' not found")
  | some row =>
      let nodes := withInferred row.rootNode rows
      if nodes.isEmpty then .done ("No nodes found for instance '" ++ instanceId ++ "'")
      else do
        let status := if engineStatus = "" then row.status else engineStatus
        let header := titleLine instanceId row.label ++
          "Status:   " ++ statusIcon status ++ " " ++ status ++ "\n"
        let shown ← outputLine output
        let tree ← buildTreeVisualization (formatNodeDisplay debug) nodes true fuel row.rootNode
        return header ++ shown ++ "\n" ++ tree

/-! ## When an explanation is returned -/

/-- Every text that the explanation of an instance with nodes cuts is cut cleanly, and no cycle is
reachable. -/
structure Explainable (root : String) (output : Option String) (rows : ExplainMap) : Prop where
  output : ∀ text ∈ output, CutsCleanly 60 57 text
  nodes : CleanBelow rows root
  cycles : NoCycle rows root

theorem with_inferred_get (root : String) (rows : ExplainMap) (id : String) :
    ∃ status : ExplainNode → Option String, (withInferred root rows)[id]? =
      rows[id]?.map fun node => { node with status := status node } := by
  rw [withInferred, Std.ExtTreeMap.getElem?_map]
  cases (inferStatuses (some root) (factsOf rows))[id]? with
  | none => exact ⟨fun node => node.status, rfl⟩
  | some inf => exact ⟨fun _ => some inf.status, rfl⟩

/-- The derived statuses do not change the graph. -/
theorem next_with_inferred (root : String) (rows : ExplainMap) :
    next (withInferred root rows) = next rows := by
  funext id
  obtain ⟨status, hstatus⟩ := with_inferred_get root rows id
  rw [next, next, hstatus, Option.map_map]
  rfl

theorem is_empty_with_inferred (root : String) (rows : ExplainMap) :
    (withInferred root rows).isEmpty = rows.isEmpty := by
  rw [← Std.ExtTreeMap.isEmpty_keys, withInferred, Std.ExtTreeMap.keys_map,
    Std.ExtTreeMap.isEmpty_keys]

theorem clean_below_with_inferred (root : String) (rows : ExplainMap) :
    CleanBelow (withInferred root rows) root ↔ CleanBelow rows root := by
  rw [CleanBelow, CleanBelow, next_with_inferred]
  refine forall_congr' fun id => imp_congr Iff.rfl ?_
  obtain ⟨status, hstatus⟩ := with_inferred_get root rows id
  rw [hstatus]
  constructor
  · intro h node hnode
    obtain ⟨hquery, hurl, hvalue⟩ := h _ (by rw [hnode]; rfl)
    exact ⟨hquery, hurl, hvalue⟩
  · intro h node' hnode'
    obtain ⟨node, hnode, rfl⟩ := Option.map_eq_some_iff.1 hnode'
    obtain ⟨hquery, hurl, hvalue⟩ := h node hnode
    exact ⟨hquery, hurl, hvalue⟩

theorem output_line_returns_iff (output : Option String) :
    (∃ line, outputLine output = .done line) ↔ ∀ text ∈ output, CutsCleanly 60 57 text := by
  cases output with
  | none => exact ⟨fun _ _ hnone => (by cases hnone), fun _ => ⟨"", rfl⟩⟩
  | some text =>
      have htext : (∀ text' ∈ some text, CutsCleanly 60 57 text') ↔ CutsCleanly 60 57 text := by
        simp
      rw [htext, ← truncate_returns_iff]
      constructor
      · rintro ⟨line, h⟩
        obtain ⟨shown, hshown, -⟩ := bind_eq_done h
        exact ⟨shown, hshown⟩
      · rintro ⟨shown, hshown⟩
        exact ⟨_, by rw [outputLine, hshown]; rfl⟩

/-- The explanation of an instance is returned if what it cuts is cut cleanly and no cycle is
reachable, or there is nothing to draw. -/
theorem explain_instance_returns_iff (debug : String → String) (instanceId engineStatus : String)
    (row : Option InstanceRow) (output : Option String) (rows : ExplainMap) :
    (∃ fuel text, explainInstance debug instanceId row engineStatus output rows fuel =
      .done text) ↔
      ∀ found ∈ row, rows.isEmpty = false → Explainable found.rootNode output rows := by
  cases row with
  | none => exact ⟨fun _ _ hnone => (by cases hnone), fun _ => ⟨0, _, rfl⟩⟩
  | some row =>
      have hempty := is_empty_with_inferred row.rootNode rows
      have htree := visualization_returns_iff debug (withInferred row.rootNode rows) true row.rootNode
      rw [clean_below_with_inferred, NoCycle, next_with_inferred] at htree
      have houtput := output_line_returns_iff output
      simp only [explainInstance, hempty]
      constructor
      · rintro ⟨fuel, text, h⟩ found hfound hrows
        rw [← Option.some.inj hfound]
        simp only [hrows] at h
        obtain ⟨shown, hshown, h⟩ := bind_eq_done h
        obtain ⟨tree, htree', -⟩ := bind_eq_done h
        obtain ⟨hcycles, hclean⟩ := htree.1 ⟨fuel, tree, htree'⟩
        exact ⟨houtput.1 ⟨shown, hshown⟩, hclean, hcycles⟩
      · intro h
        cases hrows : rows.isEmpty with
        | true => exact ⟨0, _, rfl⟩
        | false =>
            obtain ⟨hout, hclean, hcycles⟩ := h row rfl hrows
            obtain ⟨shown, hshown⟩ := houtput.2 hout
            obtain ⟨fuel, tree, htree'⟩ := htree.2 ⟨hcycles, hclean⟩
            refine ⟨fuel, ?_⟩
            rw [hshown, htree']
            exact ⟨_, rfl⟩

/-- A returned explanation shows the output and the texts of the reachable nodes as they are, where
they are not cut. -/
theorem explain_instance_verbatim {debug : String → String} {instanceId engineStatus : String}
    {row : InstanceRow} {output : Option String} {rows : ExplainMap} {fuel : Nat} {text : String}
    (hrows : rows.isEmpty = false)
    (h : explainInstance debug instanceId (some row) engineStatus output rows fuel = .done text) :
    (∀ shown ∈ output, shown.utf8ByteSize ≤ 60 → Appears shown text) ∧
    ∀ id, ReflTransGen (Refers (next rows)) row.rootNode id → ∀ node, rows[id]? = some node →
      ∀ part ∈ displayParts debug node, ∀ whole ∈ part.whole, IsSolid whole →
        Appears whole text := by
  simp only [explainInstance, is_empty_with_inferred, hrows] at h
  obtain ⟨line, hline, h⟩ := bind_eq_done h
  obtain ⟨tree, htree, h⟩ := bind_eq_done h
  rw [← Outcome.done.inj h]
  refine ⟨fun shown hshown hshort => ?_, fun id hreach node hnode part hpart whole hwhole hsolid => ?_⟩
  · rw [Option.mem_def.1 hshown, outputLine, truncate_short hshort] at hline
    rw [← Outcome.done.inj hline]
    exact (((((Appears.refl shown).append_left _).append_right _).append_left _).append_right
      _).append_right _
  · obtain ⟨status, hstatus⟩ := with_inferred_get row.rootNode rows id
    rw [hnode] at hstatus
    have hword : Appears whole tree := visualization_verbatim htree
      (by rw [next_with_inferred]; exact hreach) hstatus hpart hwhole hsolid
    exact hword.append_left _

/-! ## Cuts inside a character -/

/-- A statement of 52 bytes whose byte 47 is inside a character. -/
def accentedRow : ExplainNode :=
  { statementRow with query := some "éééééééééééééééééééééééééé" }

theorem accented_storable : Storable (oneRow accentedRow) :=
  one_row_storable (by decide) rfl rfl (fun _ hnone => (by cases hnone)) rfl

theorem one_row_no_cycle {row : ExplainNode} (hreferences : references row = []) (root : String) :
    NoCycle (oneRow row) root := by
  intro id _ hcycle
  obtain ⟨child, hchild, -⟩ := TransGen.head'_iff.1 hcycle
  rw [Refers, next] at hchild
  cases hnode : (oneRow row)[id]? with
  | none =>
      rw [hnode] at hchild
      cases hchild
  | some node =>
      rw [hnode, (one_row_eq hnode).2, Option.map_some, Option.getD_some, hreferences] at hchild
      cases hchild

theorem accented_not_clean : ¬ CleanFields accentedRow := by
  intro h
  have hlong : 50 < "éééééééééééééééééééééééééé".utf8ByteSize := by
    rw [← byte_length_to_list]
    decide
  have hboundary := (slice_to_is_some_iff _ _).2 (h.query rfl hlong)
  exact absurd hboundary (by decide)

theorem statement_clean : CleanFields statementRow where
  query _ hlong := by
    have hquery : (statementRow.query.getD "?").utf8ByteSize = 8 := by
      rw [← byte_length_to_list]
      decide
    rw [hquery] at hlong
    exact absurd hlong (by decide)
  url htype := absurd htype (by decide)
  break_value htype := absurd htype (by decide)

end PgDurable.Explain
