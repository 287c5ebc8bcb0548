import Mathlib.Data.List.MinMax
import PgDurable.Library.Walk
import PgDurable.NodeStatus.Supersession

/-!
# Read-time status inference

`inferStatuses` derives the status shown for every node of an instance from the stored rows: a
top-down walk from the root that carries the nearest deciding ancestor and the ancestor with the
highest generation, with a pass for the nodes the walk did not reach.

`infer_statuses_top_down` says that the walk finishes on every node map with one entry per id and,
on trees, in every order equals the definition by paths `inferAlong`.
`superseded_reads_inactive_iff` says exactly when a node of a superseded generation reads back as
`pending` or `skipped`.
-/

namespace PgDurable.NodeStatus

open Json Walk

/-! ## The inference of the source -/

/-- Structural facts needed to infer a node's status; `statusDetails` is the text of the column. -/
structure NodeFacts where
  nodeType : String
  query : Option String
  leftNode : Option String
  rightNode : Option String
  status : Option String
  statusDetails : Option String
  deriving DecidableEq

/-- Result of inference for a single node. -/
structure Inferred where
  status : String
  fromAncestorId : Option String
  deriving DecidableEq

/-- The rows of an instance by node id. -/
abbrev NodeMap := Std.ExtTreeMap String NodeFacts

/-- `char::to_uppercase` on the letters of node type names: besides ASCII, U+0131 and U+017F are
the only characters whose uppercase is a single ASCII letter. -/
def toUppercase (c : Char) : Char :=
  if c = '\u0131' then 'I' else if c = '\u017f' then 'S' else c.toUpper

/-- The instance id and generation of the stamp in `status_details`. -/
def stampOf (statusDetails : Option String) : Option (String × Int) := do
  let details ← statusDetails
  let value ← parse details
  let executionId ← (value.get? "execution_id").bind Value.asStr
  let (lineage, generation) ← parseExecutionStamp executionId
  pure (lineage.instanceId, generation)

/-- Whether the stored status is terminal. -/
def isTerminal (status : Option String) : Bool :=
  status == some "completed" || status == some "failed"

/-- The node id a configuration holds under a key. -/
def configNode (query : Option String) (key : String) : List String :=
  ((query.bind parse).bind fun config => (config.get? key).bind Value.asStr).toList

/-- The string items of `extra_nodes`. -/
def extraNodes (query : Option String) : List String :=
  match (query.bind parse).bind fun config => (config.get? "extra_nodes").bind Value.asArray with
  | some extra => extra.filterMap Value.asStr
  | none => []

/-- Enumerate child node ids referenced by compound nodes. -/
def childrenOf (n : NodeFacts) : List String :=
  match String.ofList (n.nodeType.toList.map toUppercase) with
  | "THEN" | "RACE" => n.leftNode.toList ++ n.rightNode.toList
  | "JOIN" => n.leftNode.toList ++ n.rightNode.toList ++ extraNodes n.query
  | "IF" => configNode n.query "condition_node" ++ n.leftNode.toList ++ n.rightNode.toList
  | "LOOP" => n.leftNode.toList ++ configNode n.query "condition_node"
  | _ => []

/-- Raise the maximum of a node's scope to the node's generation. -/
def raiseScopeMax (scopeMax : ScopeMax) (n : NodeFacts) : ScopeMax :=
  match stampOf n.statusDetails with
  | none => scopeMax
  | some (instanceId, generation) =>
      let slot := (scopeMax[instanceId]?).getD (-(2 ^ 63))
      scopeMax.insert instanceId (if generation > slot then generation else slot)

/-- The highest generation stamped in each scope. -/
def scopeMaxOf (values : List NodeFacts) : ScopeMax := values.foldl raiseScopeMax ∅

/-- Whether the node's stamp belongs to a superseded generation. -/
def stampSuperseded (scopeMax : ScopeMax) (n : NodeFacts) : Bool :=
  match stampOf n.statusDetails with
  | some (instanceId, generation) => isSuperseded instanceId generation scopeMax
  | none => false

/-- What a frame of the walk carries besides its node: the nearest terminal ancestor and the
highest-generation ancestor with its generation. -/
structure Ancestry where
  nta : Option String
  maxGenAnc : Option (Int × String)
  deriving DecidableEq

/-- The status of a visited node. -/
def inferNode (scopeMax : ScopeMax) (ancestry : Ancestry) (n : NodeFacts) : Inferred :=
  if isTerminal n.status then
    if stampSuperseded scopeMax n then
      match ancestry.nta with
      | some a => ⟨"skipped", some a⟩
      | none => ⟨"pending", ancestry.maxGenAnc.map (·.2)⟩
    else ⟨n.status.getD "pending", none⟩
  else
    match ancestry.nta with
    | some a => ⟨"skipped", some a⟩
    | none => if n.status = some "running" then ⟨"running", none⟩ else ⟨"pending", none⟩

/-- What a visited node hands to its children. -/
def childAncestry (scopeMax : ScopeMax) (ancestry : Ancestry) (id : String) (n : NodeFacts) :
    Ancestry where
  nta := if isTerminal n.status && !stampSuperseded scopeMax n then some id else ancestry.nta
  maxGenAnc :=
    match (stampOf n.statusDetails).map (·.2), ancestry.maxGenAnc with
    | some g, some (ag, aid) => if g ≥ ag then some (g, id) else some (ag, aid)
    | some g, none => some (g, id)
    | none, prev => prev

/-- The children of a node id; a dangling reference has none. -/
def childrenIn (nodes : NodeMap) (id : String) : List String :=
  match nodes[id]? with
  | some n => childrenOf n
  | none => []

/-- The graph of the walk. -/
def inferenceGraph (nodes : NodeMap) (scopeMax : ScopeMax) : Walk.Graph String Ancestry where
  children := childrenIn nodes
  inherit ancestry id :=
    match nodes[id]? with
    | some n => childAncestry scopeMax ancestry id n
    | none => ancestry

/-- Record a visit in the output; a dangling reference has no entry. -/
def recordVisit (nodes : NodeMap) (scopeMax : ScopeMax) (visit : String × Ancestry)
    (out : Std.ExtTreeMap String Inferred) : Std.ExtTreeMap String Inferred :=
  match nodes[visit.1]? with
  | some n => out.insert visit.1 (inferNode scopeMax visit.2 n)
  | none => out

/-- Surface a node that was not visited with its stored status. -/
def surfaceUnvisited (visited : List String) (out : Std.ExtTreeMap String Inferred)
    (entry : String × NodeFacts) : Std.ExtTreeMap String Inferred :=
  if entry.1 ∈ visited then out else out.insert entry.1 ⟨entry.2.status.getD "pending", none⟩

/-- The output of a finished walk: its visits, oldest first, and then the unvisited nodes. -/
def outputOf (nodes : NodeMap) (scopeMax : ScopeMax) (entries : List (String × NodeFacts))
    (final : State String Ancestry) : Std.ExtTreeMap String Inferred :=
  entries.foldl (surfaceUnvisited final.visited)
    (final.visits.foldr (recordVisit nodes scopeMax) ∅)

/-- The walk's frame for the root: no ancestors. -/
def noAncestry : Ancestry := ⟨none, none⟩

/-- Compute the inferred status for every node of the map, walking top-down from the root. -/
def inferStatuses (rootNode : Option String) (nodes : NodeMap) : Std.ExtTreeMap String Inferred :=
  let scopeMax := scopeMaxOf (nodes.toList.map (·.2))
  let graph := inferenceGraph nodes scopeMax
  let final :=
    match rootNode with
    | some root => graph.run (graph.bound nodes.keys) (start root noAncestry)
    | none => ⟨[], []⟩
  outputOf nodes scopeMax nodes.toList final

/-- One run of the inference with the map and the pending frames enumerated in any order: the
values in the order `values` for the per-scope maxima, the entries in the order `entries` for the
last pass, and a walk that takes any pending frame next. -/
def InfersInOrder (rootNode : Option String) (nodes : NodeMap)
    (out : Std.ExtTreeMap String Inferred) : Prop :=
  ∃ (values : List NodeFacts) (entries : List (String × NodeFacts))
    (final : State String Ancestry),
    values.Perm (nodes.toList.map (·.2)) ∧ entries.Perm nodes.toList ∧
    (match rootNode with
      | some root => (inferenceGraph nodes (scopeMaxOf values)).Steps (start root noAncestry) final ∧
          final.stack = []
      | none => final = ⟨[], []⟩) ∧
    out = outputOf nodes (scopeMaxOf values) entries final

/-! ## The output -/

section Output

variable {nodes : NodeMap} {scopeMax : ScopeMax} {entries : List (String × NodeFacts)}
  {final : State String Ancestry} {id : String} {n : NodeFacts}

/-- The per-scope maxima do not depend on the order of the values. -/
theorem scope_max_perm {values values' : List NodeFacts} (h : values.Perm values') :
    scopeMaxOf values = scopeMaxOf values' := by
  refine h.foldl_eq' (fun a _ b _ scopeMax => ?_) ∅
  unfold raiseScopeMax
  cases stampOf a.statusDetails with
  | none => rfl
  | some stampA =>
      cases stampOf b.statusDetails with
      | none => rfl
      | some stampB =>
          obtain ⟨scopeA, genA⟩ := stampA
          obtain ⟨scopeB, genB⟩ := stampB
          refine Std.ExtTreeMap.ext_getElem? fun scope => ?_
          simp only [Std.ExtTreeMap.getElem?_insert, Std.compare_eq_iff_eq]
          by_cases hsame : scopeA = scopeB
          · subst hsame
            by_cases hscope : scopeA = scope
            · simp only [hscope, if_true, Option.getD_some, Option.some.injEq]
              split_ifs <;> omega
            · simp [hscope]
          · by_cases hscope : scopeA = scope
            · subst hscope
              simp [Ne.symm hsame]
            · by_cases hscope' : scopeB = scope
              · subst hscope'
                simp [hsame]
              · simp [hscope, hscope']

/-- The last pass leaves the entries of visited nodes. -/
theorem surface_visited {visited : List String} (out : Std.ExtTreeMap String Inferred)
    (h : id ∈ visited) : (entries.foldl (surfaceUnvisited visited) out)[id]? = out[id]? := by
  induction entries generalizing out with
  | nil => rfl
  | cons entry entries ih =>
      rw [List.foldl_cons, ih, surfaceUnvisited]
      split
      · rfl
      · rename_i hentry
        have hne : entry.1 ≠ id := fun heq => hentry (heq ▸ h)
        simp [Std.ExtTreeMap.getElem?_insert, hne]

/-- The last pass gives every unvisited node its stored status and touches nothing else. -/
theorem surface_unvisited {visited : List String} (out : Std.ExtTreeMap String Inferred)
    (hentries : ∀ entry ∈ entries, nodes[entry.1]? = some entry.2) (h : id ∉ visited) :
    (entries.foldl (surfaceUnvisited visited) out)[id]? =
      if id ∈ entries.map (·.1) then
        nodes[id]?.map fun n => ⟨n.status.getD "pending", none⟩
      else out[id]? := by
  induction entries generalizing out with
  | nil => rfl
  | cons entry entries ih =>
      rw [List.foldl_cons, ih _ fun other hother => hentries other (by simp [hother])]
      have hentry := hentries entry (by simp)
      by_cases hlater : id ∈ entries.map (·.1)
      · simp only [hlater, if_true, List.map_cons, List.mem_cons, or_true]
      · rw [if_neg hlater]
        by_cases heq : entry.1 = id
        · subst heq
          simp [surfaceUnvisited, h, hentry]
        · have hmem : id ∉ (entry :: entries).map (·.1) := by
            simpa [Ne.symm heq] using hlater
          rw [if_neg hmem, surfaceUnvisited]
          split
          · rfl
          · simp [Std.ExtTreeMap.getElem?_insert, heq]

/-- A visit leaves the entries of other nodes. -/
theorem record_visit_other {visit : String × Ancestry} (out : Std.ExtTreeMap String Inferred)
    (h : visit.1 ≠ id) : (recordVisit nodes scopeMax visit out)[id]? = out[id]? := by
  unfold recordVisit
  split
  · simp [Std.ExtTreeMap.getElem?_insert, h]
  · rfl

/-- Neither unvisited nodes nor dangling references have an entry among the visits. -/
theorem record_visits_none {visits : List (String × Ancestry)}
    (h : id ∉ visits.map (·.1) ∨ nodes[id]? = none) :
    (visits.foldr (recordVisit nodes scopeMax) ∅)[id]? = none := by
  induction visits with
  | nil => simp
  | cons visit visits ih =>
      have hrest := ih (h.imp_left fun hid => fun hmem => hid (by simp [hmem]))
      rw [List.foldr_cons]
      by_cases heq : visit.1 = id
      · have hdangling : nodes[id]? = none := h.resolve_left (by simp [heq])
        rw [recordVisit, heq, hdangling]
        exact hrest
      · rw [record_visit_other _ heq, hrest]

/-- The visit of a node of the map is recorded. -/
theorem record_visits_visited {visits : List (String × Ancestry)}
    (hnodup : (visits.map (·.1)).Nodup) {ancestry : Ancestry} (hvisit : (id, ancestry) ∈ visits)
    (hnode : nodes[id]? = some n) :
    (visits.foldr (recordVisit nodes scopeMax) ∅)[id]? =
      some (inferNode scopeMax ancestry n) := by
  induction visits with
  | nil => cases hvisit
  | cons visit visits ih =>
      rw [List.map_cons, List.nodup_cons] at hnodup
      rw [List.foldr_cons]
      rcases List.mem_cons.1 hvisit with rfl | hrest
      · simp [recordVisit, hnode]
      · have hne : visit.1 ≠ id := fun heq => hnodup.1 (heq ▸ List.mem_map_of_mem hrest)
        rw [record_visit_other _ hne, ih hnodup.2 hrest]

/-- An enumeration of the map holds each node under its id. -/
theorem enumeration_mem (hentries : entries.Perm nodes.toList) :
    (∀ entry ∈ entries, nodes[entry.1]? = some entry.2) ∧
      (id ∈ entries.map (·.1) ↔ id ∈ nodes) := by
  constructor
  · rintro ⟨key, value⟩ hentry
    exact Std.ExtTreeMap.mem_toList_iff_getElem?_eq_some.1 (hentries.mem_iff.1 hentry)
  · rw [(hentries.map _).mem_iff, Std.ExtTreeMap.map_fst_toList_eq_keys,
      Std.ExtTreeMap.mem_keys]

/-- The output entry of a visited node. -/
theorem output_visited (hnodup : final.visited.Nodup) {ancestry : Ancestry}
    (hvisit : (id, ancestry) ∈ final.visits) (hnode : nodes[id]? = some n) :
    (outputOf nodes scopeMax entries final)[id]? = some (inferNode scopeMax ancestry n) := by
  rw [outputOf, surface_visited _ (visited_of_visit hvisit),
    record_visits_visited hnodup hvisit hnode]

/-- The output entry of an unvisited node. -/
theorem output_unvisited (hentries : entries.Perm nodes.toList) (hid : id ∉ final.visited) :
    (outputOf nodes scopeMax entries final)[id]? =
      nodes[id]?.map fun n => ⟨n.status.getD "pending", none⟩ := by
  have hmem := @enumeration_mem _ _ id hentries
  rw [outputOf, surface_unvisited _ hmem.1 hid, record_visits_none (Or.inl hid)]
  split
  · rfl
  · rename_i hout
    have hnone : nodes[id]? = none :=
      Std.ExtTreeMap.getElem?_eq_none fun hin => hout (hmem.2.2 hin)
    simp [hnone]

/-- The output has exactly one entry for each id of the map. -/
theorem mem_output (hentries : entries.Perm nodes.toList) (hnodup : final.visited.Nodup) :
    id ∈ outputOf nodes scopeMax entries final ↔ id ∈ nodes := by
  rw [Std.ExtTreeMap.mem_iff_isSome_getElem?, Std.ExtTreeMap.mem_iff_isSome_getElem?]
  by_cases hid : id ∈ final.visited
  · obtain ⟨ancestry, hvisit⟩ := visit_of_visited hid
    cases hnode : nodes[id]? with
    | some n => simp [output_visited hnodup hvisit hnode]
    | none => simp [outputOf, surface_visited _ hid, record_visits_none (Or.inr hnode)]
  · simp [output_unvisited hentries hid]

end Output

/-! ## The definition by paths -/

/-- A terminal node of a current generation decides about its descendants. -/
def decides (nodes : NodeMap) (scopeMax : ScopeMax) (id : String) : Bool :=
  nodes[id]?.any fun n => isTerminal n.status && !stampSuperseded scopeMax n

/-- The generation stamped on a node, with the node. -/
def stampedGeneration (nodes : NodeMap) (id : String) : Option (Int × String) :=
  nodes[id]?.bind fun n => (stampOf n.statusDetails).map fun stamp => (stamp.2, id)

/-- The nearest deciding node of a path of proper ancestors, root first. -/
def nearestDecider (nodes : NodeMap) (scopeMax : ScopeMax) (path : List String) : Option String :=
  path.reverse.find? (decides nodes scopeMax)

/-- The latest node of the path that carries its greatest generation, with the generation. -/
def latestGreatest (nodes : NodeMap) (path : List String) : Option (Int × String) :=
  @List.argmax _ _ Int.instLinearOrder.toPreorder Int.decLt (·.1)
    (path.reverse.filterMap (stampedGeneration nodes))

/-- The status of a node whose proper ancestors are `path`, root first. -/
def inferAlong (nodes : NodeMap) (scopeMax : ScopeMax) (path : List String) (n : NodeFacts) :
    Inferred :=
  if isTerminal n.status && !stampSuperseded scopeMax n then ⟨n.status.getD "pending", none⟩
  else
    match nearestDecider nodes scopeMax path with
    | some ancestor => ⟨"skipped", some ancestor⟩
    | none =>
        if isTerminal n.status then ⟨"pending", (latestGreatest nodes path).map (·.2)⟩
        else if n.status = some "running" then ⟨"running", none⟩
        else ⟨"pending", none⟩

/-- A new last node of the path is the nearest decider when it decides. -/
theorem nearest_decider_snoc (nodes : NodeMap) (scopeMax : ScopeMax) (path : List String)
    (id : String) :
    nearestDecider nodes scopeMax (path ++ [id]) =
      if decides nodes scopeMax id then some id else nearestDecider nodes scopeMax path := by
  simp only [nearestDecider, List.reverse_append, List.reverse_cons, List.reverse_nil,
    List.nil_append, List.cons_append, List.find?_cons]
  cases decides nodes scopeMax id <;> rfl

/-- A new last node of the path is the latest greatest unless an older one is greater. -/
theorem latest_greatest_snoc (nodes : NodeMap) (path : List String) (id : String) :
    latestGreatest nodes (path ++ [id]) =
      match stampedGeneration nodes id, latestGreatest nodes path with
      | some stamped, some greatest =>
          if stamped.1 < greatest.1 then some greatest else some stamped
      | some stamped, none => some stamped
      | none, previous => previous := by
  simp only [latestGreatest, List.reverse_append, List.reverse_cons, List.reverse_nil,
    List.nil_append, List.cons_append, List.filterMap_cons]
  cases stampedGeneration nodes id with
  | none => rfl
  | some stamped =>
      simp only [List.argmax_cons]
      cases List.argmax (fun stamped : Int × String => stamped.1)
          (path.reverse.filterMap (stampedGeneration nodes)) with
      | none => rfl
      | some greatest => rfl

/-- The frames of the walk carry the nearest decider and the latest greatest generation. -/
theorem inherit_along_path (nodes : NodeMap) (scopeMax : ScopeMax) (path : List String) :
    path.foldl (inferenceGraph nodes scopeMax).inherit noAncestry =
      ⟨nearestDecider nodes scopeMax path, latestGreatest nodes path⟩ := by
  induction path using List.reverseRecOn with
  | nil => rfl
  | append_singleton path id ih =>
      rw [List.foldl_append, ih, List.foldl_cons, List.foldl_nil, nearest_decider_snoc,
        latest_greatest_snoc]
      cases hnode : nodes[id]? with
      | none => simp [inferenceGraph, decides, stampedGeneration, hnode]
      | some n =>
          simp only [inferenceGraph, decides, stampedGeneration, hnode, childAncestry,
            Option.any_some, Option.bind_some]
          cases stampOf n.statusDetails with
          | none => rfl
          | some stamp =>
              cases latestGreatest nodes path with
              | none => rfl
              | some greatest =>
                  rcases lt_or_ge stamp.2 greatest.1 with hlt | hge
                  · simp [hlt, not_le_of_gt hlt]
                  · simp [hge, not_lt_of_ge hge]

/-- A visited node's status is the definition by the path of its frame. -/
theorem infer_node_along (nodes : NodeMap) (scopeMax : ScopeMax) (path : List String)
    (n : NodeFacts) :
    inferNode scopeMax (path.foldl (inferenceGraph nodes scopeMax).inherit noAncestry) n =
      inferAlong nodes scopeMax path n := by
  rw [inherit_along_path]
  unfold inferNode inferAlong
  cases isTerminal n.status <;> cases stampSuperseded scopeMax n <;> simp

/-- The ids of a map bound the walk: nothing else has children. -/
theorem children_outside {nodes : NodeMap} {id : String} (h : id ∉ nodes.keys) :
    childrenIn nodes id = [] := by
  have hnone : nodes[id]? = none :=
    Std.ExtTreeMap.getElem?_eq_none fun hin => h (Std.ExtTreeMap.mem_keys.2 hin)
  simp [childrenIn, hnone]

/-- The walk of the source finishes, so the inference is one of its own orders. -/
theorem infer_statuses_in_order (rootNode : Option String) (nodes : NodeMap) :
    InfersInOrder rootNode nodes (inferStatuses rootNode nodes) := by
  refine ⟨_, _, _, List.Perm.refl _, List.Perm.refl _, ?_, rfl⟩
  cases rootNode with
  | none => rfl
  | some root =>
      refine ⟨steps_run _ _ _, run_finishes _ _ Std.ExtTreeMap.nodup_keys ?_⟩
      exact fun id hid => children_outside hid

/-- In every order the visited nodes are distinct and the output has the ids of the map. -/
theorem mem_infers_in_order {rootNode : Option String} {nodes : NodeMap}
    {out : Std.ExtTreeMap String Inferred} (h : InfersInOrder rootNode nodes out) (id : String) :
    id ∈ out ↔ id ∈ nodes := by
  obtain ⟨values, entries, final, -, hentries, hfinal, rfl⟩ := h
  refine mem_output hentries ?_
  cases rootNode with
  | none =>
      rw [hfinal]
      exact List.nodup_nil
  | some root => exact (steps_invariant hfinal.1).nodup

/-- Under `children_of` from the root every node has one path. -/
def IsTree (rootNode : Option String) (nodes : NodeMap) : Prop :=
  ∀ root, rootNode = some root → ∀ id path path', PathTo (childrenIn nodes) root path id →
    PathTo (childrenIn nodes) root path' id → path = path'

/-- The entry that the definition by paths gives to a node: the one of its path from the root, or
its stored status when there is none. -/
def EntryByPath (rootNode : Option String) (nodes : NodeMap) (id : String) (n : NodeFacts)
    (entry : Inferred) : Prop :=
  (∃ root path, rootNode = some root ∧ PathTo (childrenIn nodes) root path id ∧
      entry = inferAlong nodes (scopeMaxOf (nodes.toList.map (·.2))) path n) ∨
    ((∀ root path, rootNode = some root → ¬ PathTo (childrenIn nodes) root path id) ∧
      entry = ⟨n.status.getD "pending", none⟩)

/-- On every node map, in every order, each node has the entry of some path to it. -/
theorem entry_by_path {rootNode : Option String} {nodes : NodeMap}
    {out : Std.ExtTreeMap String Inferred} (h : InfersInOrder rootNode nodes out) {id : String}
    {n : NodeFacts} (hnode : nodes[id]? = some n) :
    ∃ entry, out[id]? = some entry ∧ EntryByPath rootNode nodes id n entry := by
  obtain ⟨values, entries, final, hvalues, hentries, hfinal, rfl⟩ := h
  rw [scope_max_perm hvalues] at hfinal ⊢
  by_cases hid : id ∈ final.visited
  · cases rootNode with
    | none => simp [hfinal, State.visited] at hid
    | some root =>
        have hinv := steps_invariant hfinal.1
        obtain ⟨ancestry, hvisit⟩ := visit_of_visited hid
        obtain ⟨path, hpath, hattr⟩ := hinv.along_path _ (List.mem_append_right _ hvisit)
        refine ⟨_, output_visited hinv.nodup hvisit hnode, Or.inl ⟨root, path, rfl, hpath, ?_⟩⟩
        rw [← infer_node_along, ← hattr]
  · refine ⟨⟨n.status.getD "pending", none⟩, ?_, Or.inr ⟨?_, rfl⟩⟩
    · simp [output_unvisited hentries hid, hnode]
    · rintro root path rfl hpath
      exact hid ((visited_iff_path hfinal.1 hfinal.2).2 ⟨path, hpath⟩)

/-- On trees the entry by paths is unique. -/
theorem entry_by_path_unique {rootNode : Option String} {nodes : NodeMap} {id : String}
    {n : NodeFacts} {entry entry' : Inferred} (htree : IsTree rootNode nodes)
    (h : EntryByPath rootNode nodes id n entry) (h' : EntryByPath rootNode nodes id n entry') :
    entry = entry' := by
  rcases h with ⟨root, path, hroot, hpath, rfl⟩ | ⟨hnone, rfl⟩ <;>
    rcases h' with ⟨root', path', hroot', hpath', rfl⟩ | ⟨hnone', rfl⟩
  · obtain rfl : root = root' := Option.some.inj (hroot.symm.trans hroot')
    rw [htree root hroot id path path' hpath hpath']
  · exact absurd hpath (hnone' root path hroot)
  · exact absurd hpath' (hnone root' path' hroot')
  · rfl

/-- The inference finishes on every node map with exactly one entry per id, and on trees every
order of the map and of the pending frames gives the same output, the one defined by paths. -/
theorem infer_statuses_top_down (rootNode : Option String) (nodes : NodeMap) :
    InfersInOrder rootNode nodes (inferStatuses rootNode nodes) ∧
      (∀ out, InfersInOrder rootNode nodes out → ∀ id, id ∈ out ↔ id ∈ nodes) ∧
      (IsTree rootNode nodes → ∀ out, InfersInOrder rootNode nodes out →
        out = inferStatuses rootNode nodes ∧
          ∀ id n, nodes[id]? = some n → ∀ entry, out[id]? = some entry ↔
            EntryByPath rootNode nodes id n entry) := by
  refine ⟨infer_statuses_in_order rootNode nodes, fun out h => mem_infers_in_order h,
    fun htree out h => ⟨?_, fun id n hnode entry => ?_⟩⟩
  · refine Std.ExtTreeMap.ext_getElem? fun id => ?_
    have hsource := infer_statuses_in_order rootNode nodes
    cases hnode : nodes[id]? with
    | none =>
        have hout : ∀ out', InfersInOrder rootNode nodes out' → out'[id]? = none := by
          intro out' hout'
          refine Std.ExtTreeMap.getElem?_eq_none fun hin => ?_
          rw [mem_infers_in_order hout', Std.ExtTreeMap.mem_iff_isSome_getElem?, hnode] at hin
          cases hin
        rw [hout out h, hout _ hsource]
    | some n =>
        obtain ⟨entry, hentry, hpath⟩ := entry_by_path h hnode
        obtain ⟨entry', hentry', hpath'⟩ := entry_by_path hsource hnode
        rw [hentry, hentry', entry_by_path_unique htree hpath hpath']
  · obtain ⟨entry', hentry', hpath'⟩ := entry_by_path h hnode
    constructor
    · intro hentry
      obtain rfl : entry' = entry := Option.some.inj (hentry'.symm.trans hentry)
      exact hpath'
    · intro hpath
      rw [hentry', entry_by_path_unique htree hpath hpath']

/-- A body row that still holds the `running` of its loop's first generation. -/
def leftoverBody : NodeFacts :=
  ⟨"SQL", some "SELECT 1", none, none, some "running",
    some "\x7b\"execution_id\":\"cccccccc::1\"\x7d"⟩

/-- The rows of a loop in its second generation around the leftover body. -/
def loopAroundLeftover (loopStatus : String) : NodeMap :=
  (Std.ExtTreeMap.ofList [("bbbbbbbb", leftoverBody)]).insert "aaaaaaaa"
    ⟨"LOOP", none, some "bbbbbbbb", none, some loopStatus,
      some "\x7b\"execution_id\":\"cccccccc::2\"\x7d"⟩

/-- The theorem at the finished loop, whose map is a tree: every order of the inference is the one
of the source. -/
theorem finished_loop_order_independent :
    ∀ out, InfersInOrder (some "aaaaaaaa") (loopAroundLeftover "completed") out →
      out = inferStatuses (some "aaaaaaaa") (loopAroundLeftover "completed") := by
  have hpaths : ∀ path id,
      PathTo (childrenIn (loopAroundLeftover "completed")) "aaaaaaaa" path id →
      (id = "aaaaaaaa" ∧ path = []) ∨ (id = "bbbbbbbb" ∧ path = ["aaaaaaaa"]) := by
    intro path id hpath
    induction hpath with
    | root => exact Or.inl ⟨rfl, rfl⟩
    | child _ hchild ih =>
        rcases ih with ⟨rfl, rfl⟩ | ⟨rfl, rfl⟩
        · have hloop : childrenIn (loopAroundLeftover "completed") "aaaaaaaa" = ["bbbbbbbb"] := by
            decide +kernel
          exact Or.inr ⟨by simpa [hloop] using hchild, rfl⟩
        · have hbody : childrenIn (loopAroundLeftover "completed") "bbbbbbbb" = [] := by
            decide +kernel
          simp [hbody] at hchild
  have htree : IsTree (some "aaaaaaaa") (loopAroundLeftover "completed") := by
    rintro root hroot id path path' hpath hpath'
    obtain rfl : "aaaaaaaa" = root := Option.some.inj hroot
    rcases hpaths path id hpath with ⟨rfl, rfl⟩ | ⟨rfl, rfl⟩ <;>
      rcases hpaths path' _ hpath' with ⟨hid, rfl⟩ | ⟨hid, rfl⟩ <;> simp at hid ⊢
  exact fun out h =>
    (((infer_statuses_top_down (some "aaaaaaaa") (loopAroundLeftover "completed")).2.2 htree)
      out h).1

/-! ## Superseded nodes -/

/-- The walk that records whole paths of ancestors instead of what the inference needs of them. -/
def pathGraph (nodes : NodeMap) : Walk.Graph String (List String) where
  children := childrenIn nodes
  inherit path id := path ++ [id]

/-- The depth-first paths from the root: each node reached, with the ancestors on the way by which
a depth-first search that prefers later children enters it. -/
def depthFirstPaths (root : String) (nodes : NodeMap) : List (String × List String) :=
  ((pathGraph nodes).run ((pathGraph nodes).bound nodes.keys) (start root [])).visits

/-- The walk of the inference follows the depth-first paths. -/
theorem inference_follows_paths (root : String) (nodes : NodeMap) (scopeMax : ScopeMax) :
    (inferenceGraph nodes scopeMax).run ((inferenceGraph nodes scopeMax).bound nodes.keys)
        (start root noAncestry) =
      State.map (fun path => path.foldl (inferenceGraph nodes scopeMax).inherit noAncestry)
        ((pathGraph nodes).run ((pathGraph nodes).bound nodes.keys) (start root [])) := by
  rw [← @run_map _ _ _ _ (pathGraph nodes) (inferenceGraph nodes scopeMax) _ rfl
    (by simp [pathGraph])]
  rfl

/-- The entry of a node on a depth-first path is the one of that path. -/
theorem infer_statuses_depth_first {root id : String} {nodes : NodeMap} {n : NodeFacts}
    {path : List String} (hnode : nodes[id]? = some n)
    (hpath : (id, path) ∈ depthFirstPaths root nodes) :
    (inferStatuses (some root) nodes)[id]? =
      some (inferAlong nodes (scopeMaxOf (nodes.toList.map (·.2))) path n) := by
  rw [← infer_node_along]
  refine output_visited ?_ ?_ hnode
  · exact (steps_invariant (steps_run _ _ _)).nodup
  · simp only [inference_follows_paths]
    exact List.mem_map.2 ⟨(id, path), hpath, rfl⟩

/-- Every node under the root has a depth-first path. -/
theorem depth_first_path_exists {root id : String} {nodes : NodeMap} {path : List String}
    (hpath : PathTo (childrenIn nodes) root path id) :
    ∃ path', (id, path') ∈ depthFirstPaths root nodes := by
  refine visit_of_visited ((visited_iff_path (steps_run _ _ _) ?_).2 ⟨path, hpath⟩)
  exact run_finishes _ _ Std.ExtTreeMap.nodup_keys fun id hid => children_outside hid

/-- A node reads as inactive: `pending` or `skipped`. -/
def ReadsInactive (root : String) (nodes : NodeMap) (id : String) : Prop :=
  ∃ entry, (inferStatuses (some root) nodes)[id]? = some entry ∧
    (entry.status = "pending" ∨ entry.status = "skipped")

/-- Along a path, a superseded node is active exactly when it is stored as `running` and nothing
above it decides. -/
theorem superseded_along_iff {nodes : NodeMap} {scopeMax : ScopeMax} {n : NodeFacts}
    (path : List String) (hsuperseded : stampSuperseded scopeMax n = true) :
    ((inferAlong nodes scopeMax path n).status = "pending" ∨
        (inferAlong nodes scopeMax path n).status = "skipped") ↔
      (n.status = some "running" → ∃ ancestor ∈ path, decides nodes scopeMax ancestor = true) := by
  have hdecider : (∃ ancestor ∈ path, decides nodes scopeMax ancestor = true) ↔
      (nearestDecider nodes scopeMax path).isSome = true := by
    simp [nearestDecider, List.find?_isSome]
  rw [hdecider]
  unfold inferAlong
  cases nearestDecider nodes scopeMax path with
  | some ancestor => simp [hsuperseded]
  | none =>
      by_cases hrunning : n.status = some "running"
      · simp [hsuperseded, hrunning, isTerminal]
      · cases hterminal : isTerminal n.status <;> simp [hsuperseded, hrunning]

/-- A node of a superseded generation reads as `pending` or `skipped` exactly when it is not
stored as `running` or a deciding node stands above it on its depth-first path. -/
theorem superseded_reads_inactive_iff {root id : String} {nodes : NodeMap} {n : NodeFacts}
    (hnode : nodes[id]? = some n)
    (hreach : ∃ path, PathTo (childrenIn nodes) root path id)
    (hsuperseded : stampSuperseded (scopeMaxOf (nodes.toList.map (·.2))) n = true) :
    ReadsInactive root nodes id ↔
      (n.status = some "running" → ∀ path, (id, path) ∈ depthFirstPaths root nodes →
        ∃ ancestor ∈ path,
          decides nodes (scopeMaxOf (nodes.toList.map (·.2))) ancestor = true) := by
  constructor
  · rintro ⟨entry, hentry, hinactive⟩ hrunning path hpath
    rw [infer_statuses_depth_first hnode hpath, Option.some.injEq] at hentry
    subst hentry
    exact (superseded_along_iff path hsuperseded).1 hinactive hrunning
  · intro hdecided
    obtain ⟨_, hsome⟩ := hreach
    obtain ⟨path, hpath⟩ := depth_first_path_exists hsome
    exact ⟨_, infer_statuses_depth_first hnode hpath,
      (superseded_along_iff path hsuperseded).2 fun hrunning => hdecided hrunning path hpath⟩

/-- The theorem at a finished loop: it decides, so the leftover body reads as `skipped`. -/
theorem finished_loop_hides_leftover :
    ReadsInactive "aaaaaaaa" (loopAroundLeftover "completed") "bbbbbbbb" := by
  have hpaths : depthFirstPaths "aaaaaaaa" (loopAroundLeftover "completed") =
      [("bbbbbbbb", ["aaaaaaaa"]), ("aaaaaaaa", [])] := by decide +kernel
  refine (superseded_reads_inactive_iff (n := leftoverBody) (by decide +kernel)
    ⟨["aaaaaaaa"], ?_⟩ (by decide +kernel)).2 fun _ path hpath => ?_
  · exact @PathTo.child _ _ _ [] _ _ PathTo.root (by decide +kernel)
  · rw [hpaths] at hpath
    simp only [List.mem_cons, Prod.mk.injEq, true_and, List.not_mem_nil, or_false] at hpath
    rcases hpath with rfl | ⟨hid, -⟩
    · exact ⟨"aaaaaaaa", by simp, by decide +kernel⟩
    · exact absurd hid (by decide)

/-- A superseded body row stored as `running` under a running loop reads as `running`. -/
theorem running_loop_shows_leftover :
    (loopAroundLeftover "running")["bbbbbbbb"]? = some leftoverBody ∧
      PathTo (childrenIn (loopAroundLeftover "running")) "aaaaaaaa" ["aaaaaaaa"] "bbbbbbbb" ∧
      stampSuperseded (scopeMaxOf ((loopAroundLeftover "running").toList.map (·.2)))
        leftoverBody = true ∧
      ¬ ReadsInactive "aaaaaaaa" (loopAroundLeftover "running") "bbbbbbbb" := by
  refine ⟨by decide +kernel, ?_, by decide +kernel, ?_⟩
  · exact @PathTo.child _ _ _ [] _ _ PathTo.root (by decide +kernel)
  · have hrunning : (inferStatuses (some "aaaaaaaa") (loopAroundLeftover "running"))["bbbbbbbb"]? =
        some ⟨"running", none⟩ := by decide +kernel
    rintro ⟨entry, hentry, hinactive⟩
    rw [hrunning, Option.some.injEq] at hentry
    subst hentry
    revert hinactive
    decide

end PgDurable.NodeStatus
