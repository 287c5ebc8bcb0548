import PgDurable.Library.Json.Codec

/-!
# Function graphs and their JSON forms

The graph of a durable function, the input of its root orchestration and the configuration of a
loop node, with the texts they are serialized to and read from. `decode_graph_encode` and
`from_str_graph` say that a graph survives being written and read again, which every
sub-orchestration and every `continue_as_new` does to it.
-/

namespace PgDurable

open Json

/-- Named results and workflow variables. -/
abbrev StringMap := Std.ExtTreeMap String String

/-- How substituted SQL values are quoted. -/
inductive SqlQuotingVersion where
  | legacy
  | v1
  deriving DecidableEq

/-- A node of the function graph. -/
structure FunctionNode where
  id : String
  nodeType : String
  query : Option String
  resultName : Option String
  leftNode : Option String
  rightNode : Option String
  submittedBy : String
  database : Option String
  deriving DecidableEq

/-- The entire function graph of an instance. -/
structure FunctionGraph where
  instanceId : String
  rootNodeId : String
  nodes : Std.ExtTreeMap String FunctionNode
  sqlQuotingVersion : SqlQuotingVersion

/-- The input of the root orchestration. -/
structure FunctionInput where
  instanceId : String
  label : Option String
  vars : StringMap
  loopIteration : Nat
  graph : Option String
  originXid : Option String
  graphWaitAttempt : Nat
  graphRetryAttempt : Nat

/-- The configuration of a loop node. -/
structure LoopConfig where
  continueOnFailure : Bool
  conditionNode : Option String
  deriving DecidableEq

/-- A loop without configuration: no condition, failures end it. -/
def LoopConfig.default : LoopConfig := ⟨false, none⟩

/-! ## JSON forms -/

/-- The JSON form of a quoting version. -/
def SqlQuotingVersion.encode : SqlQuotingVersion → Value
  | .legacy => .string "legacy"
  | .v1 => .string "v1"

/-- Read a quoting version. -/
def SqlQuotingVersion.decode (value : Value) : Except String SqlQuotingVersion :=
  match variantName value with
  | some "legacy" => .ok .legacy
  | some "v1" => .ok .v1
  | _ => .error "unknown variant, expected \"legacy\" or \"v1\""

/-- The member of a quoting version, which is skipped for the legacy one. -/
def SqlQuotingVersion.member (version : SqlQuotingVersion) : List (String × Value) :=
  match version with
  | .legacy => []
  | .v1 => [("sql_quoting_version", version.encode)]

/-- The JSON form of a node. -/
def FunctionNode.encode (node : FunctionNode) : Value :=
  .object ([("id", .string node.id), ("node_type", .string node.nodeType),
    ("query", encodeOptionString node.query),
    ("result_name", encodeOptionString node.resultName),
    ("left_node", encodeOptionString node.leftNode),
    ("right_node", encodeOptionString node.rightNode),
    ("submitted_by", .string node.submittedBy)] ++
    optionalMember "database" (node.database.map Value.string))

/-- Read a node. -/
def FunctionNode.decode : Value → Except String FunctionNode :=
  decodeRecord fun value => do
    let id ← readRequired decodeString "id" value
    let nodeType ← readRequired decodeString "node_type" value
    let query ← readOptional decodeString "query" value
    let resultName ← readOptional decodeString "result_name" value
    let leftNode ← readOptional decodeString "left_node" value
    let rightNode ← readOptional decodeString "right_node" value
    let submittedBy ← readRequired decodeString "submitted_by" value
    let database ← readOptional decodeString "database" value
    pure ⟨id, nodeType, query, resultName, leftNode, rightNode, submittedBy, database⟩

/-- Read the members of a node map. -/
def decodeNodeMembers : List (String × Value) → Except String (List (String × FunctionNode))
  | [] => .ok []
  | (key, value) :: rest => do
      let node ← FunctionNode.decode value
      let rest ← decodeNodeMembers rest
      pure ((key, node) :: rest)

/-- The JSON form of a node map, ids in order. -/
def encodeNodes (nodes : Std.ExtTreeMap String FunctionNode) : Value :=
  .object (nodes.toList.map fun entry => (entry.1, entry.2.encode))

/-- Read a node map. -/
def decodeNodes : Value → Except String (Std.ExtTreeMap String FunctionNode)
  | .object members => (decodeNodeMembers members).map (Std.ExtTreeMap.ofList ·)
  | _ => .error "invalid type: expected a map"

/-- The JSON form of a graph. -/
def FunctionGraph.encode (graph : FunctionGraph) : Value :=
  .object ([("instance_id", .string graph.instanceId), ("root_node_id", .string graph.rootNodeId),
    ("nodes", encodeNodes graph.nodes)] ++ graph.sqlQuotingVersion.member)

/-- Read a graph. -/
def FunctionGraph.decode : Value → Except String FunctionGraph :=
  decodeRecord fun value => do
    let instanceId ← readRequired decodeString "instance_id" value
    let rootNodeId ← readRequired decodeString "root_node_id" value
    let nodes ← readRequired decodeNodes "nodes" value
    let version ← readDefaulted SqlQuotingVersion.decode .legacy "sql_quoting_version" value
    pure ⟨instanceId, rootNodeId, nodes, version⟩

/-- `serde_json::to_string` of a graph. -/
def FunctionGraph.toJson (graph : FunctionGraph) : String := print graph.encode

/-- `serde_json::from_str` of a graph. -/
def FunctionGraph.ofJson (text : String) : Except String FunctionGraph :=
  (fromStr text).bind FunctionGraph.decode

/-- The member of a counter, which is skipped at zero. -/
def counterMember (key : String) (counter : Nat) : List (String × Value) :=
  if counter = 0 then [] else [(key, .number (.ofNat counter))]

/-- The JSON form of the root input. -/
def FunctionInput.encode (input : FunctionInput) : Value :=
  .object ([("instance_id", .string input.instanceId)] ++
    optionalMember "label" (input.label.map Value.string) ++
    [("vars", encodeStringMap input.vars),
      ("loop_iteration", .number (.ofNat input.loopIteration))] ++
    optionalMember "graph" (input.graph.map Value.string) ++
    optionalMember "origin_xid" (input.originXid.map Value.string) ++
    counterMember "graph_wait_attempt" input.graphWaitAttempt ++
    counterMember "graph_retry_attempt" input.graphRetryAttempt)

/-- Read the root input. -/
def FunctionInput.decode : Value → Except String FunctionInput :=
  decodeRecord fun value => do
    let instanceId ← readRequired decodeString "instance_id" value
    let label ← readOptional decodeString "label" value
    let vars ← readDefaulted decodeStringMap ∅ "vars" value
    let loopIteration ← readDefaulted (decodeNat (2 ^ 64)) 0 "loop_iteration" value
    let graph ← readOptional decodeString "graph" value
    let originXid ← readOptional decodeString "origin_xid" value
    let graphWaitAttempt ← readDefaulted (decodeNat (2 ^ 32)) 0 "graph_wait_attempt" value
    let graphRetryAttempt ← readDefaulted (decodeNat (2 ^ 32)) 0 "graph_retry_attempt" value
    pure ⟨instanceId, label, vars, loopIteration, graph, originXid, graphWaitAttempt,
      graphRetryAttempt⟩

/-- `serde_json::to_string` of the root input. -/
def FunctionInput.toJson (input : FunctionInput) : String := print input.encode

/-- `serde_json::from_str` of the root input. -/
def FunctionInput.ofJson (text : String) : Except String FunctionInput :=
  (fromStr text).bind FunctionInput.decode

/-- Read a loop configuration. -/
def LoopConfig.decode : Value → Except String LoopConfig :=
  decodeRecord fun value => do
    let continueOnFailure ← readDefaulted decodeBool false "continue_on_failure" value
    let conditionNode ← readOptional decodeString "condition_node" value
    pure ⟨continueOnFailure, conditionNode⟩

/-- `serde_json::from_str` of a loop configuration. -/
def LoopConfig.ofJson (text : String) : Except String LoopConfig :=
  (fromStr text).bind LoopConfig.decode

/-! ## Round trips -/

/-- A node is recovered from its JSON form. -/
@[simp] theorem decode_node_encode (node : FunctionNode) :
    FunctionNode.decode node.encode = .ok node := by
  obtain ⟨id, nodeType, query, resultName, leftNode, rightNode, submittedBy, database⟩ := node
  cases query <;> cases resultName <;> cases leftNode <;> cases rightNode <;> cases database <;>
    rfl

/-- The members written for nodes are read back. -/
theorem decode_node_members_map (entries : List (String × FunctionNode)) :
    decodeNodeMembers (entries.map fun entry => (entry.1, entry.2.encode)) = .ok entries := by
  induction entries with
  | nil => rfl
  | cons entry entries ih =>
      simp [decodeNodeMembers, ih, bind, Except.bind, pure, Except.pure]

/-- A node map is recovered from its JSON form. -/
@[simp] theorem decode_nodes_encode (nodes : Std.ExtTreeMap String FunctionNode) :
    decodeNodes (encodeNodes nodes) = .ok nodes := by
  simp [decodeNodes, encodeNodes, decode_node_members_map, Except.map, of_list_to_list]

/-- A graph is recovered from its JSON form. -/
@[simp] theorem decode_graph_encode (graph : FunctionGraph) :
    FunctionGraph.decode graph.encode = .ok graph := by
  obtain ⟨instanceId, rootNodeId, nodes, version⟩ := graph
  have hnodes := decode_nodes_encode nodes
  cases version <;>
    simp [FunctionGraph.decode, FunctionGraph.encode, decodeRecord, readRequired, readDefaulted,
      Value.get?, SqlQuotingVersion.member, SqlQuotingVersion.encode, SqlQuotingVersion.decode,
      variantName, decodeString, List.lookup_cons, hnodes, bind, Except.bind, pure, Except.pure]

/-- The JSON form of an optional string is a leaf. -/
theorem encode_option_string_leaf (text : Option String) :
    (encodeOptionString text).WellFormed ∧ (encodeOptionString text).depth = 0 := by
  cases text <;> exact ⟨trivial, rfl⟩

/-- The JSON form of a node is well formed and flat. -/
theorem encode_node_well_formed (node : FunctionNode) :
    node.encode.WellFormed ∧ node.encode.depth ≤ 1 := by
  obtain ⟨id, nodeType, query, resultName, leftNode, rightNode, submittedBy, database⟩ := node
  have hleaf := encode_option_string_leaf
  cases database <;>
    simp [FunctionNode.encode, optionalMember, Value.WellFormed, Value.WellFormedMembers,
      Value.depth, Value.depthMembers, hleaf]

/-- The JSON form of a graph is well formed and shallow. -/
theorem encode_graph_well_formed (graph : FunctionGraph) :
    graph.encode.WellFormed ∧ graph.encode.depth ≤ 3 := by
  obtain ⟨instanceId, rootNodeId, nodes, version⟩ := graph
  have hmembers : ∀ member ∈ nodes.toList.map fun entry => (entry.1, entry.2.encode),
      member.2.WellFormed ∧ member.2.depth ≤ 1 := by
    intro member hmember
    obtain ⟨entry, _, rfl⟩ := List.mem_map.1 hmember
    exact encode_node_well_formed entry.2
  have hwf := well_formed_members fun member hmember => (hmembers member hmember).1
  have hdepth := depth_members_le fun member hmember => (hmembers member hmember).2
  have hnodup := nodup_map_keys nodes FunctionNode.encode
  cases version <;>
    simp [FunctionGraph.encode, encodeNodes, SqlQuotingVersion.member, SqlQuotingVersion.encode,
      Value.WellFormed, Value.WellFormedMembers, Value.depth, Value.depthMembers, hwf] <;>
    exact ⟨by simpa using hnodup, by omega⟩

/-- A graph is recovered from its text. -/
@[simp] theorem graph_of_json_to_json (graph : FunctionGraph) :
    FunctionGraph.ofJson graph.toJson = .ok graph := by
  obtain ⟨hwf, hdepth⟩ := encode_graph_well_formed graph
  rw [FunctionGraph.ofJson, FunctionGraph.toJson,
    from_str_print hwf (by unfold recursionLimit; omega)]
  exact decode_graph_encode graph

/-- The counters of the root input fit their 64-bit and 32-bit types. -/
structure FunctionInput.Fits (input : FunctionInput) : Prop where
  loopIteration : input.loopIteration < 2 ^ 64
  graphWaitAttempt : input.graphWaitAttempt < 2 ^ 32
  graphRetryAttempt : input.graphRetryAttempt < 2 ^ 32

/-- A natural number within the bound is recovered from its JSON form. -/
theorem decode_nat_number {bound n : Nat} (h : n < bound) (hbound : bound ≤ 2 ^ 64) :
    decodeNat bound (.number (.ofNat n)) = .ok n := by
  have hn : n < 18446744073709551616 := Nat.lt_of_lt_of_le h hbound
  simp only [decodeNat, Value.asU64, Number.asU64, Number.ofNat, Number.isInteger]
  simp [hn, h]

/-- The JSON form of the root input is well formed and shallow. -/
theorem encode_function_input_well_formed (input : FunctionInput) :
    input.encode.WellFormed ∧ input.encode.depth ≤ 2 := by
  obtain ⟨instanceId, label, vars, loopIteration, graph, originXid, wait, retry⟩ := input
  obtain ⟨hmap, hflat⟩ := encode_string_map_well_formed vars
  simp only [FunctionInput.encode, counterMember]
  cases label <;> cases graph <;> cases originXid <;> split_ifs <;>
    simp [optionalMember, Value.WellFormed, Value.WellFormedMembers, Value.depth,
      Value.depthMembers, hmap] <;> omega

/-- A root input is recovered from its text. -/
theorem function_input_of_json_to_json {input : FunctionInput} (h : input.Fits) :
    FunctionInput.ofJson input.toJson = .ok input := by
  obtain ⟨hwf, hdepth⟩ := encode_function_input_well_formed input
  rw [FunctionInput.ofJson, FunctionInput.toJson,
    from_str_print hwf (by unfold recursionLimit; omega)]
  obtain ⟨instanceId, label, vars, loopIteration, graph, originXid, wait, retry⟩ := input
  have hiteration := decode_nat_number h.loopIteration (Nat.le_refl _)
  have hwait := decode_nat_number h.graphWaitAttempt (by decide)
  have hretry := decode_nat_number h.graphRetryAttempt (by decide)
  have hvars := decode_string_map_encode vars
  dsimp only at hiteration hwait hretry
  show FunctionInput.decode _ = _
  simp only [FunctionInput.encode, counterMember]
  cases label <;> cases graph <;> cases originXid <;> split_ifs <;>
    simp_all [FunctionInput.decode, optionalMember, decodeRecord, readRequired, readOptional,
      readDefaulted, Value.get?, List.lookup_cons, decodeString, Except.map, bind, Except.bind, pure,
      Except.pure]

/-- The counters of a root input that was read fit their types. -/
theorem function_input_fits {text : String} {input : FunctionInput}
    (h : FunctionInput.ofJson text = .ok input) : input.Fits := by
  have hcounter : ∀ {bound key value n}, 0 < bound →
      readDefaulted (decodeNat bound) 0 key value = .ok n → n < bound := by
    intro bound key value n hbound hread
    unfold readDefaulted at hread
    split at hread
    · unfold decodeNat at hread
      split at hread
      · split_ifs at hread with hlt
        cases hread
        exact hlt
      · cases hread
    · cases hread
      exact hbound
  obtain ⟨value, -, hvalue⟩ := bind_eq_ok h
  cases value with
  | object members =>
      obtain ⟨instanceId, -, h⟩ := bind_eq_ok hvalue
      obtain ⟨label, -, h⟩ := bind_eq_ok h
      obtain ⟨vars, -, h⟩ := bind_eq_ok h
      obtain ⟨loopIteration, hiteration, h⟩ := bind_eq_ok h
      obtain ⟨graph, -, h⟩ := bind_eq_ok h
      obtain ⟨originXid, -, h⟩ := bind_eq_ok h
      obtain ⟨wait, hwait, h⟩ := bind_eq_ok h
      obtain ⟨retry, hretry, h⟩ := bind_eq_ok h
      cases h
      exact ⟨hcounter (by decide) hiteration, hcounter (by decide) hwait,
        hcounter (by decide) hretry⟩
  | null | bool | number | string | array => cases hvalue

end PgDurable
