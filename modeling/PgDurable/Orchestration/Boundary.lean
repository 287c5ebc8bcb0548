import PgDurable.Instances.InstanceStatus
import PgDurable.NodeStatus.UpdateNodeStatus
import PgDurable.Orchestration.Context

/-!
# The texts that cross orchestration boundaries

Inputs and outcomes of child orchestrations, and the inputs of the status activities, cross their
boundaries as texts. A child returns an envelope with its result, a control signal and the whole
named-results map, or an error text in which an application failure is marked by
`encodeSubtreeApplicationFailure`.

Each text is read back as what was written: `subtree_input_of_json_to_json`,
`envelope_of_json_to_json`, `decode_encode_application_failure`, `node_status_input_of_serialize`
and `instance_status_input_of_json`.
-/

namespace PgDurable.Orchestration

open Json

/-! ## Inputs of children -/

/-- Input envelope of a child orchestration; graph, results and variables are texts. -/
structure SubtreeInput where
  instanceId : String
  nodeId : String
  graph : String
  results : String
  vars : Option String
  label : Option String
  iteration : Nat
  failureIsolated : Bool
  deriving DecidableEq

/-- The JSON form of the input; a cleared isolation flag is skipped. -/
def SubtreeInput.encode (input : SubtreeInput) : Value :=
  .object ([("instance_id", .string input.instanceId), ("node_id", .string input.nodeId),
    ("graph", .string input.graph), ("results", .string input.results),
    ("vars", encodeOptionString input.vars), ("label", encodeOptionString input.label),
    ("iteration", .number (.ofNat input.iteration))] ++
    if input.failureIsolated then [("failure_isolated", .bool true)] else [])

/-- Read the input. -/
def SubtreeInput.decode : Value → Except String SubtreeInput :=
  decodeRecord fun value => do
    let instanceId ← readRequired decodeString "instance_id" value
    let nodeId ← readRequired decodeString "node_id" value
    let graph ← readRequired decodeString "graph" value
    let results ← readRequired decodeString "results" value
    let vars ← readOptional decodeString "vars" value
    let label ← readOptional decodeString "label" value
    let iteration ← readDefaulted (decodeNat (2 ^ 64)) 0 "iteration" value
    let failureIsolated ← readDefaulted decodeBool false "failure_isolated" value
    pure ⟨instanceId, nodeId, graph, results, vars, label, iteration, failureIsolated⟩

/-- `serde_json::to_string` of the input. -/
def SubtreeInput.toJson (input : SubtreeInput) : String := print input.encode

/-- `serde_json::from_str` of the input. -/
def SubtreeInput.ofJson (text : String) : Except String SubtreeInput :=
  (fromStr text).bind SubtreeInput.decode

/-- An input whose counter fits is recovered from its text. -/
theorem subtree_input_of_json_to_json {input : SubtreeInput} (h : input.iteration < 2 ^ 64) :
    SubtreeInput.ofJson input.toJson = .ok input := by
  obtain ⟨instanceId, nodeId, graph, results, vars, label, iteration, failureIsolated⟩ := input
  have hleaf := encode_option_string_leaf
  have hwf : ∀ flag, (SubtreeInput.encode
      ⟨instanceId, nodeId, graph, results, vars, label, iteration, flag⟩).WellFormed ∧
      (SubtreeInput.encode
        ⟨instanceId, nodeId, graph, results, vars, label, iteration, flag⟩).depth ≤ 1 := by
    intro flag
    cases flag <;>
      simp [SubtreeInput.encode, Value.WellFormed, Value.WellFormedMembers, Value.depth,
        Value.depthMembers, hleaf]
  rw [SubtreeInput.ofJson, SubtreeInput.toJson,
    from_str_print (hwf _).1 (by have := (hwf failureIsolated).2; unfold recursionLimit; omega)]
  have hcount : decodeNat 18446744073709551616 (.number (.ofNat iteration)) = .ok iteration :=
    decode_nat_number h (Nat.le_refl _)
  cases vars <;> cases label <;> cases failureIsolated <;>
    simp [Except.bind, SubtreeInput.decode, SubtreeInput.encode, decodeRecord, readRequired,
      readOptional, readDefaulted, Value.get?, List.lookup_cons, encodeOptionString, decodeString,
      decodeBool, hcount, Except.map, bind, pure, Except.pure]

/-! ## Outcomes of children -/

/-- Distinguishes a normal subtree result from one that unwound by `df.break()`. -/
inductive SubtreeControl where
  | normal
  | breakLoop
  deriving DecidableEq

/-- The name of a control signal. -/
def SubtreeControl.name : SubtreeControl → String
  | .normal => "Normal"
  | .breakLoop => "Break"

/-- Read a control signal. -/
def SubtreeControl.decode (value : Value) : Except String SubtreeControl :=
  match variantName value with
  | some "Normal" => .ok .normal
  | some "Break" => .ok .breakLoop
  | _ => .error "unknown variant, expected \"Normal\" or \"Break\""

/-- Envelope of a child's result and its whole named-results map. Only envelopes of earlier
binaries lack the control signal. -/
structure SubtreeEnvelope where
  control : Option SubtreeControl
  result : String
  results : StringMap

/-- The JSON form of an envelope. -/
def SubtreeEnvelope.encode (envelope : SubtreeEnvelope) : Value :=
  .object [("control", encodeOptionString (envelope.control.map SubtreeControl.name)),
    ("result", .string envelope.result), ("results", encodeStringMap envelope.results)]

/-- Read an envelope. -/
def SubtreeEnvelope.decode : Value → Except String SubtreeEnvelope :=
  decodeRecord fun value => do
    let control ← readOptional SubtreeControl.decode "control" value
    let result ← readRequired decodeString "result" value
    let results ← readRequired decodeStringMap "results" value
    pure ⟨control, result, results⟩

/-- `serde_json::to_string` of an envelope. -/
def SubtreeEnvelope.toJson (envelope : SubtreeEnvelope) : String := print envelope.encode

/-- `serde_json::from_str` of an envelope. -/
def SubtreeEnvelope.ofJson (text : String) : Except String SubtreeEnvelope :=
  (fromStr text).bind SubtreeEnvelope.decode

/-- An envelope is recovered from its text. -/
@[simp] theorem envelope_of_json_to_json (envelope : SubtreeEnvelope) :
    SubtreeEnvelope.ofJson envelope.toJson = .ok envelope := by
  obtain ⟨control, result, results⟩ := envelope
  obtain ⟨hmap, hflat⟩ := encode_string_map_well_formed results
  have hleaf := encode_option_string_leaf
  have hwf : (SubtreeEnvelope.encode ⟨control, result, results⟩).WellFormed := by
    simp [SubtreeEnvelope.encode, Value.WellFormed, Value.WellFormedMembers, hleaf, hmap]
  have hdepth : (SubtreeEnvelope.encode ⟨control, result, results⟩).depth ≤ 2 := by
    simp only [SubtreeEnvelope.encode, Value.depth, Value.depthMembers, hleaf]
    omega
  rw [SubtreeEnvelope.ofJson, SubtreeEnvelope.toJson,
    from_str_print hwf (by unfold recursionLimit; omega)]
  have hresults := decode_string_map_encode results
  rcases control with _ | _ | _ <;>
    simp [Except.bind, SubtreeEnvelope.decode, SubtreeEnvelope.encode, decodeRecord, readRequired,
      readOptional, Value.get?, List.lookup_cons, encodeOptionString, SubtreeControl.name,
      SubtreeControl.decode, variantName, decodeString, hresults, Except.map, bind, pure,
      Except.pure]

/-- The member that marks an application failure. -/
def subtreeFailureTag : String := "pg_durable_subtree_failure"

/-- Mark an application failure for the boundary. -/
def encodeSubtreeApplicationFailure (message : String) : String :=
  print (.object [(subtreeFailureTag, .string "application"), ("message", .string message)])

/-- The message of a marked application failure. A tagged value is also read from the array of its
tag and content. -/
def decodeSubtreeApplicationFailure (error : String) : Option String := do
  let value ← parse error
  let (tag, message) ←
    match value with
    | .object _ => do
        let tag ← value.get? subtreeFailureTag
        let message ← value.get? "message"
        pure (tag, message)
    | .array [tag, message] => some (tag, message)
    | _ => none
  if variantName tag = some "application" then message.asStr else none

/-- A marked failure is recognised with its message. -/
@[simp] theorem decode_encode_application_failure (message : String) :
    decodeSubtreeApplicationFailure (encodeSubtreeApplicationFailure message) = some message := by
  rw [decodeSubtreeApplicationFailure, encodeSubtreeApplicationFailure, parse_print]
  · rfl
  · simp [Value.WellFormed, Value.WellFormedMembers, subtreeFailureTag]
  · simp [Value.depth, Value.depthMembers, recursionLimit]

/-- Classify the error text of a child. -/
def classifySubtreeFailure (error : String) : NodeError :=
  match decodeSubtreeApplicationFailure error with
  | some message => .application message
  | none => .failure error

/-- Classify the error text of a child and say where it happened. The source's arm for `Break` is
unreachable. -/
def contextualizeSubtreeFailure (context error : String) : NodeError :=
  match classifySubtreeFailure error with
  | .application message => .application (context ++ ": " ++ message)
  | .failure message => .failure (context ++ ": " ++ message)
  | .breakWith value => .breakWith value

/-- The error text of a child is never taken for a break. -/
theorem contextualized_ne_break (context text value : String) :
    contextualizeSubtreeFailure context text ≠ .breakWith value := by
  unfold contextualizeSubtreeFailure classifySubtreeFailure
  cases decodeSubtreeApplicationFailure text <;> simp

/-- The member by which earlier binaries marked a break inside the result. -/
def legacyBreakSentinel : String := "__break__"

/-- The value of a break marked inside the result. -/
def parseLegacyBreakSentinel (raw : String) : Option String := do
  let value ← parse raw
  if (value.get? legacyBreakSentinel).bind Value.asBool = some true then
    some (((value.get? "value").map print).getD "null")
  else none

/-- Read a child's envelope, merge its named results and return its result; a break is raised
again. -/
def parseSubtreeEnvelope (raw context : String) : Orch String := do
  let envelope ← orFail ((SubtreeEnvelope.ofJson raw).mapError
    ((context ++ " envelope parse error: ") ++ ·))
  extendResults envelope.results
  match envelope.control with
  | some .breakLoop => raise (.breakWith envelope.result)
  | some .normal => pure envelope.result
  | none =>
      match parseLegacyBreakSentinel envelope.result with
      | some value => raise (.breakWith value)
      | none => pure envelope.result

/-- The outcome of a loop iteration whose body ran as a failure-isolated child. -/
inductive FailureIsolatedBodyOutcome where
  | succeeded (result : String)
  | applicationFailed
  | breakWith (value : String)
  deriving DecidableEq

/-- Classify the outcome of a failure-isolated body: only a marked application failure is
consumed. -/
def classifyIsolatedBodyResult (result : Except String String) :
    Orch FailureIsolatedBodyOutcome :=
  match result with
  | .ok raw => do
      match ← Program.attempt (parseSubtreeEnvelope raw "LOOP iteration") with
      | .ok bodyResult => pure (.succeeded bodyResult)
      | .error (.raised (.breakWith value)) => pure (.breakWith value)
      | .error stop => Program.exit stop
  | .error error =>
      match decodeSubtreeApplicationFailure error with
      | some _ => pure .applicationFailed
      | none => fail error

/-! ## Inputs of the status activities -/

/-- The input that a node's own orchestration schedules. -/
def serializeNodeStatusInput (nodeId instanceId status : String) (result : Option String)
    (executionId : String) : String :=
  print (.object ([("node_id", .string nodeId), ("instance_id", .string instanceId),
    ("status", .string status)] ++ optionalMember "result" (result.map Value.string) ++
    [("execution_id", .string executionId)]))

/-- The input that a parent schedules for a loop node; the result comes last. -/
def loopNodeStatusInput (nodeId instanceId status result stamp : String) : String :=
  print (.object [("node_id", .string nodeId), ("instance_id", .string instanceId),
    ("status", .string status), ("execution_id", .string stamp), ("result", .string result)])

/-- The input of an instance status update. -/
def instanceStatusInput (instanceId status : String) : String :=
  print (.object [("instance_id", .string instanceId), ("status", .string status)])

/-- The activity reads the scheduled input of a node status write. -/
theorem node_status_input_of_serialize (nodeId instanceId status : String)
    (result : Option String) (executionId : String) :
    NodeStatus.NodeStatusInput.ofJson
        (serializeNodeStatusInput nodeId instanceId status result executionId) =
      .ok ⟨nodeId, instanceId, status, result, some executionId⟩ := by
  cases result <;>
    (rw [NodeStatus.NodeStatusInput.ofJson, serializeNodeStatusInput, from_str_print
      (by simp [Value.WellFormed, Value.WellFormedMembers, optionalMember])
      (by simp [Value.depth, Value.depthMembers, optionalMember, recursionLimit])]
     rfl)

/-- The activity reads a parent's input for a loop node as the same kind of write. -/
theorem node_status_input_of_loop_stamp (nodeId instanceId status result stamp : String) :
    NodeStatus.NodeStatusInput.ofJson (loopNodeStatusInput nodeId instanceId status result stamp) =
      .ok ⟨nodeId, instanceId, status, some result, some stamp⟩ := by
  rw [NodeStatus.NodeStatusInput.ofJson, loopNodeStatusInput, from_str_print
    (by simp [Value.WellFormed, Value.WellFormedMembers])
    (by simp [Value.depth, Value.depthMembers, recursionLimit])]
  rfl

/-- The activity reads the scheduled input of an instance status write. -/
theorem instance_status_input_of_json (instanceId status : String) :
    Instances.InstanceStatusInput.ofJson (instanceStatusInput instanceId status) =
      .ok ⟨instanceId, status⟩ := by
  rw [Instances.InstanceStatusInput.ofJson, instanceStatusInput, from_str_print
    (by simp [Value.WellFormed, Value.WellFormedMembers])
    (by simp [Value.depth, Value.depthMembers, recursionLimit])]
  rfl

end PgDurable.Orchestration
