import PgDurable.Orchestration.Nodes

/-!
# The orchestrations

`execute` is the root orchestration of an instance and `executeSubtree` the child orchestration of
branches, loops and isolated loop bodies; each of them is one generation, which returns or
continues as new. `runSubtree` and `runExecute` follow the generations. `engine fuel` is the
interpreter whose executions nest at most `fuel` deep; a run that needs more is unresolved.
-/

namespace PgDurable.Orchestration

open Json

/-- How a generation ends. -/
inductive Ended where
  | returned (outcome : Except String String)
  | continuedAsNew (input : String)
  | unresolved
  deriving DecidableEq

/-! ## Children -/

/-- The graph, named results and variables of a child's input. -/
def parseSubtreeParts (input : SubtreeInput) :
    Except String (FunctionGraph × StringMap × StringMap) := do
  let graph ← (FunctionGraph.ofJson input.graph).mapError
    ("Failed to parse graph in ExecuteSubtree: " ++ ·)
  let results ← ((fromStr input.results).bind decodeStringMap).mapError
    ("Failed to parse results in ExecuteSubtree: " ++ ·)
  let vars ←
    match input.vars with
    | some vars =>
        ((fromStr vars).bind decodeStringMap).mapError
          ("Failed to parse vars in ExecuteSubtree: " ++ ·)
    | none => pure ∅
  pure (graph, results, vars)

/-- The execution context of a child. -/
def subtreeExecutionContext (input : SubtreeInput) (vars : StringMap) : ExecutionContext :=
  ⟨vars, input.label, input.failureIsolated, input.iteration, input.nodeId, .subtree⟩

/-- What a child returns for the outcome of its root node. -/
def endSubtree (outcome : Except Stop String) (results : StringMap) : Ended :=
  match outcome with
  | .ok result => .returned (.ok (SubtreeEnvelope.toJson ⟨some .normal, result, results⟩))
  | .error (.raised (.breakWith value)) =>
      .returned (.ok (SubtreeEnvelope.toJson ⟨some .breakLoop, value, results⟩))
  | .error (.raised (.application message)) =>
      .returned (.error (encodeSubtreeApplicationFailure message))
  | .error (.raised (.failure message)) => .returned (.error message)
  | .error (.continuedAsNew input) => .continuedAsNew input
  | .error .unresolved => .unresolved

/-- One generation of a child: parse its input and execute its root node. A startup error stamps
the root node failed. -/
def executeSubtree (engine : Engine) (ctx : OrchestrationContext) (inputJson : String) :
    List Event × Ended :=
  match SubtreeInput.ofJson inputJson with
  | .error e => ([], .returned (.error ("Failed to parse ExecuteSubtree input: " ++ e)))
  | .ok input =>
      match parseSubtreeParts input with
      | .error e =>
          let status := serializeNodeStatusInput input.nodeId input.instanceId "failed" (some e)
            ctx.stamp
          ([.activity ctx.site updateNodeStatusName status
            (ctx.world.activity ctx.path updateNodeStatusName status 0)], .returned (.error e))
      | .ok (graph, results, vars) =>
          let run := engine.node ctx graph input.nodeId (subtreeExecutionContext input vars)
            ⟨results, []⟩
          (run.2.log, endSubtree run.1 run.2.results)

/-- Follow the generations of a child to its outcome. -/
def runSubtree (engine : Engine) (ctx : OrchestrationContext) (inputJson : String) :
    List Event × Option (Except String String) :=
  match executeSubtree engine ctx inputJson with
  | (log, .returned outcome) => (log, some outcome)
  | (log, .continuedAsNew input) =>
      let rest := engine.subtree { ctx with executionId := ctx.executionId + 1 } input
      (log ++ rest.1, rest.2)
  | (log, .unresolved) => (log, none)

/-- The interpreter with executions nested at most `fuel` deep. -/
def engine : Nat → Engine
  | 0 => ⟨fun _ _ _ _ => Program.exit .unresolved, fun _ _ => ([], none)⟩
  | fuel + 1 => ⟨executeFunctionNodeWithVars (engine fuel), runSubtree (engine fuel)⟩

/-! ## Graph admission -/

/-- The delay before poll `attempt`, in milliseconds: doubling from 100 up to 5000. -/
def transactionPollDelay (attempt : Nat) : Nat := min (100 * 2 ^ min attempt 6) 5000

/-- The polls after which a generation compacts its history. -/
def graphWaitPollsPerExecution : Nat := 64

/-- The transient retries that graph admission absorbs. -/
def maxGraphRetryAttempts : Nat := 20

/-- `saturating_add(1)` on 32 bits. -/
def saturatingSucc (counter : Nat) : Nat := min (counter + 1) (2 ^ 32 - 1)

/-- The answer of the transaction-aware probe. -/
inductive TransactionGraphProbe where
  | ready (graph : String)
  | inProgress
  | retry
  | aborted
  | committedMissing
  deriving DecidableEq

/-- Read the answer of the probe, tagged by its state. -/
def TransactionGraphProbe.decode : Value → Except String TransactionGraphProbe :=
  decodeRecord fun value => do
    match ← readRequired decodeString "state" value with
    | "ready" => (readRequired decodeString "graph" value).map .ready
    | "in_progress" => pure .inProgress
    | "retry" => pure .retry
    | "aborted" => pure .aborted
    | "committed_missing" => pure .committedMissing
    | other => throw ("unknown variant \"" ++ other ++ "\"")

/-- Poll the probe until it settles, at most `polls` more times in this generation. Scheduled
probes are told apart by the generation and the polls it made. -/
def pollGraph (ctx : OrchestrationContext) (input : FunctionInput) (originXid : String) :
    (polls waitAttempt retryAttempt : Nat) → Orch (Except String String)
  | 0, waitAttempt, retryAttempt =>
      Program.exit (.continuedAsNew (FunctionInput.toJson
        { input with graphWaitAttempt := waitAttempt, graphRetryAttempt := retryAttempt }))
  | polls + 1, waitAttempt, retryAttempt => do
      let raw ← scheduleActivity ctx transactionAwareName
        (print (.object [("instance_id", .string input.instanceId),
          ("origin_xid", .string originXid)]))
        (ctx.executionId * graphWaitPollsPerExecution + (graphWaitPollsPerExecution - (polls + 1)))
      match raw.bind fun raw => ((fromStr raw).bind TransactionGraphProbe.decode).mapError
          ("Failed to parse transaction-aware graph probe result: " ++ ·) with
      | .error e => pure (.error e)
      | .ok (.ready graph) => pure (.ok graph)
      | .ok .inProgress => do
          scheduleTimer ctx (transactionPollDelay waitAttempt * 10 ^ 6)
          pollGraph ctx input originXid polls (saturatingSucc waitAttempt) retryAttempt
      | .ok .retry =>
          let retryAttempt := saturatingSucc retryAttempt
          if retryAttempt > maxGraphRetryAttempts then
            pure (.error ("Instance " ++ input.instanceId ++
              " graph admission for origin transaction " ++ originXid ++ " failed: exceeded " ++
              toString maxGraphRetryAttempts ++ " transient retries"))
          else do
            scheduleTimer ctx (transactionPollDelay retryAttempt * 10 ^ 6)
            pollGraph ctx input originXid polls waitAttempt retryAttempt
      | .ok .aborted =>
          pure (.error ("Instance " ++ input.instanceId ++ " origin transaction " ++ originXid ++
            " aborted before its graph became visible"))
      | .ok .committedMissing =>
          pure (.error ("Instance " ++ input.instanceId ++ " origin transaction " ++ originXid ++
            " committed but its instance graph is absent (the start may have been rolled back " ++
            "to a savepoint)"))

/-- Load the graph of a new instance. Inputs of earlier binaries have no transaction. -/
def loadInitialGraph (ctx : OrchestrationContext) (input : FunctionInput) :
    Orch (Except String String) :=
  match input.originXid with
  | none => scheduleActivity ctx loadFunctionGraphName input.instanceId 0
  | some originXid =>
      pollGraph ctx input originXid graphWaitPollsPerExecution input.graphWaitAttempt
        input.graphRetryAttempt

/-! ## The root orchestration -/

/-- The retries of a terminal instance status write. -/
def maxStatusFinalizeAttempts : Nat := 20

/-- Write a terminal instance status, with `retries` left after attempt `attempt`. -/
def finalizeFrom (ctx : OrchestrationContext) (instanceId status : String) :
    (attempt retries : Nat) → Orch Unit
  | attempt, retries => do
      match ← scheduleActivity ctx updateInstanceStatusName (instanceStatusInput instanceId status)
          attempt with
      | .ok _ => pure ()
      | .error _ =>
          match retries with
          | 0 => pure ()
          | retries + 1 => do
              scheduleTimer ctx (transactionPollDelay attempt * 10 ^ 6)
              finalizeFrom ctx instanceId status (attempt + 1) retries

/-- Durably drive a terminal instance status write to completion. -/
def finalizeInstanceStatus (ctx : OrchestrationContext) (instanceId status : String) : Orch Unit :=
  finalizeFrom ctx instanceId status 0 maxStatusFinalizeAttempts

/-- The outcome of the orchestration for the outcome of the root node: a break that reaches the
root was used outside of a loop. -/
def functionResult : Except NodeError String → Except String String
  | .ok result => .ok result
  | .error (.application message) => .error message
  | .error (.failure message) => .error message
  | .error (.breakWith _) =>
      .error ("df.break() was called outside of a loop. df.break() may only be used inside " ++
        "df.loop().")

/-- The execution context of the root orchestration. -/
def rootExecutionContext (input : FunctionInput) (graph : FunctionGraph) : ExecutionContext :=
  ⟨input.vars, input.label, false, input.loopIteration, graph.rootNodeId, .root⟩

/-- Execute a loaded graph and finalize the instance. -/
def executeGraph (engine : Engine) (ctx : OrchestrationContext) (input : FunctionInput)
    (graph : FunctionGraph) : Orch (Except String String) := do
  let _ ← scheduleActivity ctx updateInstanceStatusName
    (instanceStatusInput input.instanceId "running") ctx.executionId
  let outcome ←
    match ← Program.attempt
        (engine.node ctx graph graph.rootNodeId (rootExecutionContext input graph)) with
    | .ok result => pure (functionResult (.ok result))
    | .error (.raised error) => pure (functionResult (.error error))
    | .error stop => Program.exit stop
  finalizeInstanceStatus ctx input.instanceId
    (match outcome with | .ok _ => "completed" | .error _ => "failed")
  pure outcome

/-- One generation of the root orchestration, as a program. -/
def executeInput (engine : Engine) (ctx : OrchestrationContext) (inputJson : String) :
    Orch (Except String String) :=
  match FunctionInput.ofJson inputJson with
  | .error e => pure (.error ("Invalid orchestration input: " ++ e))
  | .ok input => do
      match ← (match input.graph with
          | some json => pure (.ok json)
          | none => loadInitialGraph ctx input) with
      | .error e => do
          finalizeInstanceStatus ctx input.instanceId "failed"
          pure (.error e)
      | .ok json =>
          match FunctionGraph.ofJson json with
          | .error e => pure (.error ("Failed to parse function graph: " ++ e))
          | .ok graph => executeGraph engine ctx input graph

/-- How the program of a generation ends. -/
def endExecute : Except Stop (Except String String) → Ended
  | .ok outcome => .returned outcome
  | .error (.continuedAsNew input) => .continuedAsNew input
  | .error (.raised error) => .returned (functionResult (.error error))
  | .error .unresolved => .unresolved

/-- One generation of the root orchestration: named results start empty. -/
def execute (engine : Engine) (ctx : OrchestrationContext) (inputJson : String) :
    List Event × Ended :=
  let run := executeInput engine ctx inputJson ⟨∅, []⟩
  (run.2.log, endExecute run.1)

/-- Follow at most `fuel` generations of the root orchestration. -/
def runExecute (engine : Engine) : Nat → OrchestrationContext → String →
    List Event × Option (Except String String)
  | 0, _, _ => ([], none)
  | fuel + 1, ctx, inputJson =>
      match execute engine ctx inputJson with
      | (log, .returned outcome) => (log, some outcome)
      | (log, .continuedAsNew input) =>
          let rest := runExecute engine fuel { ctx with executionId := ctx.executionId + 1 } input
          (log ++ rest.1, rest.2)
      | (log, .unresolved) => (log, none)

end PgDurable.Orchestration
