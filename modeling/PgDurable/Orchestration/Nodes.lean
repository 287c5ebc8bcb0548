import PgDurable.Graph.Condition
import PgDurable.Graph.HttpConfig
import PgDurable.Orchestration.Boundary

/-!
# The node handlers

One handler for each node type, as the orchestration code has them. Handlers execute other nodes
and spawn children through an `Engine`, which stands for the interpreter itself; tying that knot
is left to the module that defines the orchestrations.
-/

namespace PgDurable.Orchestration

open Json Text

/-! ## The interpreter as the handlers see it -/

/-- Which input an inline loop rebuilds when it continues as new. -/
inductive Continuation where
  | root
  | subtree
  deriving DecidableEq

/-- Execution context with variables and metadata. -/
structure ExecutionContext where
  vars : StringMap
  label : Option String
  /-- An enclosing loop may consume application failures of this subtree. -/
  failureIsolated : Bool
  loopIteration : Nat
  /-- The node at the root of the current orchestration. -/
  subtreeRoot : String
  continuation : Continuation

/-- The interpreter: executing a node in the current orchestration, and running a child
orchestration to its outcome with the log it leaves. -/
structure Engine where
  node : OrchestrationContext → FunctionGraph → String → ExecutionContext → Orch String
  subtree : OrchestrationContext → String → List Event × Option (Except String String)

/-- The twelve node types. -/
inductive NodeKind where
  | sql
  | thenNode
  | sleep
  | waitSchedule
  | loop
  | ifNode
  | join
  | race
  | http
  | httpMultipart
  | signal
  | breakNode
  deriving DecidableEq

/-- `char::to_lowercase` on the letters of node type names: besides ASCII, U+212A is the only
character whose lowercase is an ASCII letter. -/
def toLowercase (c : Char) : Char := if c = '\u212a' then 'k' else c.toLower

/-- `str::to_lowercase` of a node type. -/
def lowercaseType (nodeType : String) : String := String.ofList (nodeType.toList.map toLowercase)

/-- The kind a node type names. -/
def nodeKind (nodeType : String) : Option NodeKind :=
  match lowercaseType nodeType with
  | "sql" => some .sql
  | "then" => some .thenNode
  | "sleep" => some .sleep
  | "wait_schedule" => some .waitSchedule
  | "loop" => some .loop
  | "if" => some .ifNode
  | "join" => some .join
  | "race" => some .race
  | "http" => some .http
  | "http_multipart" => some .httpMultipart
  | "signal" => some .signal
  | "break" => some .breakNode
  | _ => none

/-- `eq_ignore_ascii_case("loop")`. -/
def isLoopType (nodeType : String) : Bool := nodeType.toList.map Char.toLower == "loop".toList

/-- A node id of the graph that names a loop. -/
def isLoopNode (graph : FunctionGraph) (nodeId : String) : Bool :=
  graph.nodes[nodeId]?.any fun node => isLoopType node.nodeType

/-! ## Children -/

/-- The input of a child rooted at a node. -/
def buildSubtreeInput (graph : FunctionGraph) (nodeId : String) (results : StringMap)
    (execCtx : ExecutionContext) : String :=
  SubtreeInput.toJson
    ⟨graph.instanceId, nodeId, graph.toJson, print (encodeStringMap results),
      some (print (encodeStringMap execCtx.vars)), execCtx.label, 0, execCtx.failureIsolated⟩

/-- The context in which a child rooted at a node starts, at a path. -/
def childContext (ctx : OrchestrationContext) (nodeId : String) (path : Path) :
    OrchestrationContext :=
  ⟨ctx.world, subtreeInstanceId ctx nodeId, 1, path⟩

/-- Run a scheduled child, unless the runtime fails it. -/
def runChild (engine : Engine) (child : OrchestrationContext) (input : String) :
    List Event × Option (Except String String) :=
  match child.world.runtimeFault child.path child.instanceId with
  | some error => ([], some (.error error))
  | none => engine.subtree child input

/-- Schedule one child and await its outcome. -/
def scheduleSubOrchestration (engine : Engine) (ctx child : OrchestrationContext)
    (input : String) : Orch (Except String String) := do
  emit [.spawned ctx.site child.instanceId input]
  let (events, reply) := runChild engine child input
  emit events
  match reply with
  | some reply => pure reply
  | none => Program.exit .unresolved

/-- `ctx.join`: await all scheduled children. -/
def joinChildren (engine : Engine) (ctx : OrchestrationContext)
    (children : List (OrchestrationContext × String)) : Orch (List (Except String String)) := do
  emit (children.map fun child => .spawned ctx.site child.1.instanceId child.2)
  let runs := children.map fun child => runChild engine child.1 child.2
  emit (runs.flatMap (·.1))
  if runs.all (·.2.isSome) then pure (runs.filterMap (·.2)) else Program.exit .unresolved

/-- `ctx.select2`: the outcome of the first child to finish. The other one is dropped, so only a
part of its log belongs to the run. -/
def selectChildren (engine : Engine) (ctx left right : OrchestrationContext)
    (leftInput rightInput : String) : Orch (Bool × Except String String) := do
  emit [.spawned ctx.site left.instanceId leftInput, .spawned ctx.site right.instanceId rightInput]
  let leftRun := runChild engine left leftInput
  let rightRun := runChild engine right rightInput
  let leftWins := ctx.world.leftWins ctx.path
  let (winner, loser) := if leftWins then (leftRun, rightRun) else (rightRun, leftRun)
  emit (winner.1 ++ loser.1.take (ctx.world.loserProgress ctx.path))
  match winner.2 with
  | some reply => do
      emit [.decided ctx.site (if leftWins then 0 else 1)]
      pure (leftWins, reply)
  | none => Program.exit .unresolved

/-- Stamp a loop node from its parent orchestration. -/
def stampLoopNode (ctx : OrchestrationContext) (instanceId loopNodeId status result stamp : String) :
    Orch Unit := do
  let _ ← scheduleActivity ctx updateNodeStatusName
    (loopNodeStatusInput loopNodeId instanceId status result stamp) 0

/-- The stamp by which a parent addresses a loop child: its first generation. -/
def childStamp (ctx : OrchestrationContext) (nodeId : String) : String :=
  subtreeInstanceId ctx nodeId ++ "::1"

/-- A loop that cannot be spawned fails with the parent's stamp. -/
def failLoopBeforeStart (ctx : OrchestrationContext) (graph : FunctionGraph)
    (loopNodeId error : String) : Orch String := do
  stampLoopNode ctx graph.instanceId loopNodeId "failed" error ctx.stamp
  fail error

/-- A failed loop child is stamped failed before its error is raised. -/
def failLoopChildFuture (ctx : OrchestrationContext) (graph : FunctionGraph) (loopNodeId : String)
    (error : NodeError) : Orch String := do
  stampLoopNode ctx graph.instanceId loopNodeId "failed" error.message (childStamp ctx loopNodeId)
  raise error

/-- A losing branch that is a loop is stamped failed. -/
def cancelLosingLoopBranch (ctx : OrchestrationContext) (graph : FunctionGraph)
    (branchNodeId : String) : Orch Unit :=
  if isLoopNode graph branchNodeId then
    stampLoopNode ctx graph.instanceId branchNodeId "failed"
      "Loop branch cancelled after losing RACE" (childStamp ctx branchNodeId)
  else pure ()

/-! ## Leaf handlers -/

/-- Store the result of a named node. -/
def storeNamedResult (node : FunctionNode) (result : String) : Orch Unit :=
  match node.resultName with
  | some name => insertResult name result
  | none => pure ()

/-- The input of the SQL activity. -/
def executeSqlInput (query submittedBy : String) (database : Option String)
    (version : SqlQuotingVersion) : String :=
  print (.object ([("query", .string query), ("submitted_by", .string submittedBy),
    ("database", encodeOptionString database)] ++ version.member))

/-- Schedule a workflow activity; its failure is an application failure. -/
def runActivity (ctx : OrchestrationContext) (name input : String) : Orch String := do
  match ← scheduleActivity ctx name input 0 with
  | .ok result => pure result
  | .error message => raise (.application message)

/-- Execute an SQL node. -/
def executeSqlNode (ctx : OrchestrationContext) (node : FunctionNode) (nodeId : String)
    (execCtx : ExecutionContext) (sysVars : SystemVars) (version : SqlQuotingVersion) :
    Orch String := do
  let query ← orMissing node.query ("SQL node " ++ nodeId ++ " has no query")
  let results ← readResults
  let finalQuery ←
    orFail (substituteAllWithOptions query results execCtx.vars sysVars (some version))
  let result ← runActivity ctx executeSqlName
    (executeSqlInput finalQuery node.submittedBy node.database version)
  storeNamedResult node result
  pure result

/-- The result of a sleep. -/
def sleepResult (seconds : Nat) : String :=
  "\x7b\"slept\": true, \"seconds\": " ++ toString seconds ++ "\x7d"

/-- Execute a sleep node. -/
def executeSleepNode (ctx : OrchestrationContext) (node : FunctionNode) (nodeId : String) :
    Orch String := do
  let secondsText ← orMissing node.query ("SLEEP node " ++ nodeId ++ " has no duration")
  let seconds ← orMissing (parseU64 secondsText.toList)
    ("Invalid sleep duration: " ++ secondsText)
  scheduleTimer ctx (seconds * 10 ^ 9)
  pure (sleepResult seconds)

/-- The result of waiting for a schedule. -/
def scheduledResult : String := "\x7b\"scheduled\": true\x7d"

/-- Execute a node that waits for the next tick of a schedule. -/
def executeWaitScheduleNode (ctx : OrchestrationContext) (node : FunctionNode) (nodeId : String) :
    Orch String := do
  let configText ← orMissing node.query ("WAIT_SCHEDULE node " ++ nodeId ++ " has no config")
  let config ← orFail ((fromStr configText).mapError ("Invalid WAIT_SCHEDULE config: " ++ ·))
  let cronExpr ← orMissing (config.index "cron_expr").asStr "WAIT_SCHEDULE missing cron_expr"
  let now ← orFail ((ctx.world.utcNow ctx.path 0).mapError
    ("WAIT_SCHEDULE failed to read deterministic clock: " ++ ·))
  let schedule ← orFail ((ctx.world.cronNext ("0 " ++ cronExpr)).mapError
    (("Invalid cron expression '" ++ cronExpr ++ "': ") ++ ·))
  let next ← orMissing (schedule now) ("No upcoming schedule found for '" ++ cronExpr ++ "'")
  scheduleTimer ctx (next - now).toNat
  pure scheduledResult

/-- The value that a break node raises: JSON as it is, other text as a JSON string, `null` when
absent. -/
def breakValue (query : Option String) : String :=
  match ((query.bind parse).bind (Value.get? "break_value")).bind Value.asStr with
  | some value => print ((parse value).getD (.string value))
  | none => "null"

/-- Execute a break node: always an error, the break signal. -/
def executeBreakNode (ctx : OrchestrationContext) (node : FunctionNode) : Orch String := do
  emit [.broke ctx.site (breakValue node.query)]
  raise (.breakWith (breakValue node.query))

/-- Send a prepared request. -/
def sendRequest (ctx : OrchestrationContext) (node : FunctionNode) (name : String)
    (config : Value) : Orch String := do
  match checkHttpRequestSize config false with
  | .error message => raise (.application message)
  | .ok () =>
      match setExecutionContext config node.submittedBy node.database with
      -- Indexing a value that is no object panics.
      | none => Program.exit .unresolved
      | some config =>
          let result ← runActivity ctx name (print config)
          storeNamedResult node result
          pure result

/-- Execute an HTTP node. -/
def executeHttpNode (ctx : OrchestrationContext) (node : FunctionNode) (nodeId : String)
    (execCtx : ExecutionContext) (sysVars : SystemVars) : Orch String := do
  let configText ← orMissing node.query ("HTTP node " ++ nodeId ++ " has no config")
  let config ← orFail ((fromStr configText).mapError ("Invalid HTTP config: " ++ ·))
  let results ← readResults
  let substitute := fun text => substituteAllRaw text results execCtx.vars sysVars
  let config ← orFail (substituteMember substitute "body" config)
  let config ← orFail (substituteMember substitute "url" config)
  let config ← orFail (substituteHeaders substitute config)
  sendRequest ctx node executeHttpName config

/-- Execute a multipart HTTP node. -/
def executeHttpMultipartNode (ctx : OrchestrationContext) (node : FunctionNode) (nodeId : String)
    (execCtx : ExecutionContext) (sysVars : SystemVars) : Orch String := do
  let configText ← orMissing node.query ("HTTP_MULTIPART node " ++ nodeId ++ " has no config")
  let config ← orFail ((fromStr configText).mapError ("Invalid multipart HTTP config: " ++ ·))
  let results ← readResults
  let substitute := fun text => substituteAllRaw text results execCtx.vars sysVars
  let config ← orFail (substituteMember substitute "url" config)
  let config ← orFail (substituteHeaders substitute config)
  let config ← orFail (substituteParts substitute nodeId config)
  sendRequest ctx node executeMultipartName config

/-- The result of a signal wait. -/
def signalResult (signalName : String) (data : Option String) : String :=
  print (.object [("signal_name", .string signalName), ("timed_out", .bool data.isNone),
    ("data", (data.map fun text => (parse text).getD (.string text)).getD .null)])

/-- Execute a signal node. Without a timeout it waits for as long as the signal does not come. -/
def executeSignalNode (ctx : OrchestrationContext) (node : FunctionNode) (nodeId : String) :
    Orch String := do
  let configText ← orMissing node.query ("SIGNAL node " ++ nodeId ++ " has no config")
  let config ← orFail ((fromStr configText).mapError ("Invalid SIGNAL config: " ++ ·))
  let signalName ← orMissing (config.index "signal_name").asStr
    "Missing signal_name in SIGNAL config"
  let data := ctx.world.signal ctx.path signalName
  match (config.index "timeout_seconds").asI64, data with
  | some timeout, _ => scheduleTimer ctx ((timeout % 2 ^ 64).toNat * 10 ^ 9)
  | none, some _ => pure ()
  | none, none => Program.exit .unresolved
  let result := signalResult signalName data
  storeNamedResult node result
  pure result

/-! ## Compound handlers -/

section Compound

variable (engine : Engine) (ctx : OrchestrationContext) (graph : FunctionGraph)
  (node : FunctionNode) (nodeId : String) (execCtx : ExecutionContext)

/-- Execute a sequence. -/
def executeThenNode : Orch String := do
  let leftId ← orMissing node.leftNode ("THEN node " ++ nodeId ++ " has no left_node")
  let rightId ← orMissing node.rightNode ("THEN node " ++ nodeId ++ " has no right_node")
  let _ ← engine.node (ctx.down .thenLeft) graph leftId execCtx
  let result ← engine.node (ctx.down .thenRight) graph rightId execCtx
  storeNamedResult node result
  pure result

/-- Whether a named result has rows, for `df.if_rows`. -/
def resultHasRows (config : Value) (results : StringMap) : Except String Bool := do
  let some resultName := (config.index "result_name").asStr
    | throw "df.if_rows: missing result_name"
  let some resultJson := results[resultName]?
    | throw ("df.if_rows: result '" ++ resultName ++ "' not found")
  let parsed ← (fromStr resultJson).mapError ("df.if_rows: invalid result JSON: " ++ ·)
  let some rowCount := (parsed.get? "row_count").bind Value.asU64
    | throw ("df.if_rows: result '" ++ resultName ++
        "' is not a SQL result (missing row_count)")
  pure (rowCount > 0)

/-- Decide the condition of an IF node. -/
def decideIf (config : Value) : Orch Bool := do
  if (config.get? "condition_type").bind Value.asStr = some "result_has_rows" then
    let results ← readResults
    orFail (resultHasRows config results)
  else
    let conditionNodeId ← orMissing (config.index "condition_node").asStr
      "IF node missing condition_node"
    let conditionResult ← engine.node (ctx.down .ifCondition) graph conditionNodeId execCtx
    orFail (evaluateCondition conditionResult)

/-- Execute a conditional. -/
def executeIfNode : Orch String := do
  let configText ← orMissing node.query ("IF node " ++ nodeId ++ " has no config")
  let config ← orFail ((fromStr configText).mapError ("Invalid IF config: " ++ ·))
  let thenId ← orMissing node.leftNode ("IF node " ++ nodeId ++ " has no then branch")
  let elseId ← orMissing node.rightNode ("IF node " ++ nodeId ++ " has no else branch")
  let isTrue ← decideIf engine ctx graph execCtx config
  let result ←
    if isTrue then engine.node (ctx.down .ifThen) graph thenId execCtx
    else engine.node (ctx.down .ifElse) graph elseId execCtx
  storeNamedResult node result
  pure result

/-- How much an error weighs when a failure-isolated join chooses one. -/
def joinPriority : NodeError → Nat
  | .application _ => 0
  | .breakWith _ => 1
  | .failure _ => 2

/-- An error of a join with the branch that raised it and, for a failed loop child, its node. -/
structure JoinError where
  index : Nat
  error : NodeError
  loopNodeId : Option String

/-- Keep the error with the higher priority; the first of equal ones stays. -/
def retainHigherPriorityJoinError (selected : Option JoinError) (candidate : JoinError) :
    Option JoinError :=
  match selected with
  | some current =>
      if joinPriority candidate.error > joinPriority current.error then some candidate else selected
  | none => some candidate

/-- Raise the error that a join selected, with the fallback stamp of a failed loop child. -/
def raiseJoinError (selected : JoinError) : Orch String := do
  emit [.decided ctx.site selected.index]
  match selected.loopNodeId with
  | some loopNodeId => failLoopChildFuture ctx graph loopNodeId selected.error
  | none => raise selected.error

/-- What one branch contributes to a join: its result as JSON, or an error. -/
def joinBranch (index : Nat) (branchId : String) (reply : Except String String) :
    Orch (Except JoinError Value) := do
  match reply with
  | .ok raw =>
      match ← Program.attempt
          (parseSubtreeEnvelope raw ("JOIN branch " ++ toString (index + 1))) with
      | .ok branchResult =>
          match fromStr branchResult with
          | .ok parsed => pure (.ok parsed)
          | .error e =>
              pure (.error ⟨index, .failure ("JOIN branch " ++ toString (index + 1) ++
                " result parse error: " ++ e), none⟩)
      | .error (.raised error) => pure (.error ⟨index, error, none⟩)
      | .error stop => Program.exit stop
  | .error e =>
      pure (.error ⟨index,
        contextualizeSubtreeFailure ("JOIN branch " ++ toString (index + 1) ++ " failed") e,
        if isLoopNode graph branchId then some branchId else none⟩)

/-- Process the outcomes of the branches in branch order. Outside failure isolation the first
error is raised at once; inside, the error with the highest priority is raised at the end. -/
def joinOutcomes : Nat → List (String × Except String String) → List Value → Option JoinError →
    Orch (List Value)
  | _, [], joined, selected =>
      match selected with
      | some selected => do
          let _ ← raiseJoinError ctx graph selected
          pure joined
      | none => pure joined
  | index, (branchId, reply) :: rest, joined, selected => do
      match ← joinBranch graph index branchId reply with
      | .ok parsed => joinOutcomes (index + 1) rest (joined ++ [parsed]) selected
      | .error error =>
          if execCtx.failureIsolated then
            joinOutcomes (index + 1) rest joined (retainHigherPriorityJoinError selected error)
          else do
            let _ ← raiseJoinError ctx graph error
            pure joined

/-- The branches of a join: left, right and the extra nodes of its configuration. -/
def joinBranchIds (node : FunctionNode) (leftId rightId : String) : List String :=
  [leftId, rightId] ++
    match (node.query.bind parse).bind fun config => (config.index "extra_nodes").asArray with
    | some extra => extra.filterMap Value.asStr
    | none => []

/-- The contexts and inputs of the branches. -/
def branchChildren (results : StringMap) (branchIds : List String) :
    List (OrchestrationContext × String) :=
  branchIds.mapIdx fun index branchId =>
    (childContext ctx branchId (ctx.path ++ [.branch index]),
      buildSubtreeInput graph branchId results execCtx)

/-- Execute branches in parallel and merge their outcomes into the named results. -/
def mergeJoinBranches : Orch (List Value) := do
  let leftId ← orMissing node.leftNode ("JOIN node " ++ nodeId ++ " has no left branch")
  let rightId ← orMissing node.rightNode ("JOIN node " ++ nodeId ++ " has no right branch")
  let branchIds := joinBranchIds node leftId rightId
  let results ← readResults
  let replies ← joinChildren engine ctx (branchChildren ctx graph execCtx results branchIds)
  joinOutcomes ctx graph execCtx 0 (branchIds.zip replies) [] none

/-- Execute a join: the array of the branches' results. -/
def executeJoinNode : Orch String := do
  let joined ← mergeJoinBranches engine ctx graph node nodeId execCtx
  let result := print (.array joined)
  storeNamedResult node result
  pure result

/-- Take the reply of the branch that won a race. -/
def finishRace (leftId rightId : String) (leftWins : Bool) (reply : Except String String) :
    Orch String := do
  let winnerId := if leftWins then leftId else rightId
  cancelLosingLoopBranch ctx graph (if leftWins then rightId else leftId)
  let raw ←
    match reply with
    | .ok raw => pure raw
    | .error e =>
        let error := contextualizeSubtreeFailure
          (if leftWins then "RACE left branch failed" else "RACE right branch failed") e
        if isLoopNode graph winnerId then failLoopChildFuture ctx graph winnerId error
        else raise error
  let result ← parseSubtreeEnvelope raw "RACE branch"
  storeNamedResult node result
  pure result

/-- Execute two branches in parallel; the first one to finish wins. -/
def executeRaceNode : Orch String := do
  let leftId ← orMissing node.leftNode ("RACE node " ++ nodeId ++ " has no left branch")
  let rightId ← orMissing node.rightNode ("RACE node " ++ nodeId ++ " has no right branch")
  let results ← readResults
  let (leftWins, reply) ← selectChildren engine ctx
    (childContext ctx leftId (ctx.path ++ [.branch 0]))
    (childContext ctx rightId (ctx.path ++ [.branch 1]))
    (buildSubtreeInput graph leftId results execCtx)
    (buildSubtreeInput graph rightId results execCtx)
  finishRace ctx graph node leftId rightId leftWins reply

/-! ## Loops -/

/-- The configuration of a loop node. -/
def parseLoopConfig : Except String LoopConfig :=
  match node.query with
  | some query =>
      (LoopConfig.ofJson query).mapError
        (("LOOP node " ++ nodeId ++ ": failed to parse config: ") ++ ·)
  | none => .ok LoopConfig.default

/-- Evaluate the condition of a loop after its body. No enclosing loop may consume a failure of
the condition, so an application failure becomes a failure. -/
def evaluateLoopCondition (conditionNode : Option String) (bodyResult : String) :
    Orch (Option String) :=
  match conditionNode with
  | none => pure none
  | some conditionNodeId => do
      match ← Program.attempt
          (engine.node (ctx.down (.loopCondition execCtx.loopIteration)) graph conditionNodeId
            execCtx) with
      | .ok conditionResult =>
          if ((evaluateCondition conditionResult).toOption.getD false) then pure none
          else do
            storeNamedResult node bodyResult
            pure (some bodyResult)
      | .error (.raised (.breakWith value)) => do
          storeNamedResult node value
          pure (some value)
      | .error (.raised (.application error)) => fail error
      | .error stop => Program.exit stop

/-- Run one iteration of a loop body and its condition. A break of the body ends the loop. -/
def runLoopIteration (bodyId : String) (conditionNode : Option String) : Orch (Option String) := do
  match ← Program.attempt
      (engine.node (ctx.down (.loopBody execCtx.loopIteration)) graph bodyId execCtx) with
  | .ok bodyResult => evaluateLoopCondition engine ctx graph node execCtx conditionNode bodyResult
  | .error (.raised (.breakWith value)) => do
      storeNamedResult node value
      pure (some value)
  | .error stop => Program.exit stop

/-- Run a loop body as a failure-isolated child. -/
def runFailureIsolatedBody (bodyId : String) : Orch FailureIsolatedBodyOutcome := do
  let results ← readResults
  let childResult ← scheduleSubOrchestration engine ctx
    (childContext ctx bodyId (ctx.path ++ [.loopBody execCtx.loopIteration]))
    (buildSubtreeInput graph bodyId results { execCtx with failureIsolated := true })
  classifyIsolatedBodyResult childResult

/-- The least duration of a loop iteration, in nanoseconds. -/
def loopMinIterDuration : Int := 10 ^ 9

/-- The most iterations of a loop. -/
def maxLoopIterations : Nat := 2 ^ 23

/-- One iteration of a loop: its final result when the loop ends. -/
def loopIteration (config : LoopConfig) (bodyId : String) : Orch (Option String) :=
  if config.continueOnFailure then do
    match ← runFailureIsolatedBody engine ctx graph execCtx bodyId with
    | .succeeded bodyResult =>
        evaluateLoopCondition engine ctx graph node execCtx config.conditionNode bodyResult
    | .applicationFailed => pure none
    | .breakWith value => do
        storeNamedResult node value
        pure (some value)
  else runLoopIteration engine ctx graph node execCtx bodyId config.conditionNode

/-- Delay the next iteration of a loop that was faster than the least duration. -/
def rateLimit (iterStarted : Except String Int) : Orch Unit :=
  match iterStarted, ctx.world.utcNow (ctx.path ++ [.loopBody execCtx.loopIteration]) 1 with
  | .ok started, .ok now =>
      let elapsed := max 0 (now - started)
      if elapsed < loopMinIterDuration then
        scheduleTimer ctx (loopMinIterDuration - elapsed).toNat
      else pure ()
  | _, _ => pure ()

/-- The input of the next generation of an orchestration that hosts a loop. Only a child threads
its named results forward. -/
def continuationInput (results : StringMap) (nextIteration : Nat) : String :=
  match execCtx.continuation with
  | .root =>
      FunctionInput.toJson
        ⟨graph.instanceId, execCtx.label, execCtx.vars, nextIteration, some graph.toJson, none, 0, 0⟩
  | .subtree =>
      SubtreeInput.toJson
        ⟨graph.instanceId, nodeId, graph.toJson, print (encodeStringMap results),
          some (print (encodeStringMap execCtx.vars)), execCtx.label, nextIteration,
          execCtx.failureIsolated⟩

/-- Execute a loop at the root of the current orchestration: one iteration, then either the final
result or the next generation. -/
def executeLoopNode : Orch String := do
  let bodyId ← orMissing node.leftNode ("LOOP node " ++ nodeId ++ " has no body")
  let config ← orFail (parseLoopConfig node nodeId)
  let iterStarted := ctx.world.utcNow (ctx.path ++ [.loopBody execCtx.loopIteration]) 0
  match ← loopIteration engine ctx graph node execCtx config bodyId with
  | some finalResult => pure finalResult
  | none =>
      let nextIteration := execCtx.loopIteration + 1
      if nextIteration ≥ maxLoopIterations then
        fail ("Loop exceeded maximum iteration count of " ++ toString maxLoopIterations ++
          ". Use df.break() to exit the loop or restructure the workflow.")
      else do
        rateLimit ctx execCtx iterStarted
        let results ← readResults
        Program.exit (.continuedAsNew (continuationInput graph nodeId execCtx results nextIteration))

/-- Run a loop that is not at the root of the current orchestration as a child. -/
def executeLoopSuborchestration : Orch String := do
  if node.leftNode.isNone then
    failLoopBeforeStart ctx graph nodeId ("LOOP node " ++ nodeId ++ " has no body")
  else
    let results ← readResults
    match ← scheduleSubOrchestration engine ctx (childContext ctx nodeId ctx.path)
        (buildSubtreeInput graph nodeId results execCtx) with
    | .ok raw => parseSubtreeEnvelope raw "LOOP"
    | .error e =>
        failLoopChildFuture ctx graph nodeId
          (contextualizeSubtreeFailure "Loop sub-orchestration failed" e)

/-! ## The dispatcher -/

/-- Execute the logic of a node. -/
def executeNodeInner : Orch String :=
  let sysVars : SystemVars := ⟨graph.instanceId, execCtx.label⟩
  match nodeKind node.nodeType with
  | some .sql => executeSqlNode ctx node nodeId execCtx sysVars graph.sqlQuotingVersion
  | some .thenNode => executeThenNode engine ctx graph node nodeId execCtx
  | some .sleep => executeSleepNode ctx node nodeId
  | some .waitSchedule => executeWaitScheduleNode ctx node nodeId
  | some .loop => executeLoopNode engine ctx graph node nodeId execCtx
  | some .ifNode => executeIfNode engine ctx graph node nodeId execCtx
  | some .join => executeJoinNode engine ctx graph node nodeId execCtx
  | some .race => executeRaceNode engine ctx graph node nodeId execCtx
  | some .http => executeHttpNode ctx node nodeId execCtx sysVars
  | some .httpMultipart => executeHttpMultipartNode ctx node nodeId execCtx sysVars
  | some .signal => executeSignalNode ctx node nodeId
  | some .breakNode => executeBreakNode ctx node
  | none => fail ("Unknown node type: " ++ lowercaseType node.nodeType)

/-- Write the status of the node at its root's generation; the outcome of the write is ignored. -/
def writeNodeStatus (status : String) (result : Option String) : Orch Unit := do
  let _ ← scheduleActivity ctx updateNodeStatusName
    (serializeNodeStatusInput nodeId graph.instanceId status result ctx.stamp) 0

/-- Execute a node between its two status writes. -/
def executeStampedNode : Orch String := do
  writeNodeStatus ctx graph nodeId "running" none
  match ← Program.attempt (executeNodeInner engine ctx graph node nodeId execCtx) with
  | .ok result => do
      writeNodeStatus ctx graph nodeId "completed" (some result)
      emit [.finished ctx.site nodeId (.ok result)]
      pure result
  | .error (.raised error) => do
      let status := match error with | .breakWith _ => "completed" | _ => "failed"
      writeNodeStatus ctx graph nodeId status (some error.message)
      emit [.finished ctx.site nodeId (.error error)]
      raise error
  | .error stop => Program.exit stop

end Compound

/-- Execute a node of the graph. A loop below the root of the current orchestration runs as a
child, which stamps it. -/
def executeFunctionNodeWithVars (engine : Engine) (ctx : OrchestrationContext)
    (graph : FunctionGraph) (nodeId : String) (execCtx : ExecutionContext) : Orch String := do
  let node ← orMissing graph.nodes[nodeId]? ("Node not found: " ++ nodeId)
  emit [.visited ctx.site nodeId]
  if isLoopType node.nodeType && nodeId != execCtx.subtreeRoot then
    executeLoopSuborchestration engine ctx graph node nodeId execCtx
  else executeStampedNode engine ctx graph node nodeId execCtx

end PgDurable.Orchestration
