import PgDurable.Orchestration.Root

/-!
# Isolation from later changes of the nodes

The only activities that read node definitions are the graph loads. Two runs of an instance whose
loads agree up to the first one that delivers the graph are the same run, whatever the table holds
afterwards: `isolated_from_nodes`. The graph travels from there on as text, through the inputs of
children and of later generations. `pinnedEngine` overwrites the graph in every such input with
the loaded one, and no run can be told from its pinned form.
-/

namespace PgDurable.Orchestration

open Json Program

/-! ## Later loads -/

/-- The environment with other answers to the loads. -/
def World.withLoads (world : World)
    (answers : Path → (name input : String) → (attempt : Nat) → Except String String) : World :=
  { world with
    activity := fun path name input attempt =>
      if name ∈ loadNames then answers path name input attempt
      else world.activity path name input attempt }

/-- The context with other answers to the loads. -/
def OrchestrationContext.withLoads (ctx : OrchestrationContext)
    (answers : Path → (name input : String) → (attempt : Nat) → Except String String) :
    OrchestrationContext :=
  { ctx with world := ctx.world.withLoads answers }

/-- From an attempt on, the loads of a visit answer alike until one of them delivers the graph. -/
def AgreeUntilLoaded (world : World) (path : Path) (start : Nat)
    (answers : Path → (name input : String) → (attempt : Nat) → Except String String) : Prop :=
  ∀ name ∈ loadNames, ∀ input attempt,
    (∀ earlier, start ≤ earlier → earlier < attempt →
      deliveredGraph name (world.activity path name input earlier) = none) →
    answers path name input attempt = world.activity path name input attempt

section WithLoads

variable (answers : Path → (name input : String) → (attempt : Nat) → Except String String)

/-- The loads of an environment are its own answers. -/
theorem with_loads_self (ctx : OrchestrationContext) :
    ctx.withLoads ctx.world.activity = ctx := by
  simp [OrchestrationContext.withLoads, World.withLoads]

@[simp] theorem with_loads_path (ctx : OrchestrationContext) :
    (ctx.withLoads answers).path = ctx.path := rfl

@[simp] theorem with_loads_execution_id (ctx : OrchestrationContext) :
    (ctx.withLoads answers).executionId = ctx.executionId := rfl

/-- Activities that are no loads are not affected. -/
theorem schedule_with_loads (ctx : OrchestrationContext) {name : String} (h : name ∉ loadNames)
    (input : String) (attempt : Nat) :
    scheduleActivity (ctx.withLoads answers) name input attempt =
      scheduleActivity ctx name input attempt := by
  unfold scheduleActivity OrchestrationContext.withLoads World.withLoads
  simp only [if_neg h]
  rfl

end WithLoads

/-! ## Pinning the graph -/

/-- The input of a child with its graph overwritten. -/
def repinSubtree (graph : FunctionGraph) (inputJson : String) : String :=
  match SubtreeInput.ofJson inputJson with
  | .ok input => SubtreeInput.toJson { input with graph := graph.toJson }
  | .error _ => inputJson

/-- The input of a root generation with the graph overwritten, if it carries one. -/
def repinRoot (graph : FunctionGraph) (inputJson : String) : String :=
  match FunctionInput.ofJson inputJson with
  | .ok input =>
      match input.graph with
      | some _ => FunctionInput.toJson { input with graph := some graph.toJson }
      | none => inputJson
  | .error _ => inputJson

/-- The interpreter in which every generation of every child executes one graph, whatever its
input carries. -/
def pinnedEngine (graph : FunctionGraph) : Nat → Engine
  | 0 => engine 0
  | fuel + 1 =>
      ⟨executeFunctionNodeWithVars (pinnedEngine graph fuel), fun ctx inputJson =>
        runSubtree (pinnedEngine graph fuel) ctx (repinSubtree graph inputJson)⟩

/-- Follow generations of the root orchestration with the graph overwritten wherever an input
carries one. -/
def runPinned (graph : FunctionGraph) (engine : Engine) : Nat → OrchestrationContext → String →
    List Event × Option (Except String String)
  | 0, _, _ => ([], none)
  | fuel + 1, ctx, inputJson =>
      match execute engine ctx (repinRoot graph inputJson) with
      | (log, .returned outcome) => (log, some outcome)
      | (log, .continuedAsNew input) =>
          let rest := runPinned graph engine fuel { ctx with executionId := ctx.executionId + 1 }
            input
          (log ++ rest.1, rest.2)
      | (log, .unresolved) => (log, none)

/-- Overwriting a child's graph with the same graph. -/
theorem repin_subtree_text (graph : FunctionGraph) (nodeId : String) (results : StringMap)
    (execCtx : ExecutionContext) {iteration : Nat} (h : iteration < 2 ^ 64) :
    repinSubtree graph (subtreeText graph nodeId results execCtx iteration) =
      subtreeText graph nodeId results execCtx iteration := by
  rw [repinSubtree, subtreeText, subtree_input_of_json_to_json h]

/-! ## Equal runs -/

/-- The pinned interpreter with other loads does what the interpreter does. -/
structure Follows (graph : FunctionGraph)
    (answers : Path → (name input : String) → (attempt : Nat) → Except String String)
    (engine pinned : Engine) : Prop where
  node : ∀ ctx nodeId execCtx,
    pinned.node (OrchestrationContext.withLoads ctx answers) graph nodeId execCtx =
      engine.node ctx graph nodeId execCtx
  subtree : ∀ ctx nodeId results execCtx {iteration}, iteration < 2 ^ 64 →
    pinned.subtree (OrchestrationContext.withLoads ctx answers)
        (subtreeText graph nodeId results execCtx iteration) =
      engine.subtree ctx (subtreeText graph nodeId results execCtx iteration)

section Handlers

variable {graph : FunctionGraph}
  {answers : Path → (name input : String) → (attempt : Nat) → Except String String}
  {engine pinned : Engine} (hengine : Follows graph answers engine pinned)
  (ctx : OrchestrationContext) (node : FunctionNode) (nodeId : String)
  (execCtx : ExecutionContext)

theorem run_activity_with_loads {name : String} (h : name ∉ loadNames) (input : String) :
    runActivity (ctx.withLoads answers) name input = runActivity ctx name input := by
  rw [runActivity, runActivity, schedule_with_loads answers ctx h]

theorem send_request_with_loads {name : String} (h : name ∉ loadNames) (config : Value) :
    sendRequest (ctx.withLoads answers) node name config = sendRequest ctx node name config := by
  simp only [sendRequest, run_activity_with_loads ctx h]

theorem stamp_with_loads (instanceId loopNodeId status result stamp : String) :
    stampLoopNode (ctx.withLoads answers) instanceId loopNodeId status result stamp =
      stampLoopNode ctx instanceId loopNodeId status result stamp := by
  rw [stampLoopNode, stampLoopNode, schedule_with_loads answers ctx (by decide)]

theorem sql_with_loads (sysVars : SystemVars) (version : SqlQuotingVersion) :
    executeSqlNode (ctx.withLoads answers) node nodeId execCtx sysVars version =
      executeSqlNode ctx node nodeId execCtx sysVars version := by
  simp only [executeSqlNode, run_activity_with_loads ctx (show executeSqlName ∉ loadNames by decide)]

theorem http_with_loads (sysVars : SystemVars) :
    executeHttpNode (ctx.withLoads answers) node nodeId execCtx sysVars =
      executeHttpNode ctx node nodeId execCtx sysVars := by
  simp only [executeHttpNode,
    send_request_with_loads ctx node (show executeHttpName ∉ loadNames by decide)]

theorem http_multipart_with_loads (sysVars : SystemVars) :
    executeHttpMultipartNode (ctx.withLoads answers) node nodeId execCtx sysVars =
      executeHttpMultipartNode ctx node nodeId execCtx sysVars := by
  simp only [executeHttpMultipartNode,
    send_request_with_loads ctx node (show executeMultipartName ∉ loadNames by decide)]

include hengine

/-- A scheduled child does the same. -/
theorem run_child_follows (childId : String) (path : Path) (results : StringMap)
    (execCtx : ExecutionContext) :
    runChild pinned (childContext (ctx.withLoads answers) childId path)
        (buildSubtreeInput graph childId results execCtx) =
      runChild engine (childContext ctx childId path)
        (buildSubtreeInput graph childId results execCtx) := by
  have hsubtree := hengine.subtree (childContext ctx childId path) childId results execCtx
    (show 0 < 2 ^ 64 by decide)
  unfold runChild
  rw [build_subtree_input_eq, ← hsubtree]
  rfl

theorem schedule_sub_follows (childId : String) (path : Path) (results : StringMap)
    (execCtx : ExecutionContext) :
    scheduleSubOrchestration pinned (ctx.withLoads answers)
        (childContext (ctx.withLoads answers) childId path)
        (buildSubtreeInput graph childId results execCtx) =
      scheduleSubOrchestration engine ctx (childContext ctx childId path)
        (buildSubtreeInput graph childId results execCtx) := by
  simp only [scheduleSubOrchestration, run_child_follows hengine]
  rfl

theorem join_children_follows (branchIds : List String) (results : StringMap) :
    joinChildren pinned (ctx.withLoads answers)
        (branchChildren (ctx.withLoads answers) graph execCtx results branchIds) =
      joinChildren engine ctx (branchChildren ctx graph execCtx results branchIds) := by
  have hruns : (branchChildren (ctx.withLoads answers) graph execCtx results branchIds).map
        (fun child => runChild pinned child.1 child.2) =
      (branchChildren ctx graph execCtx results branchIds).map
        fun child => runChild engine child.1 child.2 := by
    refine List.ext_getElem? fun index => ?_
    simp only [branchChildren, List.getElem?_map, List.getElem?_mapIdx, Option.map_map,
      Function.comp_def]
    cases branchIds[index]? with
    | none => rfl
    | some branchId => exact congrArg some (run_child_follows hengine ctx _ _ _ _)
  have hspawned : ((branchChildren (ctx.withLoads answers) graph execCtx results branchIds).map
        fun child => Event.spawned (ctx.withLoads answers).site child.1.instanceId child.2) =
      (branchChildren ctx graph execCtx results branchIds).map
        fun child => Event.spawned ctx.site child.1.instanceId child.2 := by
    refine List.ext_getElem? fun index => ?_
    simp only [branchChildren, List.getElem?_map, List.getElem?_mapIdx, Option.map_map,
      Function.comp_def]
    rfl
  simp only [joinChildren, hruns, hspawned]

theorem select_children_follows (leftId rightId : String) (leftPath rightPath : Path)
    (results : StringMap) :
    selectChildren pinned (ctx.withLoads answers)
        (childContext (ctx.withLoads answers) leftId leftPath)
        (childContext (ctx.withLoads answers) rightId rightPath)
        (buildSubtreeInput graph leftId results execCtx)
        (buildSubtreeInput graph rightId results execCtx) =
      selectChildren engine ctx (childContext ctx leftId leftPath)
        (childContext ctx rightId rightPath) (buildSubtreeInput graph leftId results execCtx)
        (buildSubtreeInput graph rightId results execCtx) := by
  simp only [selectChildren, run_child_follows hengine]
  rfl

theorem then_follows :
    executeThenNode pinned (ctx.withLoads answers) graph node nodeId execCtx =
      executeThenNode engine ctx graph node nodeId execCtx := by
  have hnode := fun step childId => hengine.node (ctx.down step) childId execCtx
  unfold executeThenNode
  simp only [← hnode]
  rfl

theorem if_follows :
    executeIfNode pinned (ctx.withLoads answers) graph node nodeId execCtx =
      executeIfNode engine ctx graph node nodeId execCtx := by
  have hnode := fun step childId => hengine.node (ctx.down step) childId execCtx
  unfold executeIfNode decideIf
  simp only [← hnode]
  rfl

omit hengine in
theorem join_outcomes_with_loads (replies : List (String × Except String String)) (index : Nat)
    (joined : List Value) (selected : Option JoinError) :
    joinOutcomes (ctx.withLoads answers) graph execCtx index replies joined selected =
      joinOutcomes ctx graph execCtx index replies joined selected := by
  have hraise : ∀ error, raiseJoinError (ctx.withLoads answers) graph error =
      raiseJoinError ctx graph error := by
    intro error
    simp only [raiseJoinError, failLoopChildFuture, stamp_with_loads]
    rfl
  induction replies generalizing index joined selected with
  | nil => cases selected <;> simp only [joinOutcomes, hraise]
  | cons first replies ih => simp only [joinOutcomes, hraise, ih]

theorem join_follows :
    executeJoinNode pinned (ctx.withLoads answers) graph node nodeId execCtx =
      executeJoinNode engine ctx graph node nodeId execCtx := by
  simp only [executeJoinNode, mergeJoinBranches, join_children_follows hengine,
    join_outcomes_with_loads]

theorem race_follows :
    executeRaceNode pinned (ctx.withLoads answers) graph node nodeId execCtx =
      executeRaceNode engine ctx graph node nodeId execCtx := by
  have hfinish : ∀ leftId rightId leftWins reply,
      finishRace (ctx.withLoads answers) graph node leftId rightId leftWins reply =
        finishRace ctx graph node leftId rightId leftWins reply := by
    intro leftId rightId leftWins reply
    simp only [finishRace, cancelLosingLoopBranch, failLoopChildFuture, stamp_with_loads]
    rfl
  simp only [executeRaceNode, hfinish, with_loads_path, select_children_follows hengine]

theorem loop_iteration_follows (config : LoopConfig) (bodyId : String) :
    loopIteration pinned (ctx.withLoads answers) graph node execCtx config bodyId =
      loopIteration engine ctx graph node execCtx config bodyId := by
  have hnode := fun step childId => hengine.node (ctx.down step) childId execCtx
  have hcondition : ∀ conditionNode bodyResult,
      evaluateLoopCondition pinned (ctx.withLoads answers) graph node execCtx conditionNode
          bodyResult =
        evaluateLoopCondition engine ctx graph node execCtx conditionNode bodyResult := by
    intro conditionNode bodyResult
    cases conditionNode with
    | none => rfl
    | some conditionId =>
        simp only [evaluateLoopCondition, ← hnode]
        rfl
  have hbody : runFailureIsolatedBody pinned (ctx.withLoads answers) graph execCtx bodyId =
      runFailureIsolatedBody engine ctx graph execCtx bodyId := by
    simp only [runFailureIsolatedBody, with_loads_path, schedule_sub_follows hengine]
  simp only [loopIteration, hbody, runLoopIteration, hcondition, ← hnode]
  rfl

theorem loop_follows :
    executeLoopNode pinned (ctx.withLoads answers) graph node nodeId execCtx =
      executeLoopNode engine ctx graph node nodeId execCtx := by
  simp only [executeLoopNode, loop_iteration_follows hengine]
  rfl

theorem loop_child_follows :
    executeLoopSuborchestration pinned (ctx.withLoads answers) graph node nodeId execCtx =
      executeLoopSuborchestration engine ctx graph node nodeId execCtx := by
  simp only [executeLoopSuborchestration, failLoopBeforeStart, failLoopChildFuture,
    stamp_with_loads, with_loads_path, schedule_sub_follows hengine]
  rfl

theorem inner_follows :
    executeNodeInner pinned (ctx.withLoads answers) graph node nodeId execCtx =
      executeNodeInner engine ctx graph node nodeId execCtx := by
  unfold executeNodeInner
  cases nodeKind node.nodeType with
  | none => rfl
  | some kind =>
      cases kind with
      | sleep | waitSchedule | signal | breakNode => rfl
      | sql => exact sql_with_loads ctx node nodeId execCtx _ _
      | http => exact http_with_loads ctx node nodeId execCtx _
      | httpMultipart => exact http_multipart_with_loads ctx node nodeId execCtx _
      | thenNode => exact then_follows hengine ctx node nodeId execCtx
      | ifNode => exact if_follows hengine ctx node nodeId execCtx
      | join => exact join_follows hengine ctx node nodeId execCtx
      | race => exact race_follows hengine ctx node nodeId execCtx
      | loop => exact loop_follows hengine ctx node nodeId execCtx

theorem function_node_follows :
    executeFunctionNodeWithVars pinned (ctx.withLoads answers) graph nodeId execCtx =
      executeFunctionNodeWithVars engine ctx graph nodeId execCtx := by
  have hstatus : ∀ status result, writeNodeStatus (ctx.withLoads answers) graph nodeId status
      result = writeNodeStatus ctx graph nodeId status result := by
    intro status result
    rw [writeNodeStatus, writeNodeStatus, schedule_with_loads answers ctx (by decide)]
    rfl
  simp only [executeFunctionNodeWithVars, loop_child_follows hengine, executeStampedNode, hstatus,
    inner_follows hengine]
  rfl

/-- A generation of a child and all that follow it do the same. -/
theorem run_subtree_follows (hsound : Sound engine) (results : StringMap) {iteration : Nat}
    (h : iteration < 2 ^ 64) :
    runSubtree pinned (ctx.withLoads answers)
        (repinSubtree graph (subtreeText graph nodeId results execCtx iteration)) =
      runSubtree engine ctx (subtreeText graph nodeId results execCtx iteration) := by
  have hgood := hsound.node ctx graph nodeId (execCtx.enter nodeId iteration) ⟨results, []⟩
  rw [repin_subtree_text graph nodeId results execCtx h,
    run_subtree_reads pinned _ graph nodeId results execCtx h,
    run_subtree_reads engine ctx graph nodeId results execCtx h, hengine.node]
  rcases hrun : engine.node ctx graph nodeId (execCtx.enter nodeId iteration) ⟨results, []⟩ with
    ⟨outcome, after⟩
  rw [hrun] at hgood
  rcases outcome with ((_ | _ | _) | input | _) | value
  · rfl
  · rfl
  · rfl
  · obtain ⟨next, hnext, hinput⟩ := hgood.continues rfl
    rw [continuation_input_eq _ _ _ _ rfl] at hinput
    have hrest := hengine.subtree { ctx with executionId := ctx.executionId + 1 } nodeId
      after.results (execCtx.enter nodeId iteration) hnext
    rw [hinput]
    exact congrArg (fun rest => (after.log ++ rest.1, rest.2)) hrest
  · rfl
  · rfl

end Handlers

/-- The interpreter cannot be told from its pinned form with other loads. -/
theorem engine_follows (graph : FunctionGraph)
    (answers : Path → (name input : String) → (attempt : Nat) → Except String String)
    (fuel : Nat) : Follows graph answers (engine fuel) (pinnedEngine graph fuel) := by
  induction fuel with
  | zero => exact ⟨fun _ _ _ => rfl, fun _ _ _ _ _ _ => rfl⟩
  | succ fuel ih =>
      exact ⟨fun ctx nodeId execCtx => function_node_follows ih ctx nodeId execCtx,
        fun ctx nodeId results execCtx _ h =>
          run_subtree_follows ih ctx nodeId execCtx (engine_sound fuel) results h⟩

/-! ## Equal generations of the root -/

section Root

variable (answers : Path → (name input : String) → (attempt : Nat) → Except String String)
  (ctx : OrchestrationContext)

/-- The interpreter does not notice other loads. -/
theorem engine_with_loads (fuel : Nat) (graph : FunctionGraph) (nodeId : String)
    (execCtx : ExecutionContext) :
    (engine fuel).node (ctx.withLoads answers) graph nodeId execCtx =
      (engine fuel).node ctx graph nodeId execCtx := by
  have hfirst := (engine_follows graph answers fuel).node ctx nodeId execCtx
  have hsecond := (engine_follows graph (ctx.withLoads answers).world.activity fuel).node
    (ctx.withLoads answers) nodeId execCtx
  rw [with_loads_self] at hsecond
  rw [← hfirst, hsecond]

theorem finalize_with_loads (instanceId status : String) (attempt retries : Nat) :
    finalizeFrom (ctx.withLoads answers) instanceId status attempt retries =
      finalizeFrom ctx instanceId status attempt retries := by
  have hschedule := fun input attempt => schedule_with_loads answers ctx
    (show updateInstanceStatusName ∉ loadNames by decide) input attempt
  induction retries generalizing attempt with
  | zero => simp only [finalizeFrom, hschedule]
  | succ retries ih =>
      simp only [finalizeFrom, hschedule, ih]
      rfl

variable {answers ctx} in
/-- A loaded graph is executed alike. -/
theorem execute_graph_follows {engine pinned : Engine} {graph : FunctionGraph}
    (h : ∀ nodeId execCtx, pinned.node (ctx.withLoads answers) graph nodeId execCtx =
      engine.node ctx graph nodeId execCtx) (input : FunctionInput) :
    executeGraph pinned (ctx.withLoads answers) input graph = executeGraph engine ctx input graph := by
  have hschedule := fun input attempt => schedule_with_loads answers ctx
    (show updateInstanceStatusName ∉ loadNames by decide) input attempt
  simp only [executeGraph, h, hschedule, finalizeInstanceStatus, finalize_with_loads]
  rfl

/-- A load that is answered alike. -/
theorem schedule_load_with_loads {name input : String} {attempt : Nat}
    (h : answers ctx.path name input attempt = ctx.world.activity ctx.path name input attempt) :
    scheduleActivity (ctx.withLoads answers) name input attempt =
      scheduleActivity ctx name input attempt := by
  unfold scheduleActivity OrchestrationContext.withLoads World.withLoads
  simp only [h, ite_self]
  rfl

variable {answers ctx} {start : Nat}

/-- No poll before this attempt delivered the graph. -/
def Missed (ctx : OrchestrationContext) (input : FunctionInput) (originXid : String)
    (start attempt : Nat) : Prop :=
  ∀ earlier, start ≤ earlier → earlier < attempt →
    deliveredGraph transactionAwareName (ctx.world.activity ctx.path transactionAwareName
      (probeInput input.instanceId originXid) earlier) = none

/-- The polls of a generation are answered alike, and if it goes on waiting none of them delivered
the graph. -/
theorem poll_graph_with_loads (hagree : AgreeUntilLoaded ctx.world ctx.path start answers)
    (input : FunctionInput) (originXid : String) {polls : Nat}
    (hpolls : polls ≤ graphWaitPollsPerExecution)
    (hmissed : Missed ctx input originXid start
      (ctx.executionId * graphWaitPollsPerExecution + (graphWaitPollsPerExecution - polls)))
    (waitAttempt retryAttempt : Nat) (machine : Machine) :
    pollGraph (ctx.withLoads answers) input originXid polls waitAttempt retryAttempt machine =
        pollGraph ctx input originXid polls waitAttempt retryAttempt machine ∧
      ∀ next, (pollGraph ctx input originXid polls waitAttempt retryAttempt machine).1 =
          .error (.continuedAsNew next) →
        Missed ctx input originXid start ((ctx.executionId + 1) * graphWaitPollsPerExecution) := by
  induction polls generalizing waitAttempt retryAttempt machine with
  | zero =>
      refine ⟨rfl, fun _ _ => ?_⟩
      rw [Nat.add_mul, Nat.one_mul]
      exact hmissed
  | succ polls ih =>
      have hload := hagree transactionAwareName (by simp [loadNames])
        (probeInput input.instanceId originXid) _ hmissed
      have hschedule := schedule_load_with_loads answers ctx hload
      have hnext : readyGraph (probeAnswer ctx input.instanceId originXid
          (graphWaitPollsPerExecution - (polls + 1))) = none →
          Missed ctx input originXid start
            (ctx.executionId * graphWaitPollsPerExecution + (graphWaitPollsPerExecution - polls)) := by
        intro hready earlier hstart hearlier
        rcases Nat.lt_or_ge earlier (ctx.executionId * graphWaitPollsPerExecution +
          (graphWaitPollsPerExecution - (polls + 1))) with hlt | hge
        · exact hmissed earlier hstart hlt
        · have heq : earlier = ctx.executionId * graphWaitPollsPerExecution +
              (graphWaitPollsPerExecution - (polls + 1)) := by omega
          rw [heq, probe_delivers, hready]
      simp only [pollGraph, with_loads_execution_id]
      rw [← probeInput, hschedule, Program.bind_ok (schedule_activity_apply machine ctx _ _ _),
        Program.bind_ok (schedule_activity_apply machine ctx _ _ _)]
      cases hanswer : probeAnswer ctx input.instanceId originXid
        (graphWaitPollsPerExecution - (polls + 1)) with
      | error e =>
          unfold probeAnswer at hanswer
          rw [hanswer]
          exact ⟨rfl, fun _ hnext => by cases hnext⟩
      | ok answer =>
          rw [hanswer] at hnext
          unfold probeAnswer at hanswer
          rw [hanswer]
          cases answer with
          | ready | aborted | committedMissing => exact ⟨rfl, fun _ hnext => by cases hnext⟩
          | inProgress => exact ih (by omega) (hnext rfl) _ _ _
          | retry =>
              dsimp only
              split_ifs
              · exact ⟨rfl, fun _ hnext => by cases hnext⟩
              · exact ih (by omega) (hnext rfl) _ _ _

/-- The load of a generation is answered alike. -/
theorem load_initial_graph_with_loads
    (hagree : AgreeUntilLoaded ctx.world ctx.path start answers) {input : FunctionInput}
    (hmissed : ∀ originXid, input.originXid = some originXid →
      Missed ctx input originXid start (ctx.executionId * graphWaitPollsPerExecution))
    (machine : Machine) :
    loadInitialGraph (ctx.withLoads answers) input machine = loadInitialGraph ctx input machine ∧
      ∀ next, (loadInitialGraph ctx input machine).1 = .error (.continuedAsNew next) →
        ∀ originXid, input.originXid = some originXid →
          Missed ctx input originXid start ((ctx.executionId + 1) * graphWaitPollsPerExecution) := by
  unfold loadInitialGraph
  cases hxid : input.originXid with
  | none =>
      have hload := hagree loadFunctionGraphName (by simp [loadNames]) input.instanceId 0
        fun earlier _ hearlier => absurd hearlier (Nat.not_lt_zero _)
      dsimp only
      rw [schedule_load_with_loads answers ctx hload]
      exact ⟨rfl, fun _ hnext => by cases hnext⟩
  | some originXid =>
      have hstart : Missed ctx input originXid start (ctx.executionId * graphWaitPollsPerExecution +
          (graphWaitPollsPerExecution - graphWaitPollsPerExecution)) := by
        rw [Nat.sub_self, Nat.add_zero]
        exact hmissed originXid hxid
      obtain ⟨hsame, hnext⟩ := poll_graph_with_loads hagree input originXid (Nat.le_refl _) hstart
        input.graphWaitAttempt input.graphRetryAttempt machine
      refine ⟨hsame, ?_⟩
      rintro next hended other ⟨⟩
      exact hnext next hended

/-- A generation whose load is answered alike. -/
theorem execute_with_loads (fuel : Nat) {inputJson : String} {input : FunctionInput}
    (hinput : FunctionInput.ofJson inputJson = .ok input)
    (hload : input.graph = none → loadInitialGraph (ctx.withLoads answers) input ⟨∅, []⟩ =
      loadInitialGraph ctx input ⟨∅, []⟩) :
    execute (engine fuel) (ctx.withLoads answers) inputJson =
      execute (engine fuel) ctx inputJson := by
  have hgraph := fun graph => @execute_graph_follows answers ctx (engine fuel) (engine fuel) graph
    (fun nodeId execCtx => engine_with_loads answers ctx fuel graph nodeId execCtx) input
  have hrun : executeInput (engine fuel) (ctx.withLoads answers) inputJson ⟨∅, []⟩ =
      executeInput (engine fuel) ctx inputJson ⟨∅, []⟩ := by
    simp only [executeInput, hinput, hgraph, finalizeInstanceStatus, finalize_with_loads]
    cases hcarried : input.graph with
    | some json => rfl
    | none =>
        dsimp only
        rw [Program.bind_apply, Program.bind_apply, hload hcarried]
  simp only [execute, hrun]

/-- Runs whose loads agree until the graph is delivered are equal. -/
theorem run_with_loads (fuel generations : Nat)
    (hagree : AgreeUntilLoaded ctx.world ctx.path start answers) {inputJson : String}
    (hmissed : ∀ input, FunctionInput.ofJson inputJson = .ok input → input.graph = none →
      ∀ originXid, input.originXid = some originXid →
        Missed ctx input originXid start (ctx.executionId * graphWaitPollsPerExecution)) :
    runExecute (engine fuel) generations (ctx.withLoads answers) inputJson =
      runExecute (engine fuel) generations ctx inputJson := by
  induction generations generalizing ctx inputJson with
  | zero => rfl
  | succ generations ih =>
      cases hinput : FunctionInput.ofJson inputJson with
      | error e => rw [runExecute, runExecute, execute_unread hinput, execute_unread hinput]
      | ok input =>
          have hload := fun hgraph => load_initial_graph_with_loads hagree
            (hmissed input hinput hgraph) ⟨∅, []⟩
          have hsame := execute_with_loads fuel hinput fun hgraph => (hload hgraph).1
          rw [runExecute, runExecute, hsame]
          rcases hrun : execute (engine fuel) ctx inputJson with ⟨log, ended⟩
          cases ended with
          | returned outcome => rfl
          | unresolved => rfl
          | continuedAsNew next =>
              have hrest := @ih { ctx with executionId := ctx.executionId + 1 } hagree next ?_
              · exact congrArg (fun rest => (log ++ rest.1, rest.2)) hrest
              · intro later hlater hgraph originXid hxid
                cases hands_over hinput hrun with
                | waiting hnext _ _ hended =>
                    rw [hnext, Except.ok.injEq] at hlater
                    subst hlater
                    exact (hload hgraph).2 _ hended originXid hxid
                | looping hnext =>
                    rw [hnext, Except.ok.injEq] at hlater
                    subst hlater
                    cases hgraph

end Root

/-! ## Pinned runs -/

section Pinned

variable {fuel : Nat} {ctx : OrchestrationContext} {graph : FunctionGraph} {inputJson : String}

/-- A generation that executes no other graph cannot be told from its pinned form. -/
theorem execute_pinned {input : FunctionInput} (hinput : FunctionInput.ofJson inputJson = .ok input)
    (hgraph : ∀ json, receivedGraph ctx input = some json → FunctionGraph.ofJson json = .ok graph) :
    execute (pinnedEngine graph fuel) ctx (repinRoot graph inputJson) =
      execute (engine fuel) ctx inputJson := by
  have hpinned := fun input => @execute_graph_follows ctx.world.activity ctx (engine fuel)
    (pinnedEngine graph fuel) graph ((engine_follows graph ctx.world.activity fuel).node ctx) input
  rw [with_loads_self] at hpinned
  have hrepin : repinRoot graph inputJson =
      match input.graph with
      | some _ => FunctionInput.toJson { input with graph := some graph.toJson }
      | none => inputJson := by
    rw [repinRoot, hinput]
  cases hcarried : input.graph with
  | some json =>
      have hread := hgraph json (by rw [receivedGraph, hcarried])
      have hfits := function_input_fits hinput
      have hreads := @function_input_of_json_to_json { input with graph := some graph.toJson }
        ⟨hfits.loopIteration, hfits.graphWaitAttempt, hfits.graphRetryAttempt⟩
      rw [hcarried] at hrepin
      rw [hrepin]
      have hleft : executeInput (pinnedEngine graph fuel) ctx
          (FunctionInput.toJson { input with graph := some graph.toJson }) ⟨∅, []⟩ =
          executeGraph (pinnedEngine graph fuel) ctx { input with graph := some graph.toJson } graph
            ⟨∅, []⟩ := by
        simp only [executeInput, hreads, pure_bind, graph_of_json_to_json]
      have hright : executeInput (engine fuel) ctx inputJson ⟨∅, []⟩ =
          executeGraph (engine fuel) ctx input graph ⟨∅, []⟩ := by
        simp only [executeInput, hinput, hcarried, pure_bind, hread]
      have hsame : executeInput (pinnedEngine graph fuel) ctx
          (FunctionInput.toJson { input with graph := some graph.toJson }) ⟨∅, []⟩ =
          executeInput (engine fuel) ctx inputJson ⟨∅, []⟩ := by
        rw [hleft, hright, hpinned]
        rfl
      simp only [execute, hsame]
  | none =>
      rw [hcarried] at hrepin
      rw [hrepin]
      have hsame : executeInput (pinnedEngine graph fuel) ctx inputJson ⟨∅, []⟩ =
          executeInput (engine fuel) ctx inputJson ⟨∅, []⟩ := by
        simp only [executeInput, hinput, hcarried]
        rcases hload : loadInitialGraph ctx input ⟨∅, []⟩ with ⟨stop | (e | json), after⟩
        · rw [bind_error hload, bind_error hload]
        · rw [bind_ok hload, bind_ok hload]
        · have hread := hgraph json (by rw [receivedGraph, hcarried, hload])
          rw [bind_ok hload, bind_ok hload]
          simp only [hread, hpinned]
      simp only [execute, hsame]

/-- The graph of an instance is the only one that a generation executes, and the graph of the
instance from the next generation on. -/
theorem loads_handed_over (hloads : Loads (engine fuel) ctx inputJson graph) :
    ∃ input, FunctionInput.ofJson inputJson = .ok input ∧
      (∀ json, receivedGraph ctx input = some json → FunctionGraph.ofJson json = .ok graph) ∧
      ∀ log next, execute (engine fuel) ctx inputJson = (log, .continuedAsNew next) →
        Loads (engine fuel) { ctx with executionId := ctx.executionId + 1 } next graph := by
  cases hloads with
  | @received _ _ _ input _ hinput hgraph hread =>
      have hsame : ∀ json, receivedGraph ctx input = some json →
          FunctionGraph.ofJson json = .ok graph := by
        intro json hjson
        rw [hgraph, Option.some.injEq] at hjson
        rwa [← hjson]
      refine ⟨_, hinput, hsame, fun log next hrun => ?_⟩
      cases hands_over hinput hrun with
      | waiting _ hnone =>
          rw [hgraph] at hnone
          cases hnone
      | looping hnext hgraph' hread' =>
          have heq := hsame _ hgraph'
          rw [hread', Except.ok.injEq] at heq
          rw [heq] at hnext
          exact .received hnext rfl (graph_of_json_to_json graph)
  | waited hinput hgraph hrun hlater =>
      refine ⟨_, hinput, fun json hjson => ?_, fun log next hrun' => ?_⟩
      · rw [hgraph] at hjson
        cases hjson
      · rw [hrun] at hrun'
        cases hrun'
        exact hlater

/-- A run cannot be told from its pinned form. -/
theorem run_pinned (generations : Nat) (hloads : Loads (engine fuel) ctx inputJson graph) :
    runExecute (engine fuel) generations ctx inputJson =
      runPinned graph (pinnedEngine graph fuel) generations ctx inputJson := by
  induction generations generalizing ctx inputJson with
  | zero => rfl
  | succ generations ih =>
      obtain ⟨input, hinput, hgraph, hnext⟩ := loads_handed_over hloads
      rw [runExecute, runPinned, execute_pinned hinput hgraph]
      rcases hrun : execute (engine fuel) ctx inputJson with ⟨log, ended⟩
      cases ended with
      | returned outcome => rfl
      | unresolved => rfl
      | continuedAsNew next =>
          exact congrArg (fun rest => (log ++ rest.1, rest.2)) (ih (hnext log next hrun))

end Pinned

/-! ## Reading once -/

/-- The event reads node definitions. -/
def Event.IsRead (event : Event) : Prop :=
  ∃ site name input outcome, name ∈ loadNames ∧ event = .activity site name input outcome

/-- After a load that delivers the graph nothing reads node definitions. -/
def ReadsOnce (log : List Event) : Prop :=
  ∀ before event after, log = before ++ event :: after → event.delivered ≠ none →
    ∀ later ∈ after, ¬ later.IsRead

theorem other_activity_is_no_read {name : String} (h : name ∉ loadNames) (site : Site)
    (input : String) (outcome : Except String String) :
    ¬ (Event.activity site name input outcome).IsRead := by
  rintro ⟨_, _, _, _, hname, heq⟩
  cases heq
  exact h hname

/-- Node execution reads no node definitions. -/
theorem no_read_invariant : LogInvariant fun _ event => ¬ event.IsRead := by
  refine .of_activities (fun site input outcome name hname => ?_) fun event hother => ?_
  · refine other_activity_is_no_read (fun hload => ?_) _ _ _
    have hapart : ∀ name ∈ [updateNodeStatusName, executeSqlName, executeHttpName,
        executeMultipartName], name ∉ loadNames := by decide
    exact hapart name hname hload
  · intro hread
    obtain ⟨site, name, input, outcome, -, hevent⟩ := hread
    exact hother site name input outcome hevent

/-- Some waiting, and then at most one read. -/
def ReadsFirst (log : List Event) : Prop :=
  ∃ waits rest, log = waits ++ rest ∧ (∀ event ∈ waits, event.delivered = none) ∧
    ∀ event ∈ rest.tail, ¬ event.IsRead

theorem ReadsFirst.reads_once {log : List Event} (h : ReadsFirst log) : ReadsOnce log := by
  obtain ⟨waits, rest, hlog, hwaits, hrest⟩ := h
  intro before event after hsplit hdelivered later hlater
  have hnotin : event ∉ waits := fun hmem => hdelivered (hwaits event hmem)
  rw [hlog] at hsplit
  refine hrest later ?_
  rcases List.append_eq_append_iff.1 hsplit with ⟨front, rfl, hafter⟩ | ⟨back, rfl, hafter⟩
  · rw [hafter]
    cases front with
    | nil => exact hlater
    | cons first front =>
        exact List.mem_append_right _ (List.mem_cons_of_mem _ hlater)
  · cases back with
    | nil =>
        rw [List.nil_append] at hafter
        rw [← hafter]
        exact hlater
    | cons first back =>
        cases hafter
        exact absurd (List.mem_append_right before List.mem_cons_self) hnotin

theorem ReadsFirst.wait {waits log : List Event} (h : ReadsFirst log)
    (hwaits : ∀ event ∈ waits, event.delivered = none) : ReadsFirst (waits ++ log) := by
  obtain ⟨more, rest, hlog, hmore, hrest⟩ := h
  refine ⟨waits ++ more, rest, by rw [hlog, List.append_assoc], ?_, hrest⟩
  exact List.forall_mem_append.2 ⟨hwaits, hmore⟩

/-- A load of the graph before a log without reads. -/
theorem graph_load_reads_first {ctx : OrchestrationContext} {input : FunctionInput}
    {loads rest : List Event} (hloads : GraphLoad ctx input loads)
    (hrest : ∀ event ∈ rest, ¬ event.IsRead) : ReadsFirst (loads ++ rest) := by
  rcases List.eq_nil_or_concat loads with rfl | ⟨waits, last, rfl⟩
  · exact ⟨[], rest, rfl, nofun, fun event hevent => hrest event (List.mem_of_mem_tail hevent)⟩
  · refine ⟨waits, last :: rest, by simp, fun event hevent => ?_, hrest⟩
    have hwaits := hloads.waits
    rw [List.concat_eq_append, List.dropLast_concat] at hwaits
    exact (hwaits event hevent).2

section Reads

variable {fuel : Nat} {ctx : OrchestrationContext} {inputJson : String} {input : FunctionInput}

theorem finalize_no_reads (instanceId status : String) (attempt retries : Nat) :
    ∀ event ∈ finalizeEvents ctx instanceId status attempt retries, ¬ event.IsRead := by
  intro event hevent
  rcases finalize_events_cases hevent with ⟨attempt, rfl⟩ | ⟨_, rfl⟩
  · exact other_activity_is_no_read (by decide) _ _ _
  · rintro ⟨_, _, _, _, _, ⟨⟩⟩

/-- The root node reads no node definitions. -/
theorem root_node_no_reads {graph : FunctionGraph} {loads : List Event} {after : Machine}
    {outcome : Except Stop String}
    (hrun : (engine fuel).node ctx graph graph.rootNodeId (rootExecutionContext input graph)
      ⟨∅, loads ++ [instanceStatusEvent ctx input.instanceId "running" ctx.executionId]⟩ =
        (outcome, after)) :
    ∃ rest, after.log = loads ++ rest ∧ ∀ event ∈ rest, ¬ event.IsRead := by
  obtain ⟨events, hlog, hevents⟩ := (engine_logs no_read_invariant fuel).node ctx graph
    graph.rootNodeId (rootExecutionContext input graph)
    ⟨∅, loads ++ [instanceStatusEvent ctx input.instanceId "running" ctx.executionId]⟩
  rw [hrun] at hlog
  refine ⟨instanceStatusEvent ctx input.instanceId "running" ctx.executionId :: events, ?_, ?_⟩
  · rw [hlog, List.append_assoc, List.singleton_append]
  · exact List.forall_mem_cons.2 ⟨other_activity_is_no_read (by decide) _ _ _, hevents⟩

/-- A generation that gets no graph carries none. -/
theorem not_carried (h : receivedGraph ctx input = none) : input.graph = none := by
  cases hgraph : input.graph with
  | none => rfl
  | some json => simp [receivedGraph, hgraph] at h

/-- A generation loads its graph first, unless its input carries one. -/
theorem execute_reads (hinput : FunctionInput.ofJson inputJson = .ok input) :
    ∃ loads rest, (execute (engine fuel) ctx inputJson).1 = loads ++ rest ∧
      (∀ event ∈ rest, ¬ event.IsRead) ∧
      (GraphLoad ctx input loads ∨ input.graph = none ∧ ∀ event ∈ loads, event.IsWait ctx) := by
  have hruns := @execute_runs (engine fuel) ctx input inputJson hinput
  rcases hrun : execute (engine fuel) ctx inputJson with ⟨log, ended⟩
  rw [hrun] at hruns
  cases hruns with
  | waiting hwaits hgraph =>
      exact ⟨_, [], (List.append_nil _).symm, nofun, Or.inr ⟨not_carried hgraph, hwaits⟩⟩
  | refused hwaits hgraph =>
      exact ⟨_, _, rfl, finalize_no_reads _ _ _ _, Or.inr ⟨not_carried hgraph, hwaits⟩⟩
  | unreadable hloads => exact ⟨_, [], (List.append_nil _).symm, nofun, Or.inl hloads⟩
  | @executed loads _ _ _ outcome after hloads _ _ hnode =>
      obtain ⟨rest, hlog, hrest⟩ := root_node_no_reads hnode
      refine ⟨loads, rest ++ finalizeEvents ctx input.instanceId (terminalStatus outcome) 0
        maxStatusFinalizeAttempts, ?_, ?_, Or.inl hloads⟩
      · show after.log ++ _ = _
        rw [hlog, List.append_assoc]
      · exact List.forall_mem_append.2 ⟨hrest, finalize_no_reads _ _ _ _⟩
  | stopped hloads _ _ hnode =>
      obtain ⟨rest, hlog, hrest⟩ := root_node_no_reads hnode
      exact ⟨_, rest, hlog, hrest, Or.inl hloads⟩

/-- A generation that carries a graph, and all that follow it, read no node definitions. -/
theorem run_carried_no_reads (generations : Nat)
    (hinput : FunctionInput.ofJson inputJson = .ok input) (hcarried : input.graph ≠ none) :
    ∀ event ∈ (runExecute (engine fuel) generations ctx inputJson).1, ¬ event.IsRead := by
  induction generations generalizing ctx inputJson input with
  | zero => exact nofun
  | succ generations ih =>
      obtain ⟨loads, rest, hlog, hrest, hloads⟩ := @execute_reads fuel ctx inputJson input hinput
      have hempty : loads = [] := by
        rcases hloads with hloads | ⟨hgraph, -⟩
        · exact hloads.carried hcarried
        · exact absurd hgraph hcarried
      rw [runExecute]
      rcases hrun : execute (engine fuel) ctx inputJson with ⟨log, ended⟩
      rw [hrun, hempty] at hlog
      cases hlog
      cases ended with
      | returned outcome => exact hrest
      | unresolved => exact hrest
      | continuedAsNew next =>
          cases hands_over hinput hrun with
          | waiting _ hgraph => exact absurd (not_carried hgraph) hcarried
          | looping hnext => exact List.forall_mem_append.2 ⟨hrest, ih hnext nofun⟩

/-- A run waits, reads the graph once, and reads no node definitions afterwards. -/
theorem run_reads_first (generations : Nat) :
    ReadsFirst (runExecute (engine fuel) generations ctx inputJson).1 := by
  have hsilent : ∀ {rest : List Event}, (∀ event ∈ rest, ¬ event.IsRead) → ReadsFirst rest :=
    fun hrest => ⟨[], _, rfl, nofun, fun event hevent => hrest event (List.mem_of_mem_tail hevent)⟩
  induction generations generalizing ctx inputJson with
  | zero => exact hsilent nofun
  | succ generations ih =>
      rw [runExecute]
      cases hinput : FunctionInput.ofJson inputJson with
      | error e =>
          rw [execute_unread hinput]
          exact hsilent nofun
      | ok input =>
          obtain ⟨loads, rest, hlog, hrest, hloads⟩ := @execute_reads fuel ctx inputJson input hinput
          have hfirst : ∀ {later : List Event}, (∀ event ∈ later, ¬ event.IsRead) →
              ReadsFirst (loads ++ later) := by
            intro later hlater
            rcases hloads with hloads | ⟨-, hwaits⟩
            · exact graph_load_reads_first hloads hlater
            · exact (hsilent hlater).wait fun event hevent => (hwaits event hevent).2
          rcases hrun : execute (engine fuel) ctx inputJson with ⟨log, ended⟩
          rw [hrun] at hlog
          cases hlog
          cases ended with
          | returned outcome => exact hfirst hrest
          | unresolved => exact hfirst hrest
          | continuedAsNew next =>
              cases hands_over hinput hrun with
              | waiting _ _ hwaits =>
                  exact ReadsFirst.wait ih fun event hevent => (hwaits event hevent).2
              | looping hnext =>
                  show ReadsFirst ((loads ++ rest) ++ _)
                  rw [List.append_assoc]
                  refine hfirst (List.forall_mem_append.2 ⟨hrest, ?_⟩)
                  exact run_carried_no_reads generations hnext nofun

end Reads

/-! ## Isolation -/

/-- What changes of the nodes after the first successful load can do to a run: nothing. -/
structure Isolated (fuel generations : Nat) (ctx : OrchestrationContext) (inputJson : String)
    (answers : Path → (name input : String) → (attempt : Nat) → Except String String) : Prop where
  /-- The run with other later loads schedules the same activities and children with the same
  inputs, and ends the same. -/
  same : runExecute (engine fuel) generations (ctx.withLoads answers) inputJson =
    runExecute (engine fuel) generations ctx inputJson
  /-- Every generation and every child executes the loaded graph. -/
  pinned : ∀ graph, Loads (engine fuel) ctx inputJson graph →
    runExecute (engine fuel) generations ctx inputJson =
      runPinned graph (pinnedEngine graph fuel) generations ctx inputJson
  /-- Nothing reads node definitions after the first successful load. -/
  reads : ReadsOnce (runExecute (engine fuel) generations ctx inputJson).1

/-- An environment whose probes deliver a graph without nodes at once. -/
def promptCommit : World :=
  { World.quiet with
    activity := fun _ name _ _ => .ok (
      if name = transactionAwareName then
        "\x7b\"state\":\"ready\",\"graph\":\"\x7b\\\"instance_id\\\":\\\"aaaaaaaa\\\"," ++
          "\\\"root_node_id\\\":\\\"r\\\",\\\"nodes\\\":\x7b\x7d\x7d\"\x7d"
      else "null") }

/-- Loads that fail after the first generation's first poll. -/
def tamperedLater : Path → (name input : String) → (attempt : Nat) → Except String String :=
  fun path name input attempt =>
    if attempt ≤ graphWaitPollsPerExecution then promptCommit.activity path name input attempt
    else .error "the nodes were deleted"

end PgDurable.Orchestration
