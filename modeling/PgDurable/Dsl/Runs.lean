import PgDurable.Dsl.Evaluation
import PgDurable.Orchestration.Root

/-!
# Runs of started workflows

`evaluates` says that the interpreter does on the rows of a workflow what the evaluator does on the
workflow, by induction on how deep executions nest. `started_workflow_runs` says so of the instance
that `df.start` starts, with the graph as it is loaded and over all generations.
-/

namespace PgDurable.Dsl

open Json Text Requests InsertNodes Orchestration Program

def Shape.isLoop : Shape → Bool
  | .loop _ _ _ => true
  | _ => false

section Nodes

variable {surroundings : Surroundings} {graph : FunctionGraph} {engine : Engine}
variable {evaluator : Evaluator} {ctx : OrchestrationContext} {execCtx : ExecutionContext}
variable {w : Workflow} {tree : StoredNode} {below : Forest StoredNode}

theorem loop_type
    (hinstalled : Installed surroundings graph.nodes (ctx.path.map slot) w tree below) :
    isLoopType (nodeOf surroundings tree).nodeType = w.shape.isLoop := by
  have htype : (nodeOf surroundings tree).nodeType = w.shape.node.nodeType :=
    hinstalled.stored_as.node_type
  rw [htype]
  cases hshape : w.shape with
  | call call =>
      cases call with
      | sql query => exact (by decide : isLoopType "SQL" = false)
      | sleep seconds => exact (by decide : isLoopType "SLEEP" = false)
      | waitForSchedule cronExpr => exact (by decide : isLoopType "WAIT_SCHEDULE" = false)
      | breakFn value => exact (by decide : isLoopType "BREAK" = false)
      | waitForSignal name timeoutSeconds => exact (by decide : isLoopType "SIGNAL" = false)
      | http request body => exact (by decide : isLoopType "HTTP" = false)
      | httpMultipart request parts => exact (by decide : isLoopType "HTTP_MULTIPART" = false)
  | join branches =>
      obtain ⟨a, b, more, rfl⟩ := join_shape hshape
      exact (by decide : isLoopType "JOIN" = false)
  | thenFn a b => exact (by decide : isLoopType "THEN" = false)
  | loop body condition continueOnFailure => exact (by decide : isLoopType "LOOP" = true)
  | ifFn condition thenBranch elseBranch => exact (by decide : isLoopType "IF" = false)
  | ifRowsFn resultName thenBranch elseBranch => exact (by decide : isLoopType "IF" = false)
  | race a b => exact (by decide : isLoopType "RACE" = false)

/-- A node between its status writes ends as its logic does. -/
theorem stamped_apply (node : FunctionNode) (nodeId : String) (machine : Machine) :
    (executeStampedNode engine ctx graph node nodeId execCtx machine).1 =
        (executeNodeInner engine ctx graph node nodeId execCtx
          (machine.logged [statusEvent ctx graph nodeId "running" none])).1 ∧
      (executeStampedNode engine ctx graph node nodeId execCtx machine).2.results =
        (executeNodeInner engine ctx graph node nodeId execCtx
          (machine.logged [statusEvent ctx graph nodeId "running" none])).2.results := by
  rw [executeStampedNode, bind_ok (write_node_status_apply _ _ _ _ _ _)]
  have hattempt := attempt_apply (executeNodeInner engine ctx graph node nodeId execCtx)
    (machine.logged [statusEvent ctx graph nodeId "running" none])
  rcases hrun : executeNodeInner engine ctx graph node nodeId execCtx
    (machine.logged [statusEvent ctx graph nodeId "running" none]) with ⟨outcome, after⟩
  rw [hrun] at hattempt
  rw [bind_ok hattempt]
  cases outcome with
  | ok result => exact ⟨rfl, rfl⟩
  | error stop => cases stop <;> exact ⟨rfl, rfl⟩

/-- The stored type of a step decides which logic runs. -/
theorem node_kind
    (hinstalled : Installed surroundings graph.nodes (ctx.path.map slot) w tree below)
    {shape : Shape} {kind : NodeKind} (hshape : w.shape = shape)
    (hkind : nodeKind shape.node.nodeType = some kind) :
    nodeKind (nodeOf surroundings tree).nodeType = some kind := by
  have htype : (nodeOf surroundings tree).nodeType = w.shape.node.nodeType :=
    hinstalled.stored_as.node_type
  rw [htype, hshape, hkind]

variable (hfault : ∀ path id, surroundings.world.runtimeFault path id = surroundings.fault path)
variable (heval : Evaluates surroundings graph engine evaluator)
variable (hin : Belongs surroundings ctx execCtx)
variable (hinstance : graph.instanceId = surroundings.instanceId)
variable (hversion : graph.sqlQuotingVersion = surroundings.version)
variable (hinstalled : Installed surroundings graph.nodes (ctx.path.map slot) w tree below)

include hin hinstance hversion hinstalled in
/-- The node of a call does what the call does. -/
theorem call_performs {call : Call} (hshape : w.shape = .call call) :
    Performs id (executeNodeInner engine ctx graph (nodeOf surroundings tree) tree.row.id execCtx)
      (stepEffect surroundings evaluator (placeOf ctx execCtx) w) := by
  have hstored := hinstalled.stored_as
  have hid := hinstalled.step_id ctx.path rfl
  rw [hshape] at hstored
  obtain ⟨-, hcondition, hextra⟩ := leaf_slots (call_leaf call)
  have hquery : (nodeOf surroundings tree).query = call.node.query :=
    @stored_none { call.node with resultName := w.name } tree.row hstored hcondition hextra
  have hname : (nodeOf surroundings tree).resultName = w.name := hstored.result_name
  rw [executeNodeInner, stepEffect, hshape, hinstance, hversion, hin.label]
  cases call with
  | sql query =>
      rw [node_kind hinstalled hshape (by decide : nodeKind "SQL" = some .sql)]
      exact sql_performs hin.world hin.vars ⟨hquery, hname, rfl, rfl⟩ tree.row.id
  | sleep seconds =>
      rw [node_kind hinstalled hshape (by decide : nodeKind "SLEEP" = some .sleep)]
      exact sleep_performs ⟨hquery, hname, rfl, rfl⟩ tree.row.id rfl
  | waitForSchedule cronExpr =>
      rw [node_kind hinstalled hshape (by decide : nodeKind "WAIT_SCHEDULE" = some .waitSchedule)]
      exact wait_schedule_performs hin.world ⟨hquery, hname, rfl, rfl⟩ tree.row.id rfl
  | breakFn value =>
      rw [node_kind hinstalled hshape (by decide : nodeKind "BREAK" = some .breakNode)]
      exact break_performs ⟨hquery, hname, rfl, rfl⟩ rfl
  | waitForSignal name timeoutSeconds =>
      rw [node_kind hinstalled hshape (by decide : nodeKind "SIGNAL" = some .signal)]
      exact signal_performs hin.world ⟨hquery, hname, rfl, rfl⟩ tree.row.id rfl
  | http request body =>
      rw [node_kind hinstalled hshape (by decide : nodeKind "HTTP" = some .http)]
      exact http_performs hin.world hin.vars ⟨hquery, hname, rfl, rfl⟩ tree.row.id rfl
  | httpMultipart request parts =>
      rw [node_kind hinstalled hshape (by decide : nodeKind "HTTP_MULTIPART" = some .httpMultipart)]
      exact http_multipart_performs hin.world hin.vars ⟨hquery, hname, rfl, rfl⟩ tree.row.id rfl hid

include hfault heval hin hinstance hversion hinstalled in
/-- The logic of a node that is no loop. -/
theorem inner_performs (hloop : w.shape.isLoop = false)
    (hout : execCtx.subtreeRoot ∉ below.preorder.map (·.row.id)) :
    Performs id (executeNodeInner engine ctx graph (nodeOf surroundings tree) tree.row.id execCtx)
      (stepEffect surroundings evaluator (placeOf ctx execCtx) w) := by
  cases hshape : w.shape with
  | call call => exact call_performs hin hinstance hversion hinstalled hshape
  | loop body condition continueOnFailure =>
      rw [hshape] at hloop
      cases hloop
  | thenFn a b =>
      rw [executeNodeInner, node_kind hinstalled hshape
        (by decide : nodeKind "THEN" = some .thenNode)]
      exact then_performs heval hin hinstalled hout hshape
  | ifFn condition thenBranch elseBranch =>
      rw [executeNodeInner, node_kind hinstalled hshape
        (by decide : nodeKind "IF" = some .ifNode)]
      exact if_performs heval hin hinstalled hout hshape
  | ifRowsFn resultName thenBranch elseBranch =>
      rw [executeNodeInner, node_kind hinstalled hshape
        (by decide : nodeKind "IF" = some .ifNode)]
      exact if_rows_performs heval hin hinstalled hout hshape
  | join branches =>
      obtain ⟨a, b, more, rfl⟩ := join_shape hshape
      rw [executeNodeInner, node_kind hinstalled hshape
        (by decide : nodeKind "JOIN" = some .join)]
      exact join_performs hfault heval hin hinstalled hshape
  | race a b =>
      rw [executeNodeInner, node_kind hinstalled hshape
        (by decide : nodeKind "RACE" = some .race)]
      exact race_performs hfault heval hin hinstalled hshape

include hfault heval hin hinstance hversion hinstalled in
/-- A step below the root of its orchestration. -/
theorem step_performs (hout : execCtx.subtreeRoot ∉ (tree :: below.preorder).map (·.row.id)) :
    Performs id (executeFunctionNodeWithVars engine ctx graph tree.row.id execCtx)
      (stepEffect surroundings evaluator (placeOf ctx execCtx) w) := by
  rw [List.map_cons, List.mem_cons, not_or] at hout
  have hother : (tree.row.id != execCtx.subtreeRoot) = true := bne_iff_ne.2 (Ne.symm hout.1)
  rw [executeFunctionNodeWithVars, hinstalled.found, or_missing_some, pure_bind]
  refine performs_emit ?_
  rw [hother, Bool.and_true, loop_type hinstalled]
  cases hloop : w.shape.isLoop with
  | true =>
      rw [if_pos rfl]
      cases hshape : w.shape with
      | loop body condition continueOnFailure =>
          exact loop_child_performs hfault heval hin hinstalled hshape
      | call | thenFn | ifFn | ifRowsFn | join | race =>
          rw [hshape] at hloop
          cases hloop
  | false =>
      rw [if_neg Bool.false_ne_true]
      intro machine
      -- The status writes around the logic change the log only.
      obtain ⟨houtcome, hresults⟩ :=
        stamped_apply (nodeOf surroundings tree) tree.row.id machine
      rw [houtcome, hresults]
      exact inner_performs hfault heval hin hinstance hversion hinstalled hloop hout.2
        (machine.logged [statusEvent ctx graph tree.row.id "running" none])

/-- A loop's body, configuration and condition. -/
theorem loop_installed
    (hinstalled : Installed surroundings graph.nodes (ctx.path.map slot) w tree below)
    {body : Workflow} {condition : Option Workflow} {continueOnFailure : Bool}
    (hshape : w.shape = .loop body condition continueOnFailure) :
    ∃ first inner conditionId, (nodeOf surroundings tree).leftNode = some first.row.id ∧
      parseLoopConfig (nodeOf surroundings tree) tree.row.id =
        .ok ⟨continueOnFailure, conditionId⟩ ∧
      Installed surroundings graph.nodes (ctx.path.map slot ++ [0]) body first inner ∧
      tree.row.id ∉ (first :: inner.preorder).map (·.row.id) ∧
      ConditionAt surroundings graph ctx tree.row.id conditionId condition := by
  have hchildren := hinstalled.children
  have hstored := hinstalled.stored_as
  have hout := hinstalled.not_below
  rw [hshape] at hchildren hstored
  obtain ⟨first, inner, rest, rfl, hfirst, hrest, hnames⟩ := hchildren.cons hinstalled.names
  have hout' := not_in_first hout
  cases condition with
  | none =>
      obtain rfl := Loaded.nil hrest
      obtain ⟨hleft, hconfig⟩ := loop_decoded hstored hinstalled.references_eq
        (rfl : (nodeOf surroundings tree).query = tree.row.query) tree.row.id
      exact ⟨first, inner, none, hleft, hconfig, hfirst, hout'.1, rfl⟩
  | some condition =>
      obtain ⟨second, inner', rest, rfl, hsecond, hrest, -⟩ := Loaded.cons hrest hnames
      obtain rfl := hrest.nil
      obtain ⟨hleft, hconfig⟩ := loop_while_decoded hstored hinstalled.references_eq
        (rfl : (nodeOf surroundings tree).query = tree.row.query) tree.row.id
      exact ⟨first, inner, some second.row.id, hleft, hconfig, hfirst, hout'.1, second, inner', rfl,
        hsecond, (not_in_first hout'.2).1⟩

include hfault heval hin hinstalled in
/-- A turn of a loop at the root of its orchestration. -/
theorem loop_turn {body : Workflow} {condition : Option Workflow} {continueOnFailure : Bool}
    (hshape : w.shape = .loop body condition continueOnFailure)
    (hroot : execCtx.subtreeRoot = tree.row.id) (machine : Machine) :
    EndsAs graph tree.row.id execCtx
      (executeLoopNode engine ctx graph (nodeOf surroundings tree) tree.row.id execCtx machine)
      (turnEffect surroundings evaluator (placeOf ctx execCtx) w execCtx.loopIteration
        machine.results) := by
  obtain ⟨first, inner, conditionId, hleft, hconfig, hbody, hout, hcondition⟩ :=
    loop_installed hinstalled hshape
  have hname : (nodeOf surroundings tree).resultName = w.name := hinstalled.stored_as.result_name
  rw [← hroot] at hout hcondition
  have hrun := iterate_performs hfault heval hin hname hbody hout hcondition continueOnFailure
    machine
  rw [executeLoopNode, hleft, or_missing_some, pure_bind, hconfig, or_fail_ok, pure_bind,
    turnEffect, hshape]
  dsimp only
  rcases hafter : iterate surroundings evaluator (placeOf ctx execCtx) w.name body condition
    continueOnFailure execCtx.loopIteration machine.results with ⟨outcome, results⟩
  rcases hmachine : loopIteration engine ctx graph (nodeOf surroundings tree) execCtx
    ⟨continueOnFailure, conditionId⟩ first.row.id machine with ⟨concrete, after⟩
  rw [hafter, hmachine] at hrun
  obtain ⟨houtcome, hresults⟩ := hrun
  dsimp only at houtcome hresults
  subst houtcome hresults
  cases outcome with
  | error halt =>
      rw [bind_error hmachine, bind_error hafter]
      cases halt <;> exact ⟨rfl, rfl⟩
  | ok value =>
      rw [bind_ok hmachine, bind_ok hafter]
      cases value with
      | some result => exact ⟨rfl, rfl⟩
      | none =>
          dsimp only [id]
          split_ifs with hlimit
          · exact ⟨rfl, rfl⟩
          · obtain ⟨pause, -, hrate⟩ := rate_limit_apply ctx execCtx
              (ctx.world.utcNow (ctx.path ++ [.loopBody execCtx.loopIteration]) 0) after
            rw [bind_ok hrate, bind_ok (read_results_apply _)]
            exact ⟨rfl, rfl⟩

theorem turn_of_step (hloop : w.shape.isLoop = false) (place : Place) (iteration : Nat) :
    turnEffect surroundings evaluator place w iteration = (do
      let result ← stepEffect surroundings evaluator place w
      pure (.done result)) := by
  rw [turnEffect]
  cases hshape : w.shape with
  | loop =>
      rw [hshape] at hloop
      cases hloop
  | call | thenFn | ifFn | ifRowsFn | join | race => rfl

include hfault heval hin hinstance hversion hinstalled in
/-- A turn of an orchestration. -/
theorem turn_ends (hroot : execCtx.subtreeRoot = tree.row.id) (machine : Machine) :
    EndsAs graph tree.row.id execCtx
      (executeFunctionNodeWithVars engine ctx graph tree.row.id execCtx machine)
      (turnEffect surroundings evaluator (placeOf ctx execCtx) w execCtx.loopIteration
        machine.results) := by
  have hsame : (tree.row.id != execCtx.subtreeRoot) = false := by rw [hroot, bne_self_eq_false]
  rw [executeFunctionNodeWithVars, hinstalled.found, or_missing_some, pure_bind, hsame,
    Bool.and_false, if_neg Bool.false_ne_true, bind_ok (emit_apply _ _)]
  obtain ⟨houtcome, hresults⟩ := stamped_apply (nodeOf surroundings tree) tree.row.id
    (machine.logged [.visited ctx.site tree.row.id])
  rw [EndsAs, houtcome, hresults]
  cases hloop : w.shape.isLoop with
  | true =>
      cases hshape : w.shape with
      | loop body condition continueOnFailure =>
          rw [executeNodeInner, node_kind hinstalled hshape
            (by decide : nodeKind "LOOP" = some .loop)]
          exact loop_turn hfault heval hin hinstalled hshape hroot _
      | call | thenFn | ifFn | ifRowsFn | join | race =>
          rw [hshape] at hloop
          cases hloop
  | false =>
      obtain ⟨hends, hlast⟩ := inner_performs hfault heval hin hinstance hversion hinstalled hloop
        (hroot ▸ hinstalled.not_below)
        ((machine.logged [.visited ctx.site tree.row.id]).logged
          [statusEvent ctx graph tree.row.id "running" none])
      rw [logged_results, logged_results] at hends hlast
      rw [hends, hlast, turn_of_step hloop, bind_apply]
      cases (stepEffect surroundings evaluator (placeOf ctx execCtx) w machine.results).1 with
      | ok result => exact ⟨rfl, rfl⟩
      | error halt => cases halt <;> exact ⟨rfl, rfl⟩

/-- A loop goes on with its next iteration, below its limit only. -/
theorem turn_bounded {place : Place} {iteration next : Nat} {before after : StringMap}
    (h : turnEffect surroundings evaluator place w iteration before = (.ok (.again next), after)) :
    next = iteration + 1 ∧ next < maxLoopIterations := by
  cases hloop : w.shape.isLoop with
  | false =>
      rw [turn_of_step hloop, bind_apply] at h
      -- What is no loop never asks for another turn.
      cases hstep : (stepEffect surroundings evaluator place w before).1 <;> rw [hstep] at h <;>
        cases h
  | true =>
      cases hshape : w.shape with
      | loop body condition continueOnFailure =>
          rw [turnEffect, hshape] at h
          dsimp only at h
          rcases hrun : iterate surroundings evaluator place w.name body condition continueOnFailure
            iteration before with ⟨outcome | outcome, results⟩
          · rw [bind_error hrun] at h
            cases h
          · rw [bind_ok hrun] at h
            cases outcome with
            | some result => cases h
            | none =>
                dsimp only at h
                split_ifs at h with hlimit
                · cases h
                · cases h
                  exact ⟨rfl, Nat.lt_of_not_le hlimit⟩
      | call | thenFn | ifFn | ifRowsFn | join | race =>
          rw [hshape] at hloop
          cases hloop

include heval hin hinstalled in
/-- A child replies what its turns make of the workflow. -/
theorem child_replies (results : StringMap) {iteration : Nat}
    (hiteration : iteration < maxLoopIterations) :
    (runSubtree engine ctx (subtreeText graph tree.row.id results execCtx iteration)).2 =
      (childReply evaluator (placeOf ctx execCtx) w iteration results).map ChildReply.text := by
  have hfits : iteration < 2 ^ 64 := hiteration.trans (by decide)
  have hentered : Belongs surroundings ctx (execCtx.enter tree.row.id iteration) :=
    ⟨hin.world, hin.vars, hin.label⟩
  obtain ⟨houtcome, hresults⟩ := heval.turn hentered hinstalled rfl ⟨results, []⟩
  rw [run_subtree_reads engine ctx graph tree.row.id results execCtx hfits]
  dsimp only
  rw [houtcome, hresults, childReply]
  have hplace : placeOf ctx (execCtx.enter tree.row.id iteration) = placeOf ctx execCtx := rfl
  have hcounter : (execCtx.enter tree.row.id iteration).loopIteration = iteration := rfl
  rw [hplace, hcounter]
  rcases hrun : evaluator.turn (placeOf ctx execCtx) w iteration results with ⟨outcome, after⟩
  cases outcome with
  | error halt =>
      cases halt with
      | never => rfl
      | raised error => cases error <;> rfl
  | ok turn =>
      cases turn with
      | done result => rfl
      | again next =>
          -- The child continues as new and replies what its next turn makes.
          have hlater : Belongs surroundings { ctx with executionId := ctx.executionId + 1 }
              execCtx := ⟨hin.world, hin.vars, hin.label⟩
          exact heval.child hlater hinstalled after (heval.bounded hrun)

end Nodes

/-- The interpreter evaluates installed workflows. -/
theorem evaluates {surroundings : Surroundings} {graph : FunctionGraph}
    (hfault : ∀ path id, surroundings.world.runtimeFault path id = surroundings.fault path)
    (hinstance : graph.instanceId = surroundings.instanceId)
    (hversion : graph.sqlQuotingVersion = surroundings.version) (fuel : Nat) :
    Evaluates surroundings graph (Orchestration.engine fuel) (evaluator surroundings fuel) := by
  -- Each level nests executions of the one before, so the rules for nodes carry the step.
  induction fuel with
  | zero =>
      exact ⟨fun _ _ _ => simulates_exit Halt.never, fun _ _ _ _ => ⟨rfl, rfl⟩,
        fun _ _ _ _ _ => rfl, fun h => by cases h⟩
  | succ fuel ih =>
      exact ⟨fun hin hinstalled hout =>
          step_performs hfault ih hin hinstance hversion hinstalled hout,
        fun hin hinstalled hroot machine =>
          turn_ends hfault ih hin hinstance hversion hinstalled hroot machine,
        fun hin hinstalled results _ hiteration =>
          child_replies ih hin hinstalled results hiteration,
        fun h => (turn_bounded h).2⟩

/-! ## Instances -/

/-- A generation with its graph returns what its root node ends with, or ends as the node stops. -/
theorem generation_ends {engine : Engine} {ctx : OrchestrationContext} {graph : FunctionGraph}
    {inputJson : String} {input : FunctionInput}
    (hinput : FunctionInput.ofJson inputJson = .ok input)
    (hgraph : receivedGraph ctx input = some graph.toJson) :
    ∃ log, (∀ outcome, rootOutcome (engine.node ctx graph graph.rootNodeId
          (rootExecutionContext input graph) ⟨∅, log⟩).1 = some outcome →
        (execute engine ctx inputJson).2 = .returned outcome) ∧
      ∀ stop, (engine.node ctx graph graph.rootNodeId
          (rootExecutionContext input graph) ⟨∅, log⟩).1 = .error stop →
        (∀ error, stop ≠ .raised error) →
        (execute engine ctx inputJson).2 = endExecute (.error stop) := by
  have hruns := @execute_runs engine ctx input inputJson hinput
  generalize execute engine ctx inputJson = run at hruns ⊢
  obtain ⟨events, ended⟩ := run
  cases hruns with
  -- A generation that waits for its graph has none, and here the graph is received.
  | waiting hwaits hnone =>
      rw [hgraph] at hnone
      cases hnone
  | refused hwaits hnone =>
      rw [hgraph] at hnone
      cases hnone
  | unreadable hloads hjson hread =>
      cases hgraph.symm.trans hjson
      rw [graph_of_json_to_json] at hread
      cases hread
  | @executed loads json read result outcome after hloads hjson hread hrun houtcome =>
      cases hgraph.symm.trans hjson
      rw [graph_of_json_to_json] at hread
      cases hread
      refine ⟨loads ++ [instanceStatusEvent ctx input.instanceId "running" ctx.executionId], ?_⟩
      rw [hrun]
      refine ⟨fun other hother => ?_, fun stop hresult hstop => ?_⟩
      · exact congrArg Ended.returned (Option.some.inj (houtcome.symm.trans hother))
      · obtain rfl : result = .error stop := hresult
        cases stop with
        | raised error => exact absurd rfl (hstop error)
        | continuedAsNew => cases houtcome
        | unresolved => cases houtcome
  | @stopped loads json read stop after hloads hjson hread hrun hstop =>
      cases hgraph.symm.trans hjson
      rw [graph_of_json_to_json] at hread
      cases hread
      refine ⟨loads ++ [instanceStatusEvent ctx input.instanceId "running" ctx.executionId], ?_⟩
      rw [hrun]
      refine ⟨fun outcome houtcome => ?_, fun other hother _ => ?_⟩
      · cases stop with
        | raised error => exact absurd rfl (hstop error)
        | continuedAsNew => cases houtcome
        | unresolved => cases houtcome
      · obtain rfl : stop = other := Except.error.inj hother
        rfl

/-- Generation after generation, an instance does what the turns of its workflow do. -/
theorem instance_runs {surroundings : Surroundings} {graph : FunctionGraph} {w : Workflow}
    {tree : StoredNode} {below : Forest StoredNode}
    (hfault : ∀ path id, surroundings.world.runtimeFault path id = surroundings.fault path)
    (hinstance : graph.instanceId = surroundings.instanceId)
    (hversion : graph.sqlQuotingVersion = surroundings.version)
    (hinstalled : Installed surroundings graph.nodes [] w tree below)
    (hroot : graph.rootNodeId = tree.row.id) (fuel turns : Nat) {ctx : OrchestrationContext}
    {inputJson : String} {input : FunctionInput} (hpath : ctx.path = [])
    (hinput : FunctionInput.ofJson inputJson = .ok input)
    (hin : Belongs surroundings ctx (rootExecutionContext input graph))
    (hgraph : receivedGraph ctx input = some graph.toJson) :
    (runExecute (Orchestration.engine fuel) turns ctx inputJson).2 =
      w.run surroundings fuel turns input.loopIteration := by
  have heval := evaluates hfault hinstance hversion fuel
  -- Every generation runs the same graph; its input differs in the iteration only.
  induction turns generalizing ctx inputJson input with
  | zero => rfl
  | succ turns ih =>
      have hslots : ctx.path.map slot = [] := by
        rw [hpath]
        rfl
      have hplace : placeOf ctx (rootExecutionContext input graph) = ⟨[], false⟩ := by
        rw [placeOf, hpath]
        rfl
      have hturn : ∀ log, EndsAs graph tree.row.id (rootExecutionContext input graph)
          ((Orchestration.engine fuel).node ctx graph tree.row.id
            (rootExecutionContext input graph) ⟨∅, log⟩)
          ((evaluator surroundings fuel).turn ⟨[], false⟩ w input.loopIteration ∅) :=
        fun log => hplace ▸ heval.turn hin (hslots ▸ hinstalled) hroot ⟨∅, log⟩
      obtain ⟨log, hreturned, hstopped⟩ :=
        @generation_ends (Orchestration.engine fuel) ctx graph inputJson input hinput hgraph
      obtain ⟨hends, -⟩ := hturn log
      rw [hroot, hends] at hreturned hstopped
      rw [runExecute, Workflow.run]
      rcases hexecute : execute (Orchestration.engine fuel) ctx inputJson with ⟨events, ended⟩
      rw [hexecute] at hreturned hstopped
      rcases hevaluated : (evaluator surroundings fuel).turn ⟨[], false⟩ w input.loopIteration ∅
        with ⟨outcome, results⟩
      rw [hevaluated] at hreturned hstopped
      rcases outcome with (error | -) | (result | next)
      · obtain rfl := hreturned _ rfl
        rfl
      · obtain rfl := hstopped _ rfl fun error h => by cases h
        rfl
      · obtain rfl := hreturned _ rfl
        rfl
      · obtain rfl := hstopped _ rfl fun error h => by cases h
        have hbound := heval.bounded hevaluated
        have hfits : next < 2 ^ 64 := hbound.trans (by decide)
        have hzero : 0 < 2 ^ 32 := by decide
        -- The loop continues as new, with the graph in its input.
        exact @ih { ctx with executionId := ctx.executionId + 1 } _ _ hpath
          (function_input_of_json_to_json ⟨hfits, hzero, hzero⟩)
          ⟨hin.world, hin.vars, hin.label⟩ rfl

/-- The ids of the steps of a stored workflow. -/
def stepIds (tree : StoredNode) (below : Forest StoredNode) (path : Path) : String :=
  match path.map slot with
  | [] => tree.row.id
  | index :: inner => idAt below index inner

section Started

variable {γ : Type} {marker : Option String} {checkCron : String → Except String Unit}
variable {security : HttpSecurity} {nextUuid : γ → Instances.Uuid × γ}
variable {sinkTable : String → Except String Bool} {generator : γ} {w : Workflow}
variable {text rootId : String} {rows : List MaterializedNode}
variable {instanceId submittedBy : String} {database : Option String}
variable {fetched : List (NodeColumns × Option String)}
variable {nodes : Std.ExtTreeMap String FunctionNode}

/-- A workflow that `df.start` takes is installed in the graph that is loaded of its rows. -/
theorem started_installed (hbuild : w.build marker checkCron security = .ok text)
    (hmarker : nonFutureHelperName marker text = none)
    (hstarted : prepareGraph marker nextUuid sinkTable text generator = some (.ok (rootId, rows)))
    (hfetched : (fetched.map (·.1)).Perm (rows.map (storedColumns database)))
    (hrole : ∀ entry ∈ fetched, entry.2 = some submittedBy)
    (hload : collectNodes instanceId fetched = .ok nodes) :
    ∃ (tree : StoredNode) (below : Forest StoredNode), rootId = tree.row.id ∧
      ∀ surroundings : Surroundings, surroundings.stepId = stepIds tree below →
        surroundings.submittedBy = submittedBy → surroundings.database = database →
        Installed surroundings nodes [] w tree below := by
  have hchecks : (Forest.cons w.node w.steps .nil).Grown fun node _ =>
      ∀ row, StoredAs node row → checkHttpNode sinkTable row = .ok () :=
    Forest.Grown.imp (workflow_acceptable hbuild) fun node _ _ hacceptable row hrow =>
      (hacceptable row hrow).http sinkTable
  -- Of the ways in which preparing can end, only the one with rows is `.ok`.
  obtain ⟨result, hresult, hcases⟩ := @tree_prepared γ marker nextUuid sinkTable text generator _ _
    (build_denotes hbuild marker hmarker).2 (workflow_tree w) hchecks
  rw [hstarted] at hresult
  obtain rfl := Option.some.inj hresult
  obtain ⟨htree, -, -⟩ := prepared_row_tree hstarted
  rcases hcases with ⟨path, hfailed⟩ | ⟨-, message, hfailed⟩ |
    ⟨-, rootId', stored, hok, hroots, hnodes, hstored⟩
  · cases hfailed
  · cases hfailed
  · obtain ⟨rfl, rfl⟩ := Prod.mk.inj (Except.ok.inj hok)
    obtain ⟨tree, below, rest, rfl, -, -, hrest⟩ := Forest.map_eq_cons hnodes
    cases rest with
    | cons => cases hrest
    | nil =>
        refine ⟨tree, below, (List.cons.inj hroots).1.symm, ?_⟩
        rintro surroundings hstep rfl rfl
        -- Every row is loaded with the role of the instance, for all rows have that role.
        have hrows : ∀ stored ∈ (Forest.cons tree below .nil).preorder, nodes[stored.row.id]? =
            some (loadedNode surroundings.submittedBy surroundings.database stored.row) := by
          intro stored hmem
          obtain ⟨role, hnode⟩ := loaded_row htree hfetched hload (List.mem_map_of_mem hmem)
          obtain ⟨row, -, -, other, hentry, heq⟩ :=
            (loaded_node_iff htree hfetched hload _ _).1 hnode
          have hother : other = surroundings.submittedBy := Option.some.inj (hrole _ hentry)
          have hsame : role = other := congrArg FunctionNode.submittedBy heq
          rw [hnode, hsame, hother]
        have hnodup : ((Forest.cons tree below .nil).preorder.map (·.row.id)).Nodup := by
          have hids := htree.nodup
          rwa [List.map_map] at hids
        refine ⟨⟨hnodes, hstored, hrows, hnodup⟩, fun path hpath => ?_,
          fun path index inner hpath => ?_⟩
        · rw [hstep, stepIds, hpath]
        · rw [List.nil_append, Nat.zero_add] at hpath
          rw [hstep, stepIds, hpath]

end Started

/-- A loop that its first iteration ends. -/
def onceWorkflow : Workflow := .loop (.leaf (.breakFn (some "done"))) false

def onceText : Except String String := onceWorkflow.build none (fun _ => .ok ()) .restricted

theorem once_prepared : (onceText.toOption.bind prepareInOrder).any Except.isOk = true := by
  decide +kernel

/-- The loop as it is stored and loaded. -/
theorem once_loaded : ∃ (text rootId : String) (rows : List MaterializedNode)
    (nodes : Std.ExtTreeMap String FunctionNode), onceText = .ok text ∧
      prepareInOrder text = some (.ok (rootId, rows)) ∧
      (((rows.map (storedColumns none)).map fun columns => (columns, some "alice")).map
        (·.1)).Perm (rows.map (storedColumns none)) ∧
      (∀ entry ∈ (rows.map (storedColumns none)).map fun columns => (columns, some "alice"),
        entry.2 = some "alice") ∧
      collectNodes "3f9a01bc" ((rows.map (storedColumns none)).map fun columns =>
        (columns, some "alice")) = .ok nodes := by
  have hstarted := once_prepared
  cases hbuild : onceText with
  | error message =>
      rw [hbuild] at hstarted
      cases hstarted
  | ok text =>
      rw [hbuild, Except.toOption, Option.bind_some] at hstarted
      obtain ⟨rootId, rows, hprepared⟩ := rows_of_prepared hstarted
      obtain ⟨nodes, hload⟩ :=
        collect_returns "3f9a01bc" (rows.map (storedColumns none)) "alice" ∅
      refine ⟨text, rootId, rows, nodes, rfl, hprepared, ?_, fun entry hentry => ?_, hload⟩
      · rw [List.map_map]
        exact .of_eq (List.map_id _)
      · obtain ⟨columns, -, rfl⟩ := List.mem_map.1 hentry
        rfl

/-- What the loop does: its result is the value of the break. -/
theorem once_result (stepId : Path → String) :
    onceWorkflow.run ⟨.quiet, fun _ => none, stepId, "3f9a01bc", none, ∅, "alice", none, .v1⟩ 4 1
      0 = some (.ok "\"done\"") := by
  have hvalue : print ((parse "done").getD (.string "done")) = "\"done\"" := by decide +kernel
  rw [← hvalue]
  rfl

end PgDurable.Dsl
