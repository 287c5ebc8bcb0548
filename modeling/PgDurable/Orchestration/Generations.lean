import PgDurable.Orchestration.Exhaustion
import PgDurable.Orchestration.Root

/-!
# The generations of a loop

A loop at the root of an orchestration runs one iteration in each generation and hands over to the
next one by a text: the root orchestration by the text of a `FunctionInput`, a child by the text of
a `SubtreeInput`. `Hosts` says on what a generation executes its root node, and `Later` follows the
generations of either kind. `loop_generations` says what generation `k` of a loop is: iteration `k`
on the graph and the execution context of the first one, its body started once.
-/

namespace PgDurable.Orchestration

open Json Program

/-! ## Hosts -/

/-- One generation of the orchestration that hosts a loop. -/
def generation (host : Continuation) (engine : Engine) (ctx : OrchestrationContext)
    (inputJson : String) : List Event × Ended :=
  match host with
  | .root => execute engine ctx inputJson
  | .subtree => executeSubtree engine ctx inputJson

/-- The generation with this input executes its root node on the graph, in the execution context,
from the named results. -/
inductive Hosts (ctx : OrchestrationContext) (inputJson : String) (graph : FunctionGraph) :
    ExecutionContext → StringMap → Prop
  | root {input : FunctionInput} {json : String}
      (hinput : FunctionInput.ofJson inputJson = .ok input)
      (hgraph : receivedGraph ctx input = some json) (hread : FunctionGraph.ofJson json = .ok graph) :
      Hosts ctx inputJson graph (rootExecutionContext input graph) ∅
  | subtree {input : SubtreeInput} {results vars : StringMap}
      (hinput : SubtreeInput.ofJson inputJson = .ok input)
      (hparts : parseSubtreeParts input = .ok (graph, results, vars)) :
      Hosts ctx inputJson graph (subtreeExecutionContext input vars) results

/-- Some generations later, each executed with some nesting, the orchestration runs in the second
context with the second input. -/
inductive Later (host : Continuation) (ctx : OrchestrationContext) (inputJson : String) :
    Nat → OrchestrationContext → String → Prop
  | first : Later host ctx inputJson 0 ctx inputJson
  | next {count fuel : Nat} {later : OrchestrationContext} {laterJson next : String}
      {log : List Event} (h : Later host ctx inputJson count later laterJson)
      (hrun : generation host (engine fuel) later laterJson = (log, .continuedAsNew next)) :
      Later host ctx inputJson (count + 1) { later with executionId := later.executionId + 1 } next

/-- The execution context at an iteration. -/
def ExecutionContext.at (execCtx : ExecutionContext) (iteration : Nat) : ExecutionContext :=
  { execCtx with loopIteration := iteration }

/-- The named results that the next generation starts from: only a child threads its own on. -/
def handedOn (host : Continuation) (results : StringMap) : StringMap :=
  match host with
  | .root => ∅
  | .subtree => results

/-! ## Handing over -/

section Continues

/-- The node continues as new only with the next iteration of the loop at its root, below the
limit. -/
def ContinuesNext (graph : FunctionGraph) (execCtx : ExecutionContext)
    (outcome : Except Stop String) (after : Machine) : Prop :=
  ∀ input, outcome = .error (.continuedAsNew input) →
    execCtx.loopIteration + 1 < maxLoopIterations ∧
      input = continuationInput graph execCtx.subtreeRoot execCtx after.results
        (execCtx.loopIteration + 1)

/-- A reply of a child never makes its parent continue as new. -/
theorem reply_ne_continued {reply : ChildReply} {context input : String} :
    reply.outcome context ≠ .error (.continuedAsNew input) := by
  rcases reply with ⟨_ | _, value, map⟩ | text <;> simp [ChildReply.outcome, SubtreeControl.outcome]

variable {engine : Engine}
  (hengine : ∀ ctx graph nodeId execCtx machine,
    ContinuesNext graph execCtx (engine.node ctx graph nodeId execCtx machine).1
      (engine.node ctx graph nodeId execCtx machine).2)
  {ctx : OrchestrationContext} {graph : FunctionGraph} {node : FunctionNode} {nodeId : String}
  {execCtx : ExecutionContext} {machine after : Machine}

include hengine

/-- A step below the node that continues as new. -/
theorem step_continues {step : Step} {id input : String}
    (hrun : engine.node (ctx.down step) graph id execCtx machine =
      (.error (.continuedAsNew input), after)) :
    execCtx.loopIteration + 1 < maxLoopIterations ∧
      input = continuationInput graph execCtx.subtreeRoot execCtx after.results
        (execCtx.loopIteration + 1) := by
  have hstep := hengine (ctx.down step) graph id execCtx machine input
  rw [hrun] at hstep
  exact hstep rfl

theorem sequence_continues {outcome : Except Stop String}
    (hrun : SequenceRun engine ctx graph node execCtx machine outcome after) :
    ContinuesNext graph execCtx outcome after := by
  intro input hinput
  cases hrun with
  | failed => cases hinput
  | returned => cases hinput
  | stopped _ _ hlast =>
      cases hinput
      exact step_continues hengine hlast

theorem iteration_continues {config : LoopConfig} {bodyId : String}
    {outcome : Except Stop (Option String)}
    (hrun : IterationRun engine ctx graph node execCtx config bodyId machine outcome after)
    {input : String} (hinput : outcome = .error (.continuedAsNew input)) :
    execCtx.loopIteration + 1 < maxLoopIterations ∧
      input = continuationInput graph execCtx.subtreeRoot execCtx after.results
        (execCtx.loopIteration + 1) := by
  cases hrun with
  | consumed | broke | unconditional => cases hinput
  | stopped hbody =>
      cases hinput
      generalize hresult : BodyResult.stopped (.continuedAsNew input) = result at hbody
      cases hbody with
      | stuck => cases hresult
      | @inline outcome _ _ hnode =>
          rcases outcome with ((other | message | message) | other | _) | other <;> cases hresult
          exact step_continues hengine hnode
      | @isolated _ reply _ _ _ =>
          rcases reply with ⟨_ | _, value, map⟩ | text
          · cases hresult
          · cases hresult
          · cases hdecode : decodeSubtreeApplicationFailure text <;>
              simp [isolatedBodyResult, hdecode] at hresult
  | @conditional value _ outcome _ _ results _ _ hnode hresults =>
      rw [hinput] at hresults
      subst hresults
      rcases outcome with ((other | message | message) | other | _) | other <;> cases hinput
      exact step_continues hengine hnode

theorem loop_continues (hroot : nodeId = execCtx.subtreeRoot) {outcome : Except Stop String}
    (hrun : LoopRun engine ctx graph node nodeId execCtx machine outcome after) :
    ContinuesNext graph execCtx outcome after := by
  intro input hinput
  cases hrun with
  | failed => cases hinput
  | ended => cases hinput
  | exhausted => cases hinput
  | stopped _ _ hiteration =>
      cases hinput
      exact iteration_continues hengine hiteration rfl
  | continued _ _ _ hlimit _ =>
      cases hinput
      exact ⟨hlimit, by rw [hroot, logged_results]⟩

theorem inner_continues (hroot : nodeKind node.nodeType = some .loop → nodeId = execCtx.subtreeRoot)
    {outcome : Except Stop String}
    (hrun : InnerRun engine ctx graph node nodeId execCtx machine outcome after) :
    ContinuesNext graph execCtx outcome after := by
  cases hrun with
  | sequence _ hrun => exact sequence_continues hengine hrun
  | loop hkind hrun => exact loop_continues hengine (hroot hkind) hrun
  | leaf hrun =>
      intro input hinput
      cases hrun <;> cases hinput
  | join _ hrun =>
      intro input hinput
      cases hrun <;> cases hinput
  | race _ hrun =>
      intro input hinput
      cases hrun with
      | failed => cases hinput
      | stuck => cases hinput
      | replied => exact absurd hinput reply_ne_continued

theorem node_continues {outcome : Except Stop String}
    (hrun : NodeRun engine ctx graph nodeId execCtx machine outcome after) :
    ContinuesNext graph execCtx outcome after := by
  intro input hinput
  cases hrun with
  | missing => cases hinput
  | returned => cases hinput
  | raised => cases hinput
  | stopped _ hroot _ hinner => exact inner_continues hengine hroot hinner input hinput
  | child _ _ _ hchild =>
      cases hchild with
      | failed => cases hinput
      | stuck => cases hinput
      | replied => exact absurd hinput reply_ne_continued

end Continues

/-- Every interpreter continues only with the next iteration of the loop at its root. -/
theorem engine_continues (fuel : Nat) :
    ∀ ctx graph nodeId execCtx machine,
      ContinuesNext graph execCtx ((engine fuel).node ctx graph nodeId execCtx machine).1
        ((engine fuel).node ctx graph nodeId execCtx machine).2 := by
  induction fuel with
  | zero =>
      intro ctx graph nodeId execCtx machine input hinput
      cases hinput
  | succ fuel ih =>
      intro ctx graph nodeId execCtx machine
      exact node_continues ih (node_runs (engine_typed fuel) machine)

/-! ## The run of a generation -/

/-- What a generation logs around the run of its root node. -/
def Event.IsAround (ctx : OrchestrationContext) (event : Event) : Prop :=
  (∃ name input outcome, event = .activity ctx.site name input outcome) ∨
  ∃ nanoseconds, event = .timer ctx.site nanoseconds

/-- The run of the root node of a generation. -/
structure HostedRun (engine : Engine) (ctx : OrchestrationContext) (inputJson : String)
    (graph : FunctionGraph) (execCtx : ExecutionContext) (start : Machine)
    (outcome : Except Stop String) (after : Machine) : Prop where
  front : ∀ event ∈ start.log, event.IsAround ctx
  run : engine.node ctx graph execCtx.subtreeRoot execCtx start = (outcome, after)
  log : ∃ last, (∀ event ∈ last, event.IsAround ctx) ∧
    (generation execCtx.continuation engine ctx inputJson).1 = after.log ++ last
  continues : ∀ next, (generation execCtx.continuation engine ctx inputJson).2 =
    .continuedAsNew next ↔ outcome = .error (.continuedAsNew next)
  fails : ∀ message, outcome = .error (.raised (.failure message)) →
    (generation execCtx.continuation engine ctx inputJson).2 = .returned (.error message)

section Generation

variable {ctx : OrchestrationContext} {inputJson : String} {graph : FunctionGraph}
  {execCtx : ExecutionContext} {before : StringMap}

theorem finalize_is_around {instanceId status : String} {attempt retries : Nat} :
    ∀ event ∈ finalizeEvents ctx instanceId status attempt retries, event.IsAround ctx := by
  intro event hevent
  rcases finalize_events_cases hevent with ⟨attempt, rfl⟩ | ⟨nanoseconds, rfl⟩
  · exact Or.inl ⟨_, _, _, rfl⟩
  · exact Or.inr ⟨_, rfl⟩

theorem load_is_around {input : FunctionInput} {loads : List Event} {last : Event}
    (hloads : GraphLoad ctx input loads) (hlast : last.IsAround ctx) :
    ∀ event ∈ loads ++ [last], event.IsAround ctx := by
  refine List.forall_mem_append.2 ⟨fun event hevent => ?_, List.forall_mem_singleton.2 hlast⟩
  rcases hloads.is_load event hevent with ⟨name, input, outcome, -, rfl⟩ | ⟨nanoseconds, rfl⟩
  · exact Or.inl ⟨_, _, _, rfl⟩
  · exact Or.inr ⟨_, rfl⟩

/-- A generation runs its root node, from the results it starts with. -/
theorem hosted_runs (engine : Engine) (h : Hosts ctx inputJson graph execCtx before) :
    ∃ start outcome after, start.results = before ∧
      HostedRun engine ctx inputJson graph execCtx start outcome after := by
  cases h with
  | @root input json hinput hgraph hread =>
      have hrun := @execute_runs engine ctx input inputJson hinput
      have hrunning : Event.IsAround ctx
          (instanceStatusEvent ctx input.instanceId "running" ctx.executionId) :=
        Or.inl ⟨_, _, _, rfl⟩
      generalize hlog : (execute engine ctx inputJson).1 = log at hrun
      generalize hended : (execute engine ctx inputJson).2 = ended at hrun
      cases hrun with
      | waiting _ hnone => rw [hgraph] at hnone; cases hnone
      | refused _ hnone => rw [hgraph] at hnone; cases hnone
      | unreadable _ hgraph' hread' =>
          rw [hgraph, Option.some.injEq] at hgraph'
          rw [← hgraph', hread] at hread'
          cases hread'
      | @executed _ _ _ result outcome after hloads hgraph' hread' hnode houtcome =>
          rw [hgraph, Option.some.injEq] at hgraph'
          rw [← hgraph', hread, Except.ok.injEq] at hread'
          subst hread'
          refine ⟨_, _, _, rfl, load_is_around hloads hrunning, hnode,
            ⟨_, finalize_is_around, hlog⟩, fun next => ?_, fun message hfails => ?_⟩
          · refine iff_of_false (fun hnext => ?_) (fun hnext => ?_)
            · change (execute engine ctx inputJson).2 = _ at hnext
              rw [hended] at hnext
              cases hnext
            · rw [hnext] at houtcome
              cases houtcome
          · rw [hfails] at houtcome
            cases houtcome
            exact hended
      | @stopped _ _ _ stop after hloads hgraph' hread' hnode hstop =>
          rw [hgraph, Option.some.injEq] at hgraph'
          rw [← hgraph', hread, Except.ok.injEq] at hread'
          subst hread'
          refine ⟨_, _, _, rfl, load_is_around hloads hrunning, hnode,
            ⟨[], List.forall_mem_nil _, by rw [List.append_nil]; exact hlog⟩, fun next => ?_,
            fun message hfails => ?_⟩
          · change (execute engine ctx inputJson).2 = _ ↔ _
            rw [hended]
            cases stop with
            | raised error => exact absurd rfl (hstop error)
            | continuedAsNew input => simp [endExecute]
            | unresolved => simp [endExecute]
          · cases hfails
            exact absurd rfl (hstop _)
  | @subtree input results vars hinput hparts =>
      rcases hnode : engine.node ctx graph input.nodeId (subtreeExecutionContext input vars)
        ⟨before, []⟩ with ⟨outcome, after⟩
      have hgeneration : executeSubtree engine ctx inputJson =
          (after.log, endSubtree outcome after.results) := by
        simp only [executeSubtree, hinput, hparts, hnode]
      refine ⟨⟨before, []⟩, outcome, after, rfl, List.forall_mem_nil _, hnode,
        ⟨[], List.forall_mem_nil _, ?_⟩, fun next => ?_, fun message hfails => ?_⟩
      · rw [List.append_nil]
        exact congrArg Prod.fst hgeneration
      · change (executeSubtree engine ctx inputJson).2 = _ ↔ _
        rw [hgeneration]
        rcases outcome with ((_ | _ | _) | _ | _) | _ <;> simp [endSubtree]
      · change (executeSubtree engine ctx inputJson).2 = _
        rw [hgeneration, hfails]
        rfl

/-- The generation after one that hosts a loop hosts its next iteration. -/
theorem hosts_next {fuel : Nat} {start after : Machine} {next : String}
    (h : Hosts ctx inputJson graph execCtx before)
    (hrun : HostedRun (engine fuel) ctx inputJson graph execCtx start
      (.error (.continuedAsNew next)) after) (later : OrchestrationContext) :
    execCtx.loopIteration + 1 < maxLoopIterations ∧
      Hosts later next graph (execCtx.at (execCtx.loopIteration + 1))
        (handedOn execCtx.continuation after.results) := by
  have hcontinues := engine_continues fuel ctx graph execCtx.subtreeRoot execCtx start
  rw [hrun.run] at hcontinues
  obtain ⟨hlimit, hnext⟩ := hcontinues next rfl
  dsimp only at hnext
  rw [hnext]
  refine ⟨hlimit, ?_⟩
  have hfits : execCtx.loopIteration + 1 < 2 ^ 64 := hlimit.trans (by decide)
  cases h with
  | @root input json hinput hgraph hread =>
      refine .root (function_input_of_json_to_json ⟨hfits,
        by show 0 < 2 ^ 32; decide, by show 0 < 2 ^ 32; decide⟩) rfl ?_
      exact graph_of_json_to_json graph
  | @subtree input results vars hinput hparts =>
      refine .subtree (subtree_input_of_json_to_json hfits) ?_
      simp only [parseSubtreeParts, graph_of_json_to_json, from_str_print_string_map]
      rfl

end Generation

/-! ## The body of an iteration -/

/-- The event is of the visit or of something below it: a longer path of the same generation, or a
child. -/
def Event.IsWithin (ctx : OrchestrationContext) (event : Event) : Prop :=
  ctx.instanceId.length < event.site.instanceId.length ∨
  ∃ path, event.site = ⟨ctx.instanceId, ctx.executionId, ctx.path ++ path⟩

theorem own_site {ctx : OrchestrationContext} {event : Event} (h : event.IsOwn ctx) :
    event.site = ctx.site := by
  cases h with
  | visited | status | broke | decided | finished => rfl
  | quiet h =>
      rcases h with (⟨_, _, _, _, rfl⟩ | ⟨_, rfl⟩) | ⟨_, _, rfl⟩ | ⟨_, _, _, _, _, _, rfl⟩ <;> rfl

theorem within_invariant : LogInvariant Event.IsWithin where
  own := by
    intro ctx event h
    refine Or.inr ⟨[], ?_⟩
    rw [own_site h, List.append_nil]
    rfl
  down := by
    rintro ctx step event (hlonger | ⟨path, hsite⟩)
    · exact Or.inl hlonger
    · refine Or.inr ⟨step :: path, ?_⟩
      rw [hsite]
      simp [OrchestrationContext.down]
  child := by
    intro ctx nodeId steps executionId event h
    have hlength := subtree_instance_id_length ctx nodeId
    rcases h with hlonger | ⟨path, hsite⟩
    · exact Or.inl (hlength.trans hlonger)
    · rw [Event.IsWithin, hsite]
      exact Or.inl hlength

/-- The event starts the body of the loop of the visit, in an iteration: it is the visit of an inline
body, or it schedules a child. -/
def Event.startsBody (ctx : OrchestrationContext) (iteration : Nat) : Event → Bool
  | .visited site _ => site = (ctx.down (.loopBody iteration)).site
  | .spawned site _ _ => site = ctx.site
  | _ => false

/-- The start of the body, with the named results of the iteration: a body of the graph is visited,
or it is handed on to a failure-isolated child. -/
def bodyStart (ctx : OrchestrationContext) (graph : FunctionGraph) (execCtx : ExecutionContext)
    (config : LoopConfig) (bodyId : String) (results : StringMap) : List Event :=
  if config.continueOnFailure then
    [.spawned ctx.site (subtreeInstanceId ctx bodyId)
      (buildSubtreeInput graph bodyId results { execCtx with failureIsolated := true })]
  else if bodyId ∈ graph.nodes then
    [.visited (ctx.down (.loopBody execCtx.loopIteration)).site bodyId]
  else []

section Body

variable {ctx : OrchestrationContext} {iteration : Nat} {event : Event}

/-- Only events at the visit or at the body start it. -/
theorem starts_body_site (h : event.startsBody ctx iteration = true) :
    event.site = ctx.site ∨ event.site = (ctx.down (.loopBody iteration)).site := by
  cases event with
  | visited site nodeId => exact Or.inr (of_decide_eq_true h)
  | spawned site childId input => exact Or.inl (of_decide_eq_true h)
  | activity | timer | broke | decided | finished => cases h

/-- What is below another step of the visit starts no body. -/
theorem within_step_starts {step : Step} (hstep : step ≠ .loopBody iteration)
    (h : event.IsWithin (ctx.down step)) : ¬ event.startsBody ctx iteration = true := by
  intro hstarts
  rcases h with hlonger | ⟨path, hsite⟩
  · rcases starts_body_site hstarts with hown | hown <;> rw [hown] at hlonger <;>
      exact absurd hlonger (Nat.lt_irrefl _)
  · rcases starts_body_site hstarts with hown | hown <;> rw [hown] at hsite
    · simp [OrchestrationContext.down, OrchestrationContext.site] at hsite
    · simp only [OrchestrationContext.down, OrchestrationContext.site, Site.mk.injEq, true_and,
        List.append_assoc, List.append_cancel_left_eq, List.singleton_append, List.cons.injEq]
        at hsite
      exact hstep hsite.1.symm

/-- What a child logs starts no body. -/
theorem child_starts (h : ctx.instanceId.length < event.site.instanceId.length) :
    ¬ event.startsBody ctx iteration = true := by
  intro hstarts
  rcases starts_body_site hstarts with hown | hown <;> rw [hown] at h <;>
    exact absurd h (Nat.lt_irrefl _)

/-- After its visit, an inline body starts no body. -/
theorem body_visit_invariant (ctx : OrchestrationContext) (iteration : Nat) :
    VisitInvariant (ctx.down (.loopBody iteration))
      (fun event => ¬ event.startsBody ctx iteration = true) Event.IsWithin where
  own := by
    intro event hown hvisit hstarts
    have hsite := own_site hown
    cases event with
    | visited site nodeId => exact hvisit nodeId (congrArg (Event.visited · nodeId) hsite)
    | spawned site childId input =>
        rcases of_decide_eq_true hstarts with rfl
        simp [Event.site, OrchestrationContext.down, OrchestrationContext.site] at hsite
    | activity | timer | broke | decided | finished => cases hstarts
  down := by
    intro step event hwithin hstarts
    rcases hwithin with hlonger | ⟨path, hsite⟩
    · exact @child_starts ctx iteration event hlonger hstarts
    · rcases starts_body_site hstarts with hown | hown <;> rw [hown] at hsite <;>
        simp [OrchestrationContext.down, OrchestrationContext.site] at hsite
  child := by
    intro nodeId steps executionId event hwithin
    have hlength := subtree_instance_id_length (ctx.down (.loopBody iteration)) nodeId
    refine child_starts ?_
    rcases hwithin with hlonger | ⟨path, hsite⟩
    · exact hlength.trans hlonger
    · rw [hsite]
      exact hlength

end Body

/-- The log grows by these starts of the body, and by other events. -/
def Starts (ctx : OrchestrationContext) (iteration : Nat) (starts : List Event)
    (before after : Machine) : Prop :=
  ∃ events, after.log = before.log ++ events ∧ events.filter (·.startsBody ctx iteration) = starts

section Starts

variable {ctx : OrchestrationContext} {iteration : Nat} {starts : List Event}
  {first second third : Machine}

/-- Other events before the starts of the body. -/
theorem Starts.after (h : Starts ctx iteration starts second third)
    (hother : Logs (fun event => ¬ event.startsBody ctx iteration = true) first second) :
    Starts ctx iteration starts first third := by
  obtain ⟨events, hlog, hstarts⟩ := h
  obtain ⟨other, hotherLog, hnone⟩ := hother
  refine ⟨other ++ events, by rw [hlog, hotherLog, List.append_assoc], ?_⟩
  rw [List.filter_append, List.filter_eq_nil_iff.2 hnone, List.nil_append, hstarts]

/-- Other events after the starts of the body. -/
theorem Starts.before (h : Starts ctx iteration starts first second)
    (hother : Logs (fun event => ¬ event.startsBody ctx iteration = true) second third) :
    Starts ctx iteration starts first third := by
  obtain ⟨events, hlog, hstarts⟩ := h
  obtain ⟨other, hotherLog, hnone⟩ := hother
  refine ⟨events ++ other, by rw [hotherLog, hlog, List.append_assoc], ?_⟩
  rw [List.filter_append, List.filter_eq_nil_iff.2 hnone, List.append_nil, hstarts]

end Starts

section Iteration

variable {ctx : OrchestrationContext} {graph : FunctionGraph} {node : FunctionNode}
  {execCtx : ExecutionContext} {config : LoopConfig} {bodyId : String}

/-- The condition of an iteration starts no body. -/
theorem condition_starts (fuel : Nat) (conditionNode : Option String) (value : String)
    (machine : Machine) :
    Logs (fun event => ¬ event.startsBody ctx execCtx.loopIteration = true) machine
      (evaluateLoopCondition (engine fuel) ctx graph node execCtx conditionNode value machine).2 := by
  unfold evaluateLoopCondition
  cases conditionNode with
  | none => exact Logs.refl _ _
  | some conditionId =>
      have hlogs := (engine_logs within_invariant fuel).node
        (ctx.down (.loopCondition execCtx.loopIteration)) graph conditionId execCtx machine
      rcases hrun : (engine fuel).node (ctx.down (.loopCondition execCtx.loopIteration)) graph
        conditionId execCtx machine with ⟨outcome, after⟩
      rw [hrun] at hlogs
      replace hlogs := hlogs.mono fun event =>
        @within_step_starts ctx execCtx.loopIteration event _ (by simp)
      have hattempt : attempt ((engine fuel).node (ctx.down (.loopCondition execCtx.loopIteration))
          graph conditionId execCtx) machine = (.ok outcome, after) := by
        rw [attempt_apply, hrun]
      dsimp only
      rw [bind_ok hattempt]
      rcases outcome with ((final | message | message) | input | _) | conditionResult
      · simp only [bind_apply, store_named_result_apply, pure_apply]
        exact hlogs
      · exact hlogs
      · exact hlogs
      · exact hlogs
      · exact hlogs
      · dsimp only
        split_ifs
        · exact hlogs
        · simp only [bind_apply, store_named_result_apply, pure_apply]
          exact hlogs

/-- An inline body that is in the graph is visited once. -/
theorem inline_body_starts (fuel : Nat) (machine : Machine) :
    Starts ctx execCtx.loopIteration
      (if bodyId ∈ graph.nodes then
        [.visited (ctx.down (.loopBody execCtx.loopIteration)).site bodyId] else [])
      machine ((engine (fuel + 1)).node (ctx.down (.loopBody execCtx.loopIteration)) graph bodyId
        execCtx machine).2 := by
  show Starts ctx execCtx.loopIteration _ machine (executeFunctionNodeWithVars (engine fuel)
    (ctx.down (.loopBody execCtx.loopIteration)) graph bodyId execCtx machine).2
  cases hbody : graph.nodes[bodyId]? with
  | none =>
      have hmissing : bodyId ∉ graph.nodes := by
        rw [← Std.ExtTreeMap.isSome_getElem?_iff_mem, hbody]
        exact Bool.false_ne_true
      rw [if_neg hmissing]
      unfold executeFunctionNodeWithVars
      rw [hbody]
      exact ⟨[], (List.append_nil _).symm, rfl⟩
  | some body =>
      rw [if_pos (Std.ExtTreeMap.isSome_getElem?_iff_mem.1 (by rw [hbody]; rfl))]
      obtain ⟨events, hlog, hevents⟩ := visit_logs (body_visit_invariant ctx execCtx.loopIteration)
        (engine_logs within_invariant fuel) hbody (node_runs (engine_typed fuel) machine)
      refine ⟨_, hlog, ?_⟩
      have hvisit : Event.startsBody ctx execCtx.loopIteration
          (.visited (ctx.down (.loopBody execCtx.loopIteration)).site bodyId) = true :=
        decide_eq_true rfl
      rw [List.filter_cons_of_pos hvisit, List.filter_eq_nil_iff.2 hevents]

/-- What a failure-isolated body logs, its child logs. -/
theorem isolated_run_starts {engine : Engine} (hlogs : EngineLogs Event.IsWithin engine)
    {results : StringMap} {event : Event}
    (h : event ∈ (isolatedRun engine ctx graph execCtx bodyId results).1) :
    ¬ event.startsBody ctx execCtx.loopIteration = true := by
  unfold isolatedRun runChild at h
  split at h
  · cases h
  · obtain ⟨executionId, hwithin⟩ := hlogs.subtree h
    have hlength := subtree_instance_id_length ctx bodyId
    refine child_starts ?_
    rcases hwithin with hlonger | ⟨path, hsite⟩
    · exact hlength.trans hlonger
    · rw [hsite]
      exact hlength

/-- A failure-isolated body is handed on to one child. -/
theorem isolated_body_starts {engine : Engine}
    (hlogs : EngineLogs Event.IsWithin engine) (machine : Machine) :
    Starts ctx execCtx.loopIteration
      [.spawned ctx.site (subtreeInstanceId ctx bodyId)
        (buildSubtreeInput graph bodyId machine.results { execCtx with failureIsolated := true })]
      machine (machine.logged (.spawned ctx.site (subtreeInstanceId ctx bodyId)
        (buildSubtreeInput graph bodyId machine.results { execCtx with failureIsolated := true }) ::
          (isolatedRun engine ctx graph execCtx bodyId machine.results).1)) := by
  refine ⟨_, rfl, ?_⟩
  have hspawned : Event.startsBody ctx execCtx.loopIteration (.spawned ctx.site
      (subtreeInstanceId ctx bodyId) (buildSubtreeInput graph bodyId machine.results
        { execCtx with failureIsolated := true })) = true :=
    decide_eq_true rfl
  rw [List.filter_cons_of_pos hspawned, List.filter_eq_nil_iff.2]
  intro event hevent
  exact isolated_run_starts hlogs hevent

/-- An iteration starts the body of its loop as `bodyStart` says. -/
theorem iteration_starts (fuel : Nat) (machine : Machine) :
    Starts ctx execCtx.loopIteration (bodyStart ctx graph execCtx config bodyId machine.results)
      machine (loopIteration (engine (fuel + 1)) ctx graph node execCtx config bodyId machine).2 := by
  unfold bodyStart loopIteration
  cases hmode : config.continueOnFailure with
  | false =>
      have hbody := @inline_body_starts ctx graph execCtx bodyId fuel machine
      simp only [Bool.false_eq_true, if_false]
      unfold runLoopIteration
      rcases hrun : (engine (fuel + 1)).node (ctx.down (.loopBody execCtx.loopIteration)) graph
        bodyId execCtx machine with ⟨outcome, after⟩
      rw [hrun] at hbody
      have hattempt : attempt ((engine (fuel + 1)).node
          (ctx.down (.loopBody execCtx.loopIteration)) graph bodyId execCtx) machine =
          (.ok outcome, after) := by
        rw [attempt_apply, hrun]
      rw [bind_ok hattempt]
      rcases outcome with ((value | message | message) | input | _) | value
      · simp only [bind_apply, store_named_result_apply, pure_apply]
        exact hbody
      · exact hbody
      · exact hbody
      · exact hbody
      · exact hbody
      · exact hbody.before (condition_starts (fuel + 1) _ _ _)
  | true =>
      have hlogs := engine_logs within_invariant (fuel + 1)
      have hbody := @isolated_body_starts ctx graph execCtx bodyId _ hlogs machine
      have hrun := schedule_sub_apply (engine (fuel + 1)) ctx machine
        (childContext ctx bodyId (ctx.path ++ [.loopBody execCtx.loopIteration]))
        (buildSubtreeInput graph bodyId machine.results { execCtx with failureIsolated := true })
      rw [← isolatedRun] at hrun
      simp only [if_true]
      unfold runFailureIsolatedBody
      simp only [bind_assoc]
      rw [bind_ok (read_results_apply machine)]
      cases hreply : (isolatedRun (engine (fuel + 1)) ctx graph execCtx bodyId machine.results).2 with
      | none =>
          rw [hreply] at hrun
          rw [bind_error hrun]
          exact hbody
      | some text =>
          obtain ⟨reply, rfl⟩ := (engine_typed (fuel + 1)).child hreply
          rw [hreply] at hrun
          rw [bind_ok hrun]
          have hclassify := classify_isolated_apply reply (machine.logged (.spawned ctx.site
            (childContext ctx bodyId (ctx.path ++ [.loopBody execCtx.loopIteration])).instanceId
            (buildSubtreeInput graph bodyId machine.results
              { execCtx with failureIsolated := true }) ::
            (isolatedRun (engine (fuel + 1)) ctx graph execCtx bodyId machine.results).1))
          cases hresult : isolatedBodyResult reply with
          | finished value =>
              rw [hresult] at hclassify
              rw [bind_ok hclassify]
              exact Starts.before hbody (condition_starts (fuel + 1) _ _ _)
          | consumed =>
              rw [hresult] at hclassify
              rw [bind_ok hclassify]
              exact hbody
          | broke value =>
              rw [hresult] at hclassify
              rw [bind_ok hclassify]
              simp only [bind_apply, store_named_result_apply, pure_apply]
              exact hbody
          | stopped stop =>
              rw [hresult] at hclassify
              rw [bind_error hclassify]
              exact hbody

end Iteration

section Loop

variable {ctx : OrchestrationContext} {graph : FunctionGraph} {node : FunctionNode}
  {nodeId : String} {execCtx : ExecutionContext} {config : LoopConfig} {bodyId : String}

/-- What a visit logs without starting a child starts no body. -/
theorem around_starts {event : Event} (h : event.IsAround ctx) :
    ¬ event.startsBody ctx execCtx.loopIteration = true := by
  rcases h with ⟨name, input, outcome, rfl⟩ | ⟨nanoseconds, rfl⟩ <;> exact Bool.false_ne_true

/-- How a loop starts its body, if it has one and its configuration can be read. -/
def loopStart (ctx : OrchestrationContext) (graph : FunctionGraph) (node : FunctionNode)
    (execCtx : ExecutionContext) (results : StringMap) : List Event :=
  match node.leftNode, parseLoopConfig node execCtx.subtreeRoot with
  | some bodyId, .ok config => bodyStart ctx graph execCtx config bodyId results
  | _, _ => []

/-- One generation of a loop starts its body once. -/
theorem loop_starts (fuel : Nat) (machine : Machine) :
    Starts ctx execCtx.loopIteration (loopStart ctx graph node execCtx machine.results) machine
      (executeLoopNode (engine (fuel + 1)) ctx graph node execCtx.subtreeRoot execCtx machine).2 := by
  have hnothing : Starts ctx execCtx.loopIteration [] machine machine :=
    ⟨[], (List.append_nil _).symm, rfl⟩
  cases hbody : node.leftNode with
  | none =>
      unfold executeLoopNode loopStart
      rw [hbody]
      exact hnothing
  | some bodyId =>
  cases hconfig : parseLoopConfig node execCtx.subtreeRoot with
  | error message =>
      unfold executeLoopNode loopStart
      simp only [hbody, hconfig, or_missing_some, pure_bind]
      exact hnothing
  | ok config =>
  have hiteration := @iteration_starts ctx graph node execCtx config bodyId fuel machine
  rw [loop_iterates hbody hconfig]
  simp only [loopStart, hbody, hconfig]
  rcases hrun : loopIteration (engine (fuel + 1)) ctx graph node execCtx config bodyId machine with
    ⟨stop | _ | final, after⟩
  · rw [hrun] at hiteration
    rw [bind_error hrun]
    exact hiteration
  · rw [hrun] at hiteration
    rw [bind_ok hrun]
    dsimp only
    split_ifs
    · exact hiteration
    · obtain ⟨pause, hpause, hrate⟩ := rate_limit_apply ctx execCtx
        (ctx.world.utcNow (ctx.path ++ [.loopBody execCtx.loopIteration]) 0) after
      rw [bind_ok hrate, bind_ok (read_results_apply _)]
      refine hiteration.before (logs_logged fun event hevent => ?_)
      rcases hpause event hevent with ⟨_, _, _, -, rfl⟩ | ⟨_, rfl⟩ <;> exact Bool.false_ne_true
  · rw [hrun] at hiteration
    rw [bind_ok hrun]
    exact hiteration

/-- A generation that hosts a loop runs the handler of the loop. -/
theorem hosted_loop {fuel : Nat} {inputJson : String} {start after : Machine}
    {outcome : Except Stop String}
    (hrun : HostedRun (engine (fuel + 1)) ctx inputJson graph execCtx start outcome after)
    (hnode : graph.nodes[execCtx.subtreeRoot]? = some node)
    (hkind : nodeKind node.nodeType = some .loop) :
    closed ctx graph execCtx.subtreeRoot
        (executeLoopNode (engine fuel) ctx graph node execCtx.subtreeRoot execCtx
          (started ctx graph execCtx.subtreeRoot start)) = (outcome, after) := by
  rw [← inner_loop hkind, ← node_applies hnode fun _ => rfl]
  exact hrun.run

/-- A loop that asks for one more iteration within the limit continues as new. -/
theorem loop_hands_over {engine : Engine} {machine middle : Machine}
    (hbody : node.leftNode = some bodyId) (hconfig : parseLoopConfig node nodeId = .ok config)
    (hiteration : loopIteration engine ctx graph node execCtx config bodyId machine =
      (.ok none, middle)) (hlimit : execCtx.loopIteration + 1 < maxLoopIterations) :
    (executeLoopNode engine ctx graph node nodeId execCtx machine).1 = .error (.continuedAsNew
      (continuationInput graph nodeId execCtx middle.results (execCtx.loopIteration + 1))) := by
  rw [loop_iterates hbody hconfig, bind_ok hiteration]
  dsimp only
  rw [if_neg (by omega)]
  obtain ⟨pause, -, hrate⟩ := rate_limit_apply ctx execCtx
    (ctx.world.utcNow (ctx.path ++ [.loopBody execCtx.loopIteration]) 0) middle
  rw [bind_ok hrate, bind_ok (read_results_apply _)]
  rfl

/-- A generation that hosts a loop starts its body once. -/
theorem generation_starts {fuel : Nat} {inputJson : String} {start after : Machine}
    {outcome : Except Stop String}
    (hrun : HostedRun (engine (fuel + 2)) ctx inputJson graph execCtx start outcome after)
    (hnode : graph.nodes[execCtx.subtreeRoot]? = some node)
    (hkind : nodeKind node.nodeType = some .loop) :
    (generation execCtx.continuation (engine (fuel + 2)) ctx inputJson).1.filter
        (·.startsBody ctx execCtx.loopIteration) =
      loopStart ctx graph node execCtx start.results := by
  have hother : ∀ {events : List Event}, (∀ event ∈ events, event.IsAround ctx) →
      events.filter (·.startsBody ctx execCtx.loopIteration) = [] :=
    fun h => List.filter_eq_nil_iff.2 fun event hevent => around_starts (h event hevent)
  obtain ⟨last, hlast, hlog⟩ := hrun.log
  have hnodeRun := hosted_loop hrun hnode hkind
  have hloop := @loop_starts ctx graph node execCtx fuel
    (started ctx graph execCtx.subtreeRoot start)
  rcases hinner : executeLoopNode (engine (fuel + 1)) ctx graph node execCtx.subtreeRoot execCtx
    (started ctx graph execCtx.subtreeRoot start) with ⟨result, middle⟩
  rw [hinner] at hnodeRun hloop
  -- Around the handler the node is visited and its status is written.
  have hstart : Logs (fun event => ¬ event.startsBody ctx execCtx.loopIteration = true) start
      (started ctx graph execCtx.subtreeRoot start) := by
    refine logs_logged (List.forall_mem_cons.2 ⟨?_, List.forall_mem_singleton.2 Bool.false_ne_true⟩)
    simp [Event.startsBody, OrchestrationContext.down, OrchestrationContext.site]
  have hclose : Logs (fun event => ¬ event.startsBody ctx execCtx.loopIteration = true) middle
      (closed ctx graph execCtx.subtreeRoot (result, middle)).2 := by
    rcases result with (error | input | _) | value
    · exact logs_logged (List.forall_mem_cons.2
        ⟨Bool.false_ne_true, List.forall_mem_singleton.2 Bool.false_ne_true⟩)
    · exact Logs.refl _ _
    · exact Logs.refl _ _
    · exact logs_logged (List.forall_mem_cons.2
        ⟨Bool.false_ne_true, List.forall_mem_singleton.2 Bool.false_ne_true⟩)
  rw [hnodeRun] at hclose
  obtain ⟨events, hafter, hstarts⟩ := (hloop.before hclose).after hstart
  rw [hlog, hafter, List.filter_append, List.filter_append, hother hrun.front, hother hlast, hstarts,
    List.nil_append, List.append_nil]
  rfl

/-- A failure-isolated body that fails leaves the named results of its loop as they were. -/
theorem failed_body_keeps {engine : Engine} {text : String} {machine after : Machine}
    {outcome : Except Stop String} (hbody : node.leftNode = some bodyId)
    (hconfig : parseLoopConfig node nodeId = .ok config) (hmode : config.continueOnFailure = true)
    (hrun : LoopRun engine ctx graph node nodeId execCtx machine outcome after)
    (hreply : (isolatedRun engine ctx graph execCtx bodyId machine.results).2 =
      some (.error text)) :
    after.results = machine.results := by
  have hkeeps : ∀ {other : LoopConfig} {otherId : String} {result : BodyResult} {after : Machine},
      node.leftNode = some otherId → parseLoopConfig node nodeId = .ok other →
      BodyRun engine ctx graph execCtx other otherId machine result after →
      after.results = machine.results ∧ (result = .consumed ∨ ∃ stop, result = .stopped stop) := by
    intro other otherId result after hother hotherConfig hrun
    rw [hbody, Option.some.injEq] at hother
    rw [hconfig, Except.ok.injEq] at hotherConfig
    subst hother hotherConfig
    cases hrun with
    | inline hinline =>
        rw [hmode] at hinline
        cases hinline
    | stuck => exact ⟨rfl, Or.inr ⟨_, rfl⟩⟩
    | @isolated _ reply _ _ hown =>
        rw [hreply, Option.some.injEq] at hown
        cases reply with
        | envelope => cases hown
        | error own =>
            refine ⟨rfl, ?_⟩
            cases hdecode : decodeSubtreeApplicationFailure own <;>
              simp [isolatedBodyResult, hdecode]
  have hiteration : ∀ {other : LoopConfig} {otherId : String}
      {result : Except Stop (Option String)} {after : Machine},
      node.leftNode = some otherId → parseLoopConfig node nodeId = .ok other →
      IterationRun engine ctx graph node execCtx other otherId machine result after →
      after.results = machine.results := by
    intro other otherId result after hother hotherConfig hrun
    cases hrun with
    | stopped hown | consumed hown | unconditional hown =>
        exact (hkeeps hother hotherConfig hown).1
    | broke hown | conditional hown =>
        rcases (hkeeps hother hotherConfig hown).2 with hresult | ⟨stop, hresult⟩ <;> cases hresult
  cases hrun with
  | failed => rfl
  | stopped hother hotherConfig hrun | ended hother hotherConfig hrun
  | exhausted hother hotherConfig hrun => exact hiteration hother hotherConfig hrun
  | continued hother hotherConfig hrun =>
      rw [logged_results]
      exact hiteration hother hotherConfig hrun

end Loop

/-! ## All generations -/

/-- What one generation of a loop is, with the named results it starts from. -/
structure LoopGeneration (graph : FunctionGraph) (node : FunctionNode) (execCtx : ExecutionContext)
    (ctx : OrchestrationContext) (inputJson : String) (before : StringMap) : Prop where
  bounded : execCtx.loopIteration < maxLoopIterations
  hosted : Hosts ctx inputJson graph execCtx before
  body_once : ∀ fuel, (generation execCtx.continuation (engine (fuel + 2)) ctx inputJson).1.filter
    (·.startsBody ctx execCtx.loopIteration) = loopStart ctx graph node execCtx before
  failed_isolated : ∀ {fuel bodyId config text start outcome after},
    node.leftNode = some bodyId → parseLoopConfig node execCtx.subtreeRoot = .ok config →
    config.continueOnFailure = true →
    (isolatedRun (engine fuel) ctx graph execCtx bodyId before).2 = some (.error text) →
    start.results = before →
    HostedRun (engine (fuel + 1)) ctx inputJson graph execCtx start outcome after →
    after.results = before
  hands_on : ∀ {fuel next},
    (generation execCtx.continuation (engine fuel) ctx inputJson).2 = .continuedAsNew next →
    execCtx.loopIteration + 1 < maxLoopIterations ∧ ∃ start after, start.results = before ∧
      HostedRun (engine fuel) ctx inputJson graph execCtx start (.error (.continuedAsNew next))
        after ∧
      Hosts { ctx with executionId := ctx.executionId + 1 } next graph
        (execCtx.at (execCtx.loopIteration + 1)) (handedOn execCtx.continuation after.results)
  exhausted : ∀ {fuel bodyId config start middle outcome after}, node.leftNode = some bodyId →
    parseLoopConfig node execCtx.subtreeRoot = .ok config →
    HostedRun (engine (fuel + 1)) ctx inputJson graph execCtx start outcome after →
    loopIteration (engine fuel) ctx graph node execCtx config bodyId
      (started ctx graph execCtx.subtreeRoot start) = (.ok none, middle) →
    maxLoopIterations ≤ execCtx.loopIteration + 1 →
    (generation execCtx.continuation (engine (fuel + 1)) ctx inputJson).2 =
      .returned (.error exhaustedMessage)

section Generations

variable {graph : FunctionGraph} {node : FunctionNode} {execCtx : ExecutionContext}
  {ctx : OrchestrationContext} {inputJson : String} {before : StringMap}

/-- A generation that hosts a loop within the limit is one of the loop. -/
theorem loop_generation (hnode : graph.nodes[execCtx.subtreeRoot]? = some node)
    (hkind : nodeKind node.nodeType = some .loop)
    (hbounded : execCtx.loopIteration < maxLoopIterations)
    (hhosts : Hosts ctx inputJson graph execCtx before) :
    LoopGeneration graph node execCtx ctx inputJson before where
  bounded := hbounded
  hosted := hhosts
  body_once := by
    intro fuel
    obtain ⟨start, outcome, after, hresults, hrun⟩ := hosted_runs (engine (fuel + 2)) hhosts
    rw [← hresults]
    exact generation_starts hrun hnode hkind
  failed_isolated := by
    intro fuel bodyId config text start outcome after hbody hconfig hmode hreply hresults hrun
    have hclosed := hosted_loop hrun hnode hkind
    rw [← hresults] at hreply ⊢
    have hloop := @loop_runs (engine fuel) ctx graph node execCtx.subtreeRoot execCtx
      (engine_typed fuel) (started ctx graph execCtx.subtreeRoot start)
    have hkeeps := failed_body_keeps hbody hconfig hmode hloop hreply
    have hafter := congrArg (fun run => run.2.results) hclosed
    rw [closed_results] at hafter
    exact hafter.symm.trans hkeeps
  hands_on := by
    intro fuel next hnext
    obtain ⟨start, outcome, after, hresults, hrun⟩ := hosted_runs (engine fuel) hhosts
    obtain rfl := (hrun.continues next).1 hnext
    obtain ⟨hlimit, hlater⟩ := hosts_next hhosts hrun { ctx with executionId := ctx.executionId + 1 }
    exact ⟨hlimit, start, after, hresults, hrun, hlater⟩
  exhausted := by
    intro fuel bodyId config start middle outcome after hbody hconfig hrun hiteration hlimit
    refine hrun.fails exhaustedMessage ?_
    have houtcome := congrArg Prod.fst (hosted_loop hrun hnode hkind)
    rw [closed_outcome, ← inner_loop hkind,
      exhausted_fails hkind hbody hconfig hiteration hlimit] at houtcome
    exact houtcome.symm

/-- Generation `k` of a loop, counted from the one that starts at iteration 0, is iteration `k` of
it: on the same graph and, but for the iteration, in the same execution context, with the body
started once. And a loop that runs out of iterations fails everything around it. -/
theorem loop_generations (hhosts : Hosts ctx inputJson graph execCtx before)
    (hnode : graph.nodes[execCtx.subtreeRoot]? = some node)
    (hkind : nodeKind node.nodeType = some .loop) (hfirst : execCtx.loopIteration = 0) :
    (∀ {count later laterJson}, Later execCtx.continuation ctx inputJson count later laterJson →
      later = { ctx with executionId := ctx.executionId + count } ∧
      ∃ results, LoopGeneration graph node (execCtx.at count) later laterJson results) ∧
    ∀ {fuel other graph nodeId execCtx machine message},
      RunsOut fuel other graph nodeId execCtx machine message →
      ((engine fuel).node other graph nodeId execCtx machine).1 =
        .error (.raised (.failure message)) := by
  refine ⟨fun {count later laterJson} hlater => ?_, fun h => ((runs_out_fails _).1 h).2⟩
  have hat : execCtx.at 0 = execCtx := by
    rw [← hfirst]
    rfl
  -- By induction on the generations: each one hands on to the next.
  induction hlater with
  | first =>
      refine ⟨rfl, before, loop_generation hnode hkind (by show 0 < 2 ^ 23; decide) ?_⟩
      rw [hat]
      exact hhosts
  | @next count fuel later laterJson next log hlater hrun ih =>
      obtain ⟨rfl, results, hgeneration⟩ := ih
      obtain ⟨hlimit, start, after, -, -, hnext⟩ := hgeneration.hands_on (congrArg Prod.snd hrun)
      exact ⟨rfl, _, loop_generation hnode hkind hlimit hnext⟩

end Generations

/-- A loop over a named query. -/
def repeatedQuery : FunctionGraph where
  instanceId := "aaaaaaaa"
  rootNodeId := "bbbbbbbb"
  nodes :=
    ((∅ : Std.ExtTreeMap String FunctionNode).insert "bbbbbbbb"
      ⟨"bbbbbbbb", "LOOP", none, none, some "cccccccc", none, "alice", none⟩).insert
      "cccccccc" ⟨"cccccccc", "SQL", some "SELECT 1", some "r", none, none, "alice", none⟩
  sqlQuotingVersion := .v1

/-- Its loop. -/
def repeatingNode : FunctionNode :=
  ⟨"bbbbbbbb", "LOOP", none, none, some "cccccccc", none, "alice", none⟩

/-- A child that runs the loop. -/
def repeatingContext : OrchestrationContext := ⟨.quiet, "aaaaaaaa::1::bbbbbbbb", 1, []⟩

/-- Its execution context at the first iteration. -/
def repeatingExecution : ExecutionContext := ⟨∅, none, false, 0, "bbbbbbbb", .subtree⟩

/-- The theorem at a child that runs the loop, in its second generation. -/
theorem repeated_query_generation : ∃ laterJson results,
    LoopGeneration repeatedQuery repeatingNode (repeatingExecution.at 1)
      { repeatingContext with executionId := 2 } laterJson results := by
  have hnode : repeatedQuery.nodes["bbbbbbbb"]? = some repeatingNode := by
    simp only [repeatedQuery, Std.ExtTreeMap.getElem?_insert]
    rfl
  have hkind : nodeKind repeatingNode.nodeType = some .loop :=
    show nodeKind "LOOP" = some .loop by decide
  have hhosts : Hosts repeatingContext
      (subtreeText repeatedQuery "bbbbbbbb" ∅ repeatingExecution 0) repeatedQuery
      repeatingExecution ∅ := by
    refine .subtree (subtree_input_of_json_to_json (by decide)) ?_
    simp only [parseSubtreeParts, graph_of_json_to_json, from_str_print_string_map]
    rfl
  have hiteration : (loopIteration (engine 1) repeatingContext repeatedQuery repeatingNode
      repeatingExecution .default "cccccccc"
      (started repeatingContext repeatedQuery "bbbbbbbb" ⟨∅, []⟩)).1 = .ok none := by
    decide +kernel
  have hloop := @loop_hands_over repeatingContext repeatedQuery repeatingNode "bbbbbbbb"
    repeatingExecution .default "cccccccc" (engine 1) _ _ rfl rfl (Prod.ext hiteration rfl)
    (show 1 < 2 ^ 23 by decide)
  rw [← inner_loop hkind, ← closed_outcome repeatingContext repeatedQuery "bbbbbbbb",
    ← node_applies hnode fun _ => rfl] at hloop
  obtain ⟨next, hcontinues⟩ : ∃ next, ((engine 2).node repeatingContext repeatedQuery "bbbbbbbb"
      (repeatingExecution.enter "bbbbbbbb" 0) ⟨∅, []⟩).1 = .error (.continuedAsNew next) :=
    ⟨_, hloop⟩
  have hrun : (generation .subtree (engine 2) repeatingContext
      (subtreeText repeatedQuery "bbbbbbbb" ∅ repeatingExecution 0)).2 = .continuedAsNew next := by
    show (executeSubtree _ _ _).2 = _
    rw [execute_subtree_reads _ _ _ _ _ _ (by decide)]
    dsimp only
    rw [hcontinues, endSubtree]
  obtain ⟨-, results, hgeneration⟩ := (loop_generations hhosts hnode hkind rfl).1
    (.next .first (Prod.ext rfl hrun))
  exact ⟨next, results, hgeneration⟩

end PgDurable.Orchestration
