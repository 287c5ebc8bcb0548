import PgDurable.Orchestration.Admission
import PgDurable.Orchestration.Bindings
import PgDurable.Orchestration.Logs

/-!
# What a generation of the root orchestration does

`ExecuteRun` lists the ways in which one generation of `execute` can go, each with the log it
leaves: it still waits for the caller's transaction, admission fails, the graph text cannot be
read, or the graph is executed. `execute_runs` says that there are no others.
-/

namespace PgDurable.Orchestration

open Json

/-! ## Admission -/

/-- The activities that read node definitions. -/
def loadNames : List String := [loadFunctionGraphName, transactionAwareName]

/-- The graph text of an answer of the probe. -/
def readyGraph (answer : Except String TransactionGraphProbe) : Option String :=
  match answer with
  | .ok (.ready graph) => some graph
  | _ => none

/-- The graph text that a load delivers. -/
def deliveredGraph (name : String) (outcome : Except String String) : Option String :=
  match outcome with
  | .error _ => none
  | .ok raw =>
      if name = loadFunctionGraphName then some raw
      else readyGraph ((fromStr raw).bind TransactionGraphProbe.decode)

/-- The graph text that an event delivers. -/
def Event.delivered : Event → Option String
  | .activity _ name _ outcome => if name ∈ loadNames then deliveredGraph name outcome else none
  | _ => none

/-- What graph admission logs: its activities and its timers. -/
def Event.IsLoad (ctx : OrchestrationContext) (event : Event) : Prop :=
  (∃ name input outcome, name ∈ loadNames ∧ event = .activity ctx.site name input outcome) ∨
  ∃ nanoseconds, event = .timer ctx.site nanoseconds

/-- What graph admission logs while it waits. -/
def Event.IsWait (ctx : OrchestrationContext) (event : Event) : Prop :=
  event.IsLoad ctx ∧ event.delivered = none

/-- What polling the graph can do: it gets the graph at last, it gives up, or it goes on in the next
generation. -/
inductive LoadRun (ctx : OrchestrationContext) (input : FunctionInput) (machine : Machine) :
    Except Stop (Except String String) → Machine → Prop
  | delivered {waits : List Event} {last : Event} (hwaits : ∀ event ∈ waits, event.IsWait ctx)
      (hlast : last.IsLoad ctx) (json : String) :
      LoadRun ctx input machine (.ok (.ok json)) (machine.logged (waits ++ [last]))
  | refused {waits : List Event} (hwaits : ∀ event ∈ waits, event.IsWait ctx) (error : String) :
      LoadRun ctx input machine (.ok (.error error)) (machine.logged waits)
  | waiting {waits : List Event} (hwaits : ∀ event ∈ waits, event.IsWait ctx)
      {waitAttempt retryAttempt : Nat} (hwait : waitAttempt < 2 ^ 32)
      (hretry : retryAttempt < 2 ^ 32) :
      LoadRun ctx input machine
        (.error (.continuedAsNew (withCounters input waitAttempt retryAttempt).toJson))
        (machine.logged waits)

section Load

variable {ctx : OrchestrationContext} {input : FunctionInput} {machine : Machine}

/-- More admission after some waiting. -/
theorem LoadRun.after {earlier : List Event} (h : ∀ event ∈ earlier, event.IsWait ctx)
    {outcome : Except Stop (Except String String)} {last : Machine}
    (hrun : LoadRun ctx input (machine.logged earlier) outcome last) :
    LoadRun ctx input machine outcome last := by
  cases hrun with
  | delivered hwaits hlast json =>
      rw [logged_logged, ← List.append_assoc]
      exact .delivered (List.forall_mem_append.2 ⟨h, hwaits⟩) hlast json
  | refused hwaits error =>
      rw [logged_logged]
      exact .refused (List.forall_mem_append.2 ⟨h, hwaits⟩) error
  | waiting hwaits hwait hretry =>
      rw [logged_logged]
      exact .waiting (List.forall_mem_append.2 ⟨h, hwaits⟩) hwait hretry

/-- What a poll delivers. -/
theorem probe_delivers (originXid : String) (poll : Nat) :
    deliveredGraph transactionAwareName (ctx.world.activity ctx.path transactionAwareName
      (probeInput input.instanceId originXid)
      (ctx.executionId * graphWaitPollsPerExecution + poll)) =
      readyGraph (probeAnswer ctx input.instanceId originXid poll) := by
  have hname : transactionAwareName ≠ loadFunctionGraphName := by decide
  unfold probeAnswer
  cases ctx.world.activity ctx.path transactionAwareName
      (probeInput input.instanceId originXid)
      (ctx.executionId * graphWaitPollsPerExecution + poll) with
  | error message => rfl
  | ok raw =>
      rw [deliveredGraph, if_neg hname]
      show _ = readyGraph (((fromStr raw).bind TransactionGraphProbe.decode).mapError _)
      cases (fromStr raw).bind TransactionGraphProbe.decode <;> rfl

theorem poll_graph_runs (originXid : String) (polls : Nat) {waitAttempt retryAttempt : Nat}
    (hwait : waitAttempt < 2 ^ 32) (hretry : retryAttempt < 2 ^ 32) (machine : Machine) :
    LoadRun ctx input machine
      (pollGraph ctx input originXid polls waitAttempt retryAttempt machine).1
      (pollGraph ctx input originXid polls waitAttempt retryAttempt machine).2 := by
  have hsucc : ∀ counter, saturatingSucc counter < 2 ^ 32 := by
    intro counter
    unfold saturatingSucc
    omega
  induction polls generalizing waitAttempt retryAttempt machine with
  | zero =>
      have hrun := @LoadRun.waiting ctx input machine [] nofun waitAttempt retryAttempt hwait hretry
      rwa [logged_nil] at hrun
  | succ polls ih =>
      have hload : ∀ input outcome, Event.IsLoad ctx
          (.activity ctx.site transactionAwareName input outcome) :=
        fun input outcome => Or.inl ⟨_, _, _, by simp [loadNames], rfl⟩
      have hprobe : ∀ {outcome}, deliveredGraph transactionAwareName outcome = none → ∀ input,
          ∀ event ∈ [Event.activity ctx.site transactionAwareName input outcome],
            event.IsWait ctx := by
        intro outcome houtcome input event hevent
        rw [List.mem_singleton.1 hevent]
        refine ⟨hload _ _, ?_⟩
        rw [Event.delivered, houtcome, ite_self]
      have htimer : ∀ nanoseconds, ∀ event ∈ [Event.timer ctx.site nanoseconds],
          event.IsWait ctx := by
        intro nanoseconds event hevent
        rw [List.mem_singleton.1 hevent]
        exact ⟨Or.inr ⟨_, rfl⟩, rfl⟩
      simp only [pollGraph]
      rw [Program.bind_ok (schedule_activity_apply machine ctx transactionAwareName _ _)]
      have hdelivers := @probe_delivers ctx input originXid
        (graphWaitPollsPerExecution - (polls + 1))
      cases hanswer : probeAnswer ctx input.instanceId originXid
        (graphWaitPollsPerExecution - (polls + 1)) with
      | error e =>
          rw [hanswer] at hdelivers
          unfold probeAnswer probeInput at hanswer
          rw [hanswer]
          exact .refused (hprobe hdelivers _) _
      | ok answer =>
          rw [hanswer] at hdelivers
          unfold probeAnswer probeInput at hanswer
          rw [hanswer]
          cases answer with
          | ready graph => exact @LoadRun.delivered ctx input machine [] _ nofun (hload _ _) graph
          | aborted | committedMissing => exact .refused (hprobe hdelivers _) _
          | inProgress =>
              exact ((ih (hsucc _) hretry _).after (htimer _)).after (hprobe hdelivers _)
          | retry =>
              dsimp only
              split_ifs
              · exact .refused (hprobe hdelivers _) _
              · exact ((ih hwait (hsucc _) _).after (htimer _)).after (hprobe hdelivers _)

theorem load_initial_graph_runs (hfits : input.Fits) (machine : Machine) :
    LoadRun ctx input machine (loadInitialGraph ctx input machine).1
      (loadInitialGraph ctx input machine).2 := by
  unfold loadInitialGraph
  cases input.originXid with
  | none =>
      have hload : Event.IsLoad ctx (.activity ctx.site loadFunctionGraphName input.instanceId
          (ctx.world.activity ctx.path loadFunctionGraphName input.instanceId 0)) :=
        Or.inl ⟨_, _, _, by simp [loadNames], rfl⟩
      dsimp only
      rw [schedule_activity_apply]
      cases houtcome : ctx.world.activity ctx.path loadFunctionGraphName input.instanceId 0 with
      | ok json =>
          rw [houtcome] at hload
          exact @LoadRun.delivered ctx input machine [] _ nofun hload json
      | error e =>
          rw [houtcome] at hload
          refine .refused (fun event hevent => ?_) e
          rw [List.mem_singleton.1 hevent]
          exact ⟨hload, by simp [Event.delivered, deliveredGraph]⟩
  | some originXid =>
      exact poll_graph_runs originXid _ hfits.graphWaitAttempt hfits.graphRetryAttempt machine

end Load

/-- What the admission of a generation that gets the graph logs: nothing if the input carries it,
else some waiting and then the load that delivers it. -/
structure GraphLoad (ctx : OrchestrationContext) (input : FunctionInput) (loads : List Event) :
    Prop where
  is_load : ∀ event ∈ loads, event.IsLoad ctx
  waits : ∀ event ∈ loads.dropLast, event.IsWait ctx
  carried : input.graph ≠ none → loads = []

theorem graph_load_append {ctx : OrchestrationContext} {input : FunctionInput}
    (hgraph : input.graph = none) {waits : List Event} {last : Event}
    (hwaits : ∀ event ∈ waits, event.IsWait ctx) (hlast : last.IsLoad ctx) :
    GraphLoad ctx input (waits ++ [last]) where
  is_load := by
    refine List.forall_mem_append.2 ⟨fun event hevent => (hwaits event hevent).1, ?_⟩
    exact List.forall_mem_singleton.2 hlast
  waits := by
    rw [List.dropLast_concat]
    exact hwaits
  carried := fun hcarried => absurd hgraph hcarried

/-- The graph text of a generation: carried by its input, or loaded now. -/
def receivedGraph (ctx : OrchestrationContext) (input : FunctionInput) : Option String :=
  match input.graph with
  | some json => some json
  | none =>
      match (loadInitialGraph ctx input ⟨∅, []⟩).1 with
      | .ok (.ok json) => some json
      | _ => none

/-! ## The terminal write -/

/-- An instance status write with its outcome. -/
def instanceStatusEvent (ctx : OrchestrationContext) (instanceId status : String) (attempt : Nat) :
    Event :=
  .activity ctx.site updateInstanceStatusName (instanceStatusInput instanceId status)
    (ctx.world.activity ctx.path updateInstanceStatusName (instanceStatusInput instanceId status)
      attempt)

/-- What a terminal write logs: attempts up to the first that succeeds, with timers between. -/
def finalizeEvents (ctx : OrchestrationContext) (instanceId status : String) :
    (attempt retries : Nat) → List Event
  | attempt, retries =>
      instanceStatusEvent ctx instanceId status attempt ::
        match ctx.world.activity ctx.path updateInstanceStatusName
            (instanceStatusInput instanceId status) attempt with
        | .ok _ => []
        | .error _ =>
            match retries with
            | 0 => []
            | retries + 1 =>
                .timer ctx.site (transactionPollDelay attempt * 10 ^ 6) ::
                  finalizeEvents ctx instanceId status (attempt + 1) retries

theorem finalize_from_apply (ctx : OrchestrationContext) (instanceId status : String)
    (attempt retries : Nat) (machine : Machine) :
    finalizeFrom ctx instanceId status attempt retries machine =
      (.ok (), machine.logged (finalizeEvents ctx instanceId status attempt retries)) := by
  induction retries generalizing attempt machine with
  | zero =>
      simp only [finalizeFrom, finalizeEvents, instanceStatusEvent]
      rw [Program.bind_ok (schedule_activity_apply machine ctx updateInstanceStatusName _ _)]
      cases ctx.world.activity ctx.path updateInstanceStatusName
        (instanceStatusInput instanceId status) attempt <;> rfl
  | succ retries ih =>
      simp only [finalizeFrom, finalizeEvents, instanceStatusEvent]
      rw [Program.bind_ok (schedule_activity_apply machine ctx updateInstanceStatusName _ _)]
      cases ctx.world.activity ctx.path updateInstanceStatusName
        (instanceStatusInput instanceId status) attempt with
      | ok _ => rfl
      | error e =>
          show (scheduleTimer ctx (transactionPollDelay attempt * 10 ^ 6) >>= fun _ =>
            finalizeFrom ctx instanceId status (attempt + 1) retries) _ = _
          rw [Program.bind_ok (schedule_timer_apply _ ctx _), ih, logged_logged, logged_logged]
          rfl

/-- A terminal write consists of instance writes and timers. -/
theorem finalize_events_cases {ctx : OrchestrationContext} {instanceId status : String}
    {attempt retries : Nat} {event : Event}
    (h : event ∈ finalizeEvents ctx instanceId status attempt retries) :
    (∃ attempt, event = instanceStatusEvent ctx instanceId status attempt) ∨
      ∃ nanoseconds, event = .timer ctx.site nanoseconds := by
  induction retries generalizing attempt with
  | zero =>
      rw [finalizeEvents] at h
      rcases List.mem_cons.1 h with h | h
      · exact Or.inl ⟨_, h⟩
      · cases houtcome : ctx.world.activity ctx.path updateInstanceStatusName
          (instanceStatusInput instanceId status) attempt <;> rw [houtcome] at h <;> cases h
  | succ retries ih =>
      rw [finalizeEvents] at h
      rcases List.mem_cons.1 h with h | h
      · exact Or.inl ⟨_, h⟩
      · cases houtcome : ctx.world.activity ctx.path updateInstanceStatusName
          (instanceStatusInput instanceId status) attempt with
        | ok _ =>
            rw [houtcome] at h
            cases h
        | error _ =>
            rw [houtcome] at h
            rcases List.mem_cons.1 h with h | h
            · exact Or.inr ⟨_, h⟩
            · exact ih h

/-! ## The generation -/

/-- The terminal status of an outcome. -/
def terminalStatus (outcome : Except String String) : String :=
  match outcome with | .ok _ => "completed" | .error _ => "failed"

/-- How the outcome of the root node is reported, if it has one. -/
def rootOutcome : Except Stop String → Option (Except String String)
  | .ok result => some (functionResult (.ok result))
  | .error (.raised error) => some (functionResult (.error error))
  | .error _ => none

/-- What one generation of `execute` can do: its log and how it ends. -/
inductive ExecuteRun (engine : Engine) (ctx : OrchestrationContext) (input : FunctionInput) :
    List Event → Ended → Prop
  | waiting {waits : List Event} {waitAttempt retryAttempt : Nat}
      (hwaits : ∀ event ∈ waits, event.IsWait ctx) (hgraph : receivedGraph ctx input = none)
      (hwait : waitAttempt < 2 ^ 32) (hretry : retryAttempt < 2 ^ 32)
      (hload : (loadInitialGraph ctx input ⟨∅, []⟩).1 =
        .error (.continuedAsNew (withCounters input waitAttempt retryAttempt).toJson)) :
      ExecuteRun engine ctx input waits
        (.continuedAsNew (withCounters input waitAttempt retryAttempt).toJson)
  | refused {waits : List Event} {error : String} (hwaits : ∀ event ∈ waits, event.IsWait ctx)
      (hgraph : receivedGraph ctx input = none) :
      ExecuteRun engine ctx input
        (waits ++ finalizeEvents ctx input.instanceId "failed" 0 maxStatusFinalizeAttempts)
        (.returned (.error error))
  | unreadable {loads : List Event} {json error : String} (hloads : GraphLoad ctx input loads)
      (hgraph : receivedGraph ctx input = some json)
      (hread : FunctionGraph.ofJson json = .error error) :
      ExecuteRun engine ctx input loads
        (.returned (.error ("Failed to parse function graph: " ++ error)))
  | executed {loads : List Event} {json : String} {graph : FunctionGraph}
      {result : Except Stop String} {outcome : Except String String} {after : Machine}
      (hloads : GraphLoad ctx input loads) (hgraph : receivedGraph ctx input = some json)
      (hread : FunctionGraph.ofJson json = .ok graph)
      (hrun : engine.node ctx graph graph.rootNodeId (rootExecutionContext input graph)
        ⟨∅, loads ++ [instanceStatusEvent ctx input.instanceId "running" ctx.executionId]⟩ =
          (result, after))
      (houtcome : rootOutcome result = some outcome) :
      ExecuteRun engine ctx input
        (after.log ++ finalizeEvents ctx input.instanceId (terminalStatus outcome) 0
          maxStatusFinalizeAttempts)
        (.returned outcome)
  | stopped {loads : List Event} {json : String} {graph : FunctionGraph} {stop : Stop}
      {after : Machine} (hloads : GraphLoad ctx input loads)
      (hgraph : receivedGraph ctx input = some json) (hread : FunctionGraph.ofJson json = .ok graph)
      (hrun : engine.node ctx graph graph.rootNodeId (rootExecutionContext input graph)
        ⟨∅, loads ++ [instanceStatusEvent ctx input.instanceId "running" ctx.executionId]⟩ =
          (.error stop, after))
      (hstop : ∀ error, stop ≠ .raised error) :
      ExecuteRun engine ctx input after.log (endExecute (.error stop))

section Execute

variable {engine : Engine} {ctx : OrchestrationContext} {input : FunctionInput}

/-- Executing a graph that was read. -/
theorem execute_graph_runs {loads : List Event} {json : String} {graph : FunctionGraph}
    (hloads : GraphLoad ctx input loads) (hgraph : receivedGraph ctx input = some json)
    (hread : FunctionGraph.ofJson json = .ok graph) :
    ExecuteRun engine ctx input (executeGraph engine ctx input graph ⟨∅, loads⟩).2.log
      (endExecute (executeGraph engine ctx input graph ⟨∅, loads⟩).1) := by
  have hrunning : scheduleActivity ctx updateInstanceStatusName
      (instanceStatusInput input.instanceId "running") ctx.executionId ⟨∅, loads⟩ =
      (.ok (ctx.world.activity ctx.path updateInstanceStatusName
        (instanceStatusInput input.instanceId "running") ctx.executionId),
        ⟨∅, loads ++ [instanceStatusEvent ctx input.instanceId "running" ctx.executionId]⟩) := rfl
  rcases hrun : engine.node ctx graph graph.rootNodeId (rootExecutionContext input graph)
    ⟨∅, loads ++ [instanceStatusEvent ctx input.instanceId "running" ctx.executionId]⟩
    with ⟨result, after⟩
  have hattempt : Program.attempt (engine.node ctx graph graph.rootNodeId
      (rootExecutionContext input graph))
        ⟨∅, loads ++ [instanceStatusEvent ctx input.instanceId "running" ctx.executionId]⟩ =
      (.ok result, after) := by
    rw [Program.attempt_apply, hrun]
  have hfinish : ∀ outcome, rootOutcome result = some outcome →
      ExecuteRun engine ctx input
        ((finalizeInstanceStatus ctx input.instanceId (terminalStatus outcome) >>= fun _ =>
          pure outcome) after).2.log
        (endExecute ((finalizeInstanceStatus ctx input.instanceId (terminalStatus outcome) >>=
          fun _ => pure outcome) after).1) := by
    intro outcome houtcome
    rw [finalizeInstanceStatus, Program.bind_ok (finalize_from_apply _ _ _ _ _ _)]
    exact .executed hloads hgraph hread hrun houtcome
  unfold executeGraph
  rw [Program.bind_ok hrunning, Program.bind_ok hattempt]
  cases result with
  | ok result => exact hfinish _ rfl
  | error stop =>
      cases stop with
      | raised error => exact hfinish _ rfl
      | continuedAsNew next => exact .stopped hloads hgraph hread hrun nofun
      | unresolved => exact .stopped hloads hgraph hread hrun nofun

/-- An input that cannot be read ends the orchestration at once. -/
theorem execute_unread {inputJson e : String} (h : FunctionInput.ofJson inputJson = .error e) :
    execute engine ctx inputJson =
      ([], .returned (.error ("Invalid orchestration input: " ++ e))) := by
  simp only [execute, executeInput, h]
  rfl

/-- A graph that comes with the input is executed. -/
theorem execute_carried {inputJson json : String} {graph : FunctionGraph}
    (hinput : FunctionInput.ofJson inputJson = .ok input) (hgraph : input.graph = some json)
    (hread : FunctionGraph.ofJson json = .ok graph) (machine : Machine) :
    executeInput engine ctx inputJson machine = executeGraph engine ctx input graph machine := by
  rw [executeInput, hinput]
  dsimp only
  rw [hgraph]
  refine (Program.bind_ok rfl).trans ?_
  dsimp only
  rw [hread]

/-- What happens to a graph that was received. -/
theorem execute_received_runs {json : String} {loads : List Event}
    (hloads : GraphLoad ctx input loads) (hgraph : receivedGraph ctx input = some json) :
    ExecuteRun engine ctx input
      ((match FunctionGraph.ofJson json with
        | .error e => pure (.error ("Failed to parse function graph: " ++ e))
        | .ok graph => executeGraph engine ctx input graph : Orch (Except String String))
          ⟨∅, loads⟩).2.log
      (endExecute ((match FunctionGraph.ofJson json with
        | .error e => pure (.error ("Failed to parse function graph: " ++ e))
        | .ok graph => executeGraph engine ctx input graph : Orch (Except String String))
          ⟨∅, loads⟩).1) := by
  cases hread : FunctionGraph.ofJson json with
  | error e => exact .unreadable hloads hgraph hread
  | ok graph => exact execute_graph_runs hloads hgraph hread

/-- A generation of the root orchestration goes in one of these ways. -/
theorem execute_runs {inputJson : String} (hinput : FunctionInput.ofJson inputJson = .ok input) :
    ExecuteRun engine ctx input (execute engine ctx inputJson).1
      (execute engine ctx inputJson).2 := by
  unfold execute executeInput
  rw [hinput]
  dsimp only
  cases hgraph : input.graph with
  | some json =>
      have hreceives : receivedGraph ctx input = some json := by rw [receivedGraph, hgraph]
      exact execute_received_runs ⟨List.forall_mem_nil _, List.forall_mem_nil _, fun _ => rfl⟩
        hreceives
  | none =>
      have hload := @load_initial_graph_runs ctx input (function_input_fits hinput) ⟨∅, []⟩
      have hreceives := receivedGraph.eq_def ctx input
      rw [hgraph] at hreceives
      rcases hrun : loadInitialGraph ctx input ⟨∅, []⟩ with ⟨outcome, after⟩
      rw [hrun] at hload hreceives
      cases hload with
      | waiting hwaits hwait hretry =>
          rw [Program.bind_error hrun]
          exact .waiting hwaits hreceives hwait hretry (congrArg Prod.fst hrun)
      | delivered hwaits hlast json =>
          rw [Program.bind_ok hrun]
          exact execute_received_runs (graph_load_append hgraph hwaits hlast) hreceives
      | refused hwaits error =>
          rw [Program.bind_ok hrun]
          dsimp only
          rw [finalizeInstanceStatus, Program.bind_ok (finalize_from_apply _ _ _ _ _ _)]
          exact .refused hwaits hreceives

end Execute

/-! ## The graph of an instance -/

/-- The graph that an instance gets when its admission ends, some generations after the one with
this input. -/
inductive Loads (engine : Engine) : OrchestrationContext → String → FunctionGraph → Prop
  | received {ctx : OrchestrationContext} {inputJson json : String} {input : FunctionInput}
      {graph : FunctionGraph} (hinput : FunctionInput.ofJson inputJson = .ok input)
      (hgraph : receivedGraph ctx input = some json) (hread : FunctionGraph.ofJson json = .ok graph) :
      Loads engine ctx inputJson graph
  | waited {ctx : OrchestrationContext} {inputJson next : String} {input : FunctionInput}
      {graph : FunctionGraph} {log : List Event}
      (hinput : FunctionInput.ofJson inputJson = .ok input) (hgraph : receivedGraph ctx input = none)
      (hrun : execute engine ctx inputJson = (log, .continuedAsNew next))
      (hlater : Loads engine { ctx with executionId := ctx.executionId + 1 } next graph) :
      Loads engine ctx inputJson graph

/-- A loop at the root hands its graph, its variables and its label to its next generation. -/
theorem root_continuation_reads {fuel : Nat} {ctx : OrchestrationContext} {input : FunctionInput}
    {graph : FunctionGraph} {next : String} {machine after : Machine}
    (hrun : (engine fuel).node ctx graph graph.rootNodeId (rootExecutionContext input graph)
      machine = (.error (.continuedAsNew next), after)) :
    ∃ iteration, FunctionInput.ofJson next =
      .ok ⟨graph.instanceId, input.label, input.vars, iteration, some graph.toJson, none, 0, 0⟩ := by
  have hgood := (engine_sound fuel).node ctx graph graph.rootNodeId
    (rootExecutionContext input graph) machine
  rw [hrun] at hgood
  obtain ⟨iteration, hiteration, hnext⟩ := hgood.continues rfl
  refine ⟨iteration, ?_⟩
  rw [hnext]
  exact function_input_of_json_to_json
    ⟨hiteration, by show 0 < 2 ^ 32; decide, by show 0 < 2 ^ 32; decide⟩

/-- How a generation hands over to the next one: still waiting, or with the graph it executed. -/
inductive HandsOver (ctx : OrchestrationContext) (input : FunctionInput) (log : List Event)
    (next : String) : Prop
  | waiting {waitAttempt retryAttempt : Nat}
      (hnext : FunctionInput.ofJson next = .ok (withCounters input waitAttempt retryAttempt))
      (hgraph : receivedGraph ctx input = none) (hwaits : ∀ event ∈ log, event.IsWait ctx)
      (hload : (loadInitialGraph ctx input ⟨∅, []⟩).1 = .error (.continuedAsNew next))
  | looping {json : String} {graph : FunctionGraph} {iteration : Nat}
      (hnext : FunctionInput.ofJson next =
        .ok ⟨graph.instanceId, input.label, input.vars, iteration, some graph.toJson, none, 0, 0⟩)
      (hgraph : receivedGraph ctx input = some json) (hread : FunctionGraph.ofJson json = .ok graph)

theorem hands_over {fuel : Nat} {ctx : OrchestrationContext} {input : FunctionInput}
    {inputJson next : String} {log : List Event}
    (hinput : FunctionInput.ofJson inputJson = .ok input)
    (hrun : execute (engine fuel) ctx inputJson = (log, .continuedAsNew next)) :
    HandsOver ctx input log next := by
  have hruns := @execute_runs (engine fuel) ctx input inputJson hinput
  rw [hrun] at hruns
  generalize hended : Ended.continuedAsNew next = ended at hruns
  cases hruns with
  | @waiting waits waitAttempt retryAttempt hwaits hgraph hwait hretry hload =>
      cases hended
      have hreads := @function_input_of_json_to_json (withCounters input waitAttempt retryAttempt)
        ⟨(function_input_fits hinput).loopIteration, hwait, hretry⟩
      exact .waiting hreads hgraph hwaits hload
  | refused | unreadable | executed => cases hended
  | @stopped loads json graph stop after hloads hgraph hread hnode hstop =>
      cases stop with
      | raised error => exact absurd rfl (hstop error)
      | unresolved => cases hended
      | continuedAsNew input' =>
          cases hended
          obtain ⟨iteration, hnext⟩ := root_continuation_reads hnode
          exact .looping hnext hgraph hread

/-- A generation that carries a graph loads no other. -/
theorem loads_carried {engine : Engine} {ctx : OrchestrationContext} {graph loaded : FunctionGraph}
    {inputJson : String} {input : FunctionInput}
    (hinput : FunctionInput.ofJson inputJson = .ok input) (hgraph : input.graph = some graph.toJson)
    (hloads : Loads engine ctx inputJson loaded) : loaded = graph := by
  have hreceived : receivedGraph ctx input = some graph.toJson := by rw [receivedGraph, hgraph]
  cases hloads with
  | received hinput' hgraph' hread =>
      rw [hinput, Except.ok.injEq] at hinput'
      subst hinput'
      rw [hreceived, Option.some.injEq] at hgraph'
      rw [← hgraph', graph_of_json_to_json, Except.ok.injEq] at hread
      exact hread.symm
  | waited hinput' hgraph' =>
      rw [hinput, Except.ok.injEq] at hinput'
      subst hinput'
      rw [hreceived] at hgraph'
      cases hgraph'

end PgDurable.Orchestration
