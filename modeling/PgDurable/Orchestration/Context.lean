import PgDurable.Graph.Types
import PgDurable.Library.Overlay
import PgDurable.Library.Program
import PgDurable.NodeStatus.Lineage

/-!
# Orchestrations and their environment

An orchestration is deterministic code: what it does depends on its input and on the answers of
its environment. `World` answers every activity, clock read, signal and race of a run, each asked
at the `Path` of the node visit that asks; paths tell all visits of a run apart, so any pattern of
outcomes is some world. `Orch` programs carry the named-results map and append what they schedule
to a log of `Event`s. Child orchestrations are logged where they are awaited, so the order of the
log is the order of time only within one orchestration.
-/

namespace PgDurable.Orchestration

/-! ## Where a node is visited -/

/-- One step from a node to a node that it executes. Loop steps count the iterations. -/
inductive Step where
  | thenLeft
  | thenRight
  | ifCondition
  | ifThen
  | ifElse
  | loopBody (iteration : Nat)
  | loopCondition (iteration : Nat)
  | branch (index : Nat)
  deriving DecidableEq

/-- The steps from the root of the instance to a visit, outermost first. -/
abbrev Path := List Step

/-- A visit: the orchestration generation that makes it and its path. -/
structure Site where
  instanceId : String
  executionId : Nat
  path : Path
  deriving DecidableEq

/-! ## The environment -/

/-- The answers of the environment. -/
structure World where
  /-- The outcome of the `attempt`-th scheduling of an activity by a visit. -/
  activity : Path → (name input : String) → (attempt : Nat) → Except String String
  /-- The deterministic clock in nanoseconds, read for the `read`-th time by a visit. -/
  utcNow : Path → (read : Nat) → Except String Int
  /-- The next tick of a cron expression after a moment. -/
  cronNext : String → Except String (Int → Option Int)
  /-- The data of a signal, unless it does not arrive or its timeout fires first. -/
  signal : Path → String → Option String
  /-- The error with which the runtime fails a child instead of running it. -/
  runtimeFault : Path → String → Option String
  /-- The left branch of a race is the first to finish. -/
  leftWins : Path → Bool
  /-- How many events the losing branch of a race has logged when the race is decided. -/
  loserProgress : Path → Nat

/-- An environment without incidents: every activity answers `null`, the clock stands still and the
left branch wins every race. -/
def World.quiet : World where
  activity _ _ _ _ := .ok "null"
  utcNow _ _ := .ok 0
  cronNext _ := .ok fun now => some now
  signal _ _ := none
  runtimeFault _ _ := none
  leftWins _ := true
  loserProgress _ := 0

/-- The context of a running orchestration generation, at a visit. -/
structure OrchestrationContext where
  world : World
  instanceId : String
  executionId : Nat
  path : Path

/-- The visit of the context. -/
def OrchestrationContext.site (ctx : OrchestrationContext) : Site :=
  ⟨ctx.instanceId, ctx.executionId, ctx.path⟩

/-- The context one step further down. -/
def OrchestrationContext.down (ctx : OrchestrationContext) (step : Step) : OrchestrationContext :=
  { ctx with path := ctx.path ++ [step] }

/-- The stamp of the orchestration generation: `{instance}::{execution}`. -/
def OrchestrationContext.stamp (ctx : OrchestrationContext) : String :=
  NodeStatus.executionStamp ctx.instanceId (toString ctx.executionId)

/-- The instance id of a child rooted at a node. -/
def subtreeInstanceId (ctx : OrchestrationContext) (childRootNodeId : String) : String :=
  NodeStatus.composeSubtreeInstanceId ctx.instanceId (toString ctx.executionId) childRootNodeId

/-- A composed instance id is longer than the one it is composed of. -/
theorem subtree_instance_id_length (ctx : OrchestrationContext) (nodeId : String) :
    ctx.instanceId.length < (subtreeInstanceId ctx nodeId).length := by
  rw [subtreeInstanceId, NodeStatus.composeSubtreeInstanceId]
  have hcolons : "::".length = 2 := rfl
  simp only [String.length_append]
  omega

/-! ## Outcomes -/

/-- Control-flow-aware error of a node handler. -/
inductive NodeError where
  /-- A `df.break()` signal with its value. -/
  | breakWith (value : String)
  /-- An expected failure of a workflow activity. -/
  | application (message : String)
  /-- A graph, protocol or runtime fault. -/
  | failure (message : String)
  deriving DecidableEq

/-- The text of an error. -/
def NodeError.message : NodeError → String
  | .breakWith value => value
  | .application message => message
  | .failure message => message

/-- How an orchestration program ends without a value. -/
inductive Stop where
  /-- A node error is raised. -/
  | raised (error : NodeError)
  /-- `continue_as_new`: the generation ends and the next one starts with this input. -/
  | continuedAsNew (input : String)
  /-- No result ever: a wait that does not resolve, or a computation cut short. -/
  | unresolved
  deriving DecidableEq

/-- What a run does, in the order of its log. -/
inductive Event where
  /-- A node starts to execute. -/
  | visited (site : Site) (nodeId : String)
  /-- An activity was scheduled, with its outcome. -/
  | activity (site : Site) (name input : String) (outcome : Except String String)
  /-- A durable timer was awaited. -/
  | timer (site : Site) (nanoseconds : Nat)
  /-- A child orchestration was scheduled. -/
  | spawned (site : Site) (childId input : String)
  /-- A `df.break()` node executed with its value. -/
  | broke (site : Site) (value : String)
  /-- The branch whose outcome a join raises or a race takes. -/
  | decided (site : Site) (index : Nat)
  /-- A node has its outcome. -/
  | finished (site : Site) (nodeId : String) (outcome : Except NodeError String)
  deriving DecidableEq

/-- The visit an event belongs to. -/
def Event.site : Event → Site
  | .visited site _ => site
  | .activity site _ _ _ => site
  | .timer site _ => site
  | .spawned site _ _ => site
  | .broke site _ => site
  | .decided site _ => site
  | .finished site _ _ => site

/-! ## Programs -/

/-- The state of an orchestration generation: its named results and its log. -/
structure Machine where
  results : StringMap
  log : List Event

/-- Append events to the log of a machine. -/
def Machine.logged (machine : Machine) (events : List Event) : Machine :=
  { machine with log := machine.log ++ events }

@[simp] theorem logged_results (machine : Machine) (events : List Event) :
    (machine.logged events).results = machine.results := rfl

@[simp] theorem logged_log (machine : Machine) (events : List Event) :
    (machine.logged events).log = machine.log ++ events := rfl

@[simp] theorem logged_nil (machine : Machine) : machine.logged [] = machine := by
  simp [Machine.logged]

@[simp] theorem logged_logged (machine : Machine) (first second : List Event) :
    (machine.logged first).logged second = machine.logged (first ++ second) := by
  simp [Machine.logged]

/-- An orchestration program. -/
abbrev Orch := Program Machine Stop

/-- Append events to the log. -/
def emit (events : List Event) : Orch Unit :=
  Program.modify fun machine => machine.logged events

/-- Raise a node error. -/
def raise {α : Type} (error : NodeError) : Orch α := Program.exit (.raised error)

/-- Raise a structural error, as `?` does with a plain text. -/
def fail {α : Type} (message : String) : Orch α := raise (.failure message)

/-- `?` on a helper that returns a plain text as its error. -/
def orFail {α : Type} (outcome : Except String α) : Orch α :=
  match outcome with
  | .ok value => pure value
  | .error message => fail message

/-- `ok_or(message)?`. -/
def orMissing {α : Type} (value : Option α) (message : String) : Orch α :=
  match value with
  | some value => pure value
  | none => fail message

/-- Store a named result. -/
def insertResult (name result : String) : Orch Unit :=
  Program.modify fun machine => { machine with results := machine.results.insert name result }

/-- Merge a map into the named results, entry by entry. -/
def extendResults (entries : StringMap) : Orch Unit :=
  Program.modify fun machine =>
    { machine with results := overlay machine.results entries }

/-- The named results. -/
def readResults : Orch StringMap := do
  let machine ← Program.get
  pure machine.results

/-- Schedule an activity and await its outcome. -/
def scheduleActivity (ctx : OrchestrationContext) (name input : String) (attempt : Nat) :
    Orch (Except String String) := do
  let outcome := ctx.world.activity ctx.path name input attempt
  emit [.activity ctx.site name input outcome]
  pure outcome

/-- Schedule a timer and await it. -/
def scheduleTimer (ctx : OrchestrationContext) (nanoseconds : Nat) : Orch Unit :=
  emit [.timer ctx.site nanoseconds]

section Apply

variable {α : Type} (machine : Machine)

@[simp] theorem emit_apply (events : List Event) :
    emit events machine = (.ok (), machine.logged events) := rfl

@[simp] theorem raise_apply (error : NodeError) :
    (raise error : Orch α) machine = (.error (.raised error), machine) := rfl

@[simp] theorem fail_apply (message : String) :
    (fail message : Orch α) machine = (.error (.raised (.failure message)), machine) := rfl

@[simp] theorem or_fail_ok (value : α) : orFail (.ok value) = pure value := rfl

@[simp] theorem or_fail_error (message : String) :
    (orFail (.error message) : Orch α) = fail message := rfl

@[simp] theorem or_missing_some (value : α) (message : String) :
    orMissing (some value) message = pure value := rfl

@[simp] theorem or_missing_none (message : String) :
    (orMissing none message : Orch α) = fail message := rfl

@[simp] theorem insert_result_apply (name result : String) :
    insertResult name result machine =
      (.ok (), { machine with results := machine.results.insert name result }) := rfl

@[simp] theorem extend_results_apply (entries : StringMap) :
    extendResults entries machine =
      (.ok (), { machine with results := overlay machine.results entries }) := rfl

@[simp] theorem read_results_apply : readResults machine = (.ok machine.results, machine) := rfl

@[simp] theorem schedule_activity_apply (ctx : OrchestrationContext) (name input : String)
    (attempt : Nat) :
    scheduleActivity ctx name input attempt machine =
      (.ok (ctx.world.activity ctx.path name input attempt),
        machine.logged [.activity ctx.site name input
          (ctx.world.activity ctx.path name input attempt)]) := rfl

@[simp] theorem schedule_timer_apply (ctx : OrchestrationContext) (nanoseconds : Nat) :
    scheduleTimer ctx nanoseconds machine =
      (.ok (), machine.logged [.timer ctx.site nanoseconds]) := rfl

end Apply

/-- The program does to every machine what the relation allows. -/
def Does {α : Type} (Q : Machine → Except Stop α → Machine → Prop) (program : Orch α) : Prop :=
  ∀ machine, Q machine (program machine).1 (program machine).2

section Does

variable {α β : Type} {Q : Machine → Except Stop β → Machine → Prop}

/-- A program that needs a value which can be missing. -/
theorem does_missing {value : Option α} {message : String} {next : α → Orch β}
    (hmissing : ∀ machine, Q machine (.error (.raised (.failure message))) machine)
    (hnext : ∀ found, value = some found → Does Q (next found)) :
    Does Q (orMissing value message >>= next) := by
  cases value with
  | none => exact hmissing
  | some found => exact hnext found rfl

/-- A program that calls a helper which can fail. -/
theorem does_or_fail {outcome : Except String α} {next : α → Orch β}
    (hfail : ∀ message, outcome = .error message →
      ∀ machine, Q machine (.error (.raised (.failure message))) machine)
    (hnext : ∀ value, outcome = .ok value → Does Q (next value)) :
    Does Q (orFail outcome >>= next) := by
  cases outcome with
  | error message => exact hfail message rfl
  | ok value => exact hnext value rfl

/-- A program that starts by reading the named results. -/
theorem does_read {next : StringMap → Orch β}
    (h : ∀ machine : Machine, Q machine (next machine.results machine).1
      (next machine.results machine).2) : Does Q (readResults >>= next) := h

end Does

/-- The activity that writes node statuses. -/
def updateNodeStatusName : String := "pg_durable::activity::update-node-status"

/-- The activity that writes instance statuses. -/
def updateInstanceStatusName : String := "pg_durable::activity::update-instance-status"

/-- The activity that runs SQL. -/
def executeSqlName : String := "pg_durable::activity::execute-sql"

/-- The activity that sends an HTTP request. -/
def executeHttpName : String := "pg_durable::activity::execute-http"

/-- The activity that sends a multipart HTTP request. -/
def executeMultipartName : String := "pg_durable::activity::execute-multipart"

/-- The activity that loads a graph. -/
def loadFunctionGraphName : String := "pg_durable::activity::load-function-graph"

/-- The activity that probes a graph and its transaction. -/
def transactionAwareName : String := "pg_durable::activity::probe-function-graph-transaction-v1"

end PgDurable.Orchestration
