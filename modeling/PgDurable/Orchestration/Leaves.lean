import PgDurable.Graph.ErrorTexts
import PgDurable.Orchestration.Nodes

/-!
# What a leaf node does

`LeafRun` lists everything that a node without children can do to the machine, with the outcome it
has: it fails before it does anything, with a plain text; its request is refused or its activity
fails; it breaks; it waits forever; or it returns a value. `leaf_runs` says that the handlers do
nothing else. Values are stored under the name of the node, except by sleeps and schedule waits.
-/

namespace PgDurable.Orchestration

open Json

/-- The named results after the node stored a value. -/
def withResult (node : FunctionNode) (value : String) (results : StringMap) : StringMap :=
  match node.resultName with
  | some name => results.insert name value
  | none => results

/-- Storing the result of a node changes the named results only. -/
@[simp] theorem store_named_result_apply (node : FunctionNode) (value : String)
    (machine : Machine) :
    storeNamedResult node value machine =
      (.ok (), { machine with results := withResult node value machine.results }) := by
  unfold storeNamedResult withResult
  cases node.resultName <;> rfl

/-- An activity returns its answer, or raises its failure as an application failure. -/
theorem run_activity_apply (ctx : OrchestrationContext) (name input : String)
    (machine : Machine) :
    runActivity ctx name input machine =
      ((ctx.world.activity ctx.path name input 0).mapError fun message =>
        Stop.raised (.application message),
      machine.logged [.activity ctx.site name input
        (ctx.world.activity ctx.path name input 0)]) := by
  rw [runActivity, Program.bind_ok (schedule_activity_apply machine ctx name input 0)]
  cases ctx.world.activity ctx.path name input 0 <;> rfl

/-- The text that a sleep or a schedule wait returns without storing it. -/
def unstoredResult (node : FunctionNode) : Option String :=
  match nodeKind node.nodeType with
  | some .sleep => node.query.bind fun query => (Text.parseU64 query.toList).map sleepResult
  | some .waitSchedule => some scheduledResult
  | _ => none

/-- A workflow activity or a timer of the visit. -/
def Event.IsEffect (site : Site) (event : Event) : Prop :=
  (∃ name input outcome, name ∈ [executeSqlName, executeHttpName, executeMultipartName] ∧
    event = .activity site name input outcome) ∨
  ∃ nanoseconds, event = .timer site nanoseconds

/-- What a leaf node can do. -/
inductive LeafRun (ctx : OrchestrationContext) (node : FunctionNode) (machine : Machine) :
    Except Stop String → Machine → Prop
  | failed {message : String} (hplain : Plain message) :
      LeafRun ctx node machine (.error (.raised (.failure message))) machine
  | refused {message : String} {events : List Event}
      (heffects : ∀ event ∈ events, event.IsEffect ctx.site) :
      LeafRun ctx node machine (.error (.raised (.application message))) (machine.logged events)
  | broke (hkind : nodeKind node.nodeType = some .breakNode) :
      LeafRun ctx node machine (.error (.raised (.breakWith (breakValue node.query))))
        (machine.logged [.broke ctx.site (breakValue node.query)])
  | stuck : LeafRun ctx node machine (.error .unresolved) machine
  | stored {value : String} {events : List Event} (hkind : unstoredResult node = none)
      (heffects : ∀ event ∈ events, event.IsEffect ctx.site) :
      LeafRun ctx node machine (.ok value)
        ⟨withResult node value machine.results, machine.log ++ events⟩
  | unstored {value : String} {events : List Event} (hkind : unstoredResult node = some value)
      (heffects : ∀ event ∈ events, event.IsEffect ctx.site) :
      LeafRun ctx node machine (.ok value) (machine.logged events)

/-- The program does what a leaf can do. -/
def IsLeaf (ctx : OrchestrationContext) (node : FunctionNode) (program : Orch String) : Prop :=
  Does (LeafRun ctx node) program

section Rules

variable {ctx : OrchestrationContext} {node : FunctionNode} {α : Type}

/-- A leaf may need a value that can be missing. -/
theorem leaf_missing {value : Option α} {message : String} {next : α → Orch String}
    (h : Plain message) (hnext : ∀ found, value = some found → IsLeaf ctx node (next found)) :
    IsLeaf ctx node (orMissing value message >>= next) :=
  does_missing (fun _ => .failed h) hnext

/-- A leaf may call a helper whose errors are plain. -/
theorem leaf_or_fail {outcome : Except String α} {next : α → Orch String}
    (h : ErrorsPlain outcome) (hnext : ∀ value, IsLeaf ctx node (next value)) :
    IsLeaf ctx node (orFail outcome >>= next) :=
  does_or_fail (fun message hmessage _ => .failed (h message hmessage)) fun value _ => hnext value

/-- A leaf may read the named results. -/
theorem leaf_read {next : StringMap → Orch String} (h : ∀ results, IsLeaf ctx node (next results)) :
    IsLeaf ctx node (readResults >>= next) :=
  does_read fun machine => h machine.results machine

/-- A leaf may schedule a workflow activity and store its result. -/
theorem leaf_activity (hkind : unstoredResult node = none) {name : String}
    (hname : name ∈ [executeSqlName, executeHttpName, executeMultipartName]) (input : String) :
    IsLeaf ctx node (do
      let result ← runActivity ctx name input
      storeNamedResult node result
      pure result) := by
  intro machine
  have heffect : ∀ event ∈ [Event.activity ctx.site name input
      (ctx.world.activity ctx.path name input 0)], event.IsEffect ctx.site := by
    rintro _ (_ | _)
    · exact Or.inl ⟨_, _, _, hname, rfl⟩
    · contradiction
  have hrun := run_activity_apply ctx name input machine
  cases houtcome : ctx.world.activity ctx.path name input 0 with
  | error message =>
      rw [houtcome] at heffect hrun
      rw [Program.bind_error hrun]
      exact .refused heffect
  | ok result =>
      rw [houtcome] at heffect hrun
      rw [Program.bind_ok hrun, Program.bind_ok (store_named_result_apply node result _)]
      exact .stored hkind heffect

/-- A leaf may wait for a timer and return a value that it does not store. -/
theorem leaf_timer {value : String} (hkind : unstoredResult node = some value)
    (nanoseconds : Nat) :
    IsLeaf ctx node (do
      scheduleTimer ctx nanoseconds
      pure value) :=
  fun _ => .unstored hkind (by simp [Event.IsEffect])

end Rules

/-! ## The handlers -/

section Handlers

variable (ctx : OrchestrationContext) (node : FunctionNode) (nodeId : String)
  (execCtx : ExecutionContext) (sysVars : SystemVars)

theorem sql_is_leaf (version : SqlQuotingVersion) (hkind : unstoredResult node = none) :
    IsLeaf ctx node (executeSqlNode ctx node nodeId execCtx sysVars version) := by
  refine leaf_missing ?_ fun query _ => leaf_read fun results =>
    leaf_or_fail (substitute_all_plain _ _ _ _ _) fun finalQuery =>
      leaf_activity hkind (by simp) _
  exact Plain.append (Plain.append (by decide) _) _

theorem sleep_is_leaf (hkind : nodeKind node.nodeType = some .sleep) :
    IsLeaf ctx node (executeSleepNode ctx node nodeId) := by
  refine leaf_missing ?_ fun secondsText hquery => leaf_missing ?_ fun seconds hseconds =>
    leaf_timer ?_ _
  · exact Plain.append (Plain.append (by decide) _) _
  · exact Plain.append (by decide) _
  · simp [unstoredResult, hkind, hquery, hseconds]

theorem wait_schedule_is_leaf (hkind : nodeKind node.nodeType = some .waitSchedule) :
    IsLeaf ctx node (executeWaitScheduleNode ctx node nodeId) := by
  refine leaf_missing ?_ fun configText _ => leaf_or_fail (errors_plain_map_error _ (by decide))
    fun config => leaf_missing (by decide) fun cronExpr _ =>
      leaf_or_fail (errors_plain_map_error _ (by decide)) fun now =>
        leaf_or_fail (errors_plain_map_error _ ?_) fun schedule =>
          leaf_missing ?_ fun next _ => leaf_timer ?_ _
  · exact Plain.append (Plain.append (by decide) _) _
  · exact Plain.append (Plain.append (by decide) _) _
  · exact Plain.append (Plain.append (by decide) _) _
  · simp [unstoredResult, hkind]

theorem break_is_leaf (hkind : nodeKind node.nodeType = some .breakNode) :
    IsLeaf ctx node (executeBreakNode ctx node) :=
  fun _ => .broke hkind

theorem send_request_is_leaf {name : String} (hkind : unstoredResult node = none)
    (hname : name ∈ [executeSqlName, executeHttpName, executeMultipartName]) (config : Value) :
    IsLeaf ctx node (sendRequest ctx node name config) := by
  intro machine
  unfold sendRequest
  cases checkHttpRequestSize config false with
  | error message =>
      have hrefused := @LeafRun.refused ctx node machine message [] (by simp)
      rwa [logged_nil] at hrefused
  | ok _ =>
      cases setExecutionContext config node.submittedBy node.database with
      | none => exact .stuck
      | some config => exact leaf_activity hkind hname _ machine

theorem http_is_leaf (hkind : unstoredResult node = none) :
    IsLeaf ctx node (executeHttpNode ctx node nodeId execCtx sysVars) := by
  refine leaf_missing ?_ fun configText _ => leaf_or_fail (errors_plain_map_error _ (by decide))
    fun config => leaf_read fun results => ?_
  · exact Plain.append (Plain.append (by decide) _) _
  · have hplain : ∀ text, ErrorsPlain (substituteAllRaw text results execCtx.vars sysVars) :=
      fun text => substitute_all_plain _ _ _ _ _
    exact leaf_or_fail (substitute_member_plain hplain _ _) fun config =>
      leaf_or_fail (substitute_member_plain hplain _ _) fun config =>
        leaf_or_fail (substitute_headers_plain hplain _) fun config =>
          send_request_is_leaf ctx node hkind (by simp) config

theorem http_multipart_is_leaf (hkind : unstoredResult node = none) :
    IsLeaf ctx node (executeHttpMultipartNode ctx node nodeId execCtx sysVars) := by
  refine leaf_missing ?_ fun configText _ => leaf_or_fail (errors_plain_map_error _ (by decide))
    fun config => leaf_read fun results => ?_
  · exact Plain.append (Plain.append (by decide) _) _
  · have hplain : ∀ text, ErrorsPlain (substituteAllRaw text results execCtx.vars sysVars) :=
      fun text => substitute_all_plain _ _ _ _ _
    exact leaf_or_fail (substitute_member_plain hplain _ _) fun config =>
      leaf_or_fail (substitute_headers_plain hplain _) fun config =>
        leaf_or_fail (substitute_parts_plain hplain _ _) fun config =>
          send_request_is_leaf ctx node hkind (by simp) config

theorem signal_is_leaf (hkind : unstoredResult node = none) :
    IsLeaf ctx node (executeSignalNode ctx node nodeId) := by
  refine leaf_missing ?_ fun configText _ => leaf_or_fail (errors_plain_map_error _ (by decide))
    fun config => leaf_missing (by decide) fun signalName _ => ?_
  · exact Plain.append (Plain.append (by decide) _) _
  · intro machine
    have hstored : ∀ events data, (∀ event ∈ events, event.IsEffect ctx.site) →
        LeafRun ctx node machine (.ok (signalResult signalName data))
          ⟨withResult node (signalResult signalName data) machine.results,
            machine.log ++ events⟩ :=
      fun events data heffects => .stored hkind heffects
    generalize ctx.world.signal ctx.path signalName = data
    cases (config.index "timeout_seconds").asI64 with
    | some timeout =>
        have hrun := hstored [.timer ctx.site ((timeout % 2 ^ 64).toNat * 10 ^ 9)] data
          (by simp [Event.IsEffect])
        simp only [Program.bind_apply, schedule_timer_apply, store_named_result_apply,
          Program.pure_apply]
        exact hrun
    | none =>
        cases data with
        | none => exact .stuck
        | some data =>
            have hrun := hstored [] (some data) (by simp)
            rw [List.append_nil] at hrun
            simp only [Program.bind_apply, store_named_result_apply, Program.pure_apply]
            exact hrun

end Handlers

end PgDurable.Orchestration
