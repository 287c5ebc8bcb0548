import PgDurable.Instances.InstanceStatus
import PgDurable.NodeStatus.UpdateNodeStatus
import PgDurable.Orchestration.Finalization

/-!
# The result of a completed instance

`df.result` reads the row of the root node, and whoever waits for an instance reads its own row.
The root orchestration writes both through activities: the node's row in one attempt whose outcome
it ignores, the instance's row with durable retries. `TableRun` lets any events of the log reach the
two tables: those of the root orchestration in their order, those of other orchestrations at any
time, an attempt that reports an error with or without its effect.

`completed_instance_has_result` says that a completed instance has its result in every run in which
each completion of the root's row succeeds and nobody else writes that row;
`lost_result_of_completed_instance` is a run with one failed attempt in which it has none.
-/

namespace PgDurable.Orchestration

open Instances (InstanceRow InstanceStatusInput updateInstanceStatus)
open Json NodeStatus

/-! ## The tables -/

/-- The row of an instance and the row of its root node. -/
structure Tables where
  instanceRow : InstanceRow
  rootRow : NodeRow
  deriving DecidableEq

/-- `df.result` of the instance. -/
def Tables.result (tables : Tables) : Option Value :=
  if tables.rootRow.status = "completed" then tables.rootRow.result else none

/-- The node status write that an event schedules, and whether it succeeded. -/
def Event.nodeUpdate : Event → Option (NodeStatusInput × Bool)
  | .activity _ name input outcome =>
      if name = updateNodeStatusName then
        (NodeStatusInput.ofJson input).toOption.map (·, outcome.isOk)
      else none
  | _ => none

/-- The event schedules a write of the root's row. -/
def Event.WritesRoot (rootId instanceId : String) (event : Event) : Prop :=
  ∃ input succeeded, event.nodeUpdate = some (input, succeeded) ∧ input.nodeId = rootId ∧
    input.instanceId = instanceId

/-- What an event does to the tables. An activity that reports an error may have had its effect. -/
inductive Effect (rootId : String) (tables : Tables) (event : Event) : Tables → Prop
  | nodeRow {input : NodeStatusInput} {succeeded statusDetailsPresent : Bool} {row : NodeRow}
      {message : String} (hupdate : event.nodeUpdate = some (input, succeeded))
      (hroot : input.nodeId = rootId) (hinstance : input.instanceId = tables.instanceRow.id)
      (hrun : updateNodeStatus statusDetailsPresent input (some tables.rootRow) =
        .ok (row, message)) :
      Effect rootId tables event { tables with rootRow := row }
  | instanceRow {input : InstanceStatusInput} {succeeded : Bool} (now : Int)
      (hupdate : event.instanceUpdate = some (input, succeeded)) :
      Effect rootId tables event
        { tables with instanceRow := updateInstanceStatus input now tables.instanceRow }
  | failed (h : (∃ input, event.nodeUpdate = some (input, false)) ∨
      ∃ input, event.instanceUpdate = some (input, false)) : Effect rootId tables event tables
  | unrelated (hnode : ¬ event.WritesRoot rootId tables.instanceRow.id)
      (hinstance : event.instanceUpdate = none) : Effect rootId tables event tables

/-- Events reach the tables one after another; the instance can be cancelled at any time. -/
inductive TableRun (rootId : String) : Tables → List Event → Tables → Prop
  | done (tables : Tables) : TableRun rootId tables [] tables
  | event {tables middle after : Tables} {event : Event} {events : List Event}
      (heffect : Effect rootId tables event middle)
      (hrest : TableRun rootId middle events after) :
      TableRun rootId tables (event :: events) after
  | cancelled {tables after : Tables} {events : List Event} (now : Int)
      (hrest : TableRun rootId { tables with
        instanceRow := Instances.cancel tables.instanceRow.id now tables.instanceRow } events
          after) :
      TableRun rootId tables events after

/-- The events that reached the tables: any events of the log, but those of one orchestration in
its order. -/
structure Arrives (instanceId : String) (log arrivals : List Event) : Prop where
  logged : ∀ event ∈ arrivals, event ∈ log
  ordered : arrivals.filter (fun event => event.site.instanceId = instanceId) <+:
    log.filter fun event => event.site.instanceId = instanceId

section Tables

variable {rootId : String} {tables middle after : Tables} {event : Event} {events : List Event}

/-- An instance keeps its id. -/
theorem Effect.instance_id (h : Effect rootId tables event after) :
    after.instanceRow.id = tables.instanceRow.id := by
  cases h with
  | nodeRow | failed | unrelated => rfl
  | instanceRow =>
      show (updateInstanceStatus _ _ _).id = _
      unfold updateInstanceStatus
      split_ifs <;> rfl

/-- A cancelled instance keeps its id and does not become completed. -/
theorem cancel_row (id : String) (now : Int) (row : InstanceRow) :
    (Instances.cancel id now row).id = row.id ∧
      ((Instances.cancel id now row).status = "completed" → row.status = "completed") := by
  unfold Instances.cancel
  split_ifs
  · refine ⟨rfl, fun h => ?_⟩
    have hne : "cancelled" ≠ "completed" := by decide
    exact absurd h hne
  · exact ⟨rfl, fun h => h⟩

/-- What every event and every cancellation preserves holds at the end. -/
theorem TableRun.preserves {P : Tables → Prop} (h : TableRun rootId tables events after)
    (hevent : ∀ event ∈ events, ∀ {before next}, P before → Effect rootId before event next → P next)
    (hcancel : ∀ {before : Tables} (now : Int), P before → P { before with
      instanceRow := Instances.cancel before.instanceRow.id now before.instanceRow })
    (hstart : P tables) : P after := by
  induction h with
  | done => exact hstart
  | event heffect _ ih =>
      exact ih (fun event hmem => hevent event (.tail _ hmem))
        (hevent _ (.head _) hstart heffect)
  | cancelled now _ ih => exact ih hevent (hcancel now hstart)

/-- An instance keeps its id. -/
theorem TableRun.instance_id (h : TableRun rootId tables events after) :
    after.instanceRow.id = tables.instanceRow.id :=
  h.preserves (P := fun t => t.instanceRow.id = tables.instanceRow.id)
    (fun _ _ _ _ hid heffect => heffect.instance_id.trans hid)
    (fun now hid => (cancel_row _ now _).1.trans hid) rfl

/-- A run over a list passes between its parts. -/
theorem TableRun.split {first second : List Event}
    (h : TableRun rootId tables (first ++ second) after) :
    ∃ middle, TableRun rootId tables first middle ∧ TableRun rootId middle second after := by
  generalize hevents : first ++ second = events at h
  induction h generalizing first with
  | done =>
      obtain ⟨rfl, rfl⟩ := List.append_eq_nil_iff.1 hevents
      exact ⟨_, .done _, .done _⟩
  | @event tables middle after event events heffect hrest ih =>
      cases first with
      | nil =>
          subst hevents
          exact ⟨_, .done _, .event heffect hrest⟩
      | cons other first =>
          cases hevents
          obtain ⟨last, hfirst, hsecond⟩ := ih rfl
          exact ⟨last, .event heffect hfirst, hsecond⟩
  | cancelled now _ ih =>
      obtain ⟨last, hfirst, hsecond⟩ := ih hevents
      exact ⟨last, .cancelled now hfirst, hsecond⟩

/-- Events that write neither row can be left out. -/
theorem TableRun.filter {p : Event → Bool} (h : TableRun rootId tables events after)
    (hskip : ∀ event ∈ events, p event = false →
      ¬ event.WritesRoot rootId tables.instanceRow.id ∧ event.instanceUpdate = none) :
    TableRun rootId tables (events.filter p) after := by
  induction h with
  | done => exact .done _
  | @event tables middle after event events heffect _ ih =>
      have hrest := ih fun event hmem hp => by
        rw [heffect.instance_id]
        exact hskip event (.tail _ hmem) hp
      cases hp : p event with
      | true =>
          rw [List.filter_cons_of_pos hp]
          exact .event heffect hrest
      | false =>
          obtain ⟨hnode, hinstance⟩ := hskip event (.head _) hp
          rw [List.filter_cons_of_neg (by simp [hp])]
          cases heffect with
          | nodeRow hupdate hroot hid => exact absurd ⟨_, _, hupdate, hroot, hid⟩ hnode
          | instanceRow now hupdate =>
              rw [hinstance] at hupdate
              cases hupdate
          | failed | unrelated => exact hrest
  | @cancelled tables after events now _ ih =>
      refine .cancelled now (ih fun event hmem hp => ?_)
      rw [(cancel_row _ now _).1]
      exact hskip event hmem hp

end Tables

/-! ## Stamps of one orchestration -/

/-- The stamps that an orchestration generation writes by itself: its own, or that of a child. -/
def OwnStamp (ctx : OrchestrationContext) (stamp : String) : Prop :=
  stamp = ctx.stamp ∨ ∃ childId, stamp = childStamp ctx childId

/-- A generation counter that can be read is read back. -/
theorem parse_generation_counter {n : Nat} {g : Int} (h : parseGeneration (toString n) = some g) :
    g = n := by
  have htext : (toString n).toList = Nat.toDigits 10 n := Nat.toList_repr
  rw [parseGeneration, htext, Text.parse_i64_digits] at h
  split at h
  · exact (Option.some.inj h).symm
  · cases h

/-- The parts of a stamp that can be read. -/
theorem stamp_lineage_parts {stamp : String} {generations : List Int} {nodes : List String}
    (h : stampLineage stamp = some (generations, nodes)) :
    ∃ front last lineage generation, rsplitOnce stamp = some (front, last) ∧
      InstanceLineage.parse front = some lineage ∧ parseGeneration last = some generation ∧
      generations = lineage.generations ++ [generation] := by
  simp only [stampLineage, parseExecutionStamp, Option.bind_eq_bind, Option.bind_eq_some_iff,
    pure, Option.some.injEq, Prod.mk.injEq] at h
  obtain ⟨⟨parsed, current⟩, ⟨⟨front, last⟩, hcut, lineage, hparse, generation, hlast, rfl, rfl⟩,
    hgenerations, -⟩ := h
  exact ⟨front, last, parsed, current, hcut, hparse, hlast, hgenerations.symm⟩

section OwnStamps

variable {ctx : OrchestrationContext} {generations : List Int} {nodes : List String}

/-- The stamp of a root orchestration has one generation. -/
theorem root_stamp_generations (hid : ':' ∉ ctx.instanceId.toList)
    (h : stampLineage ctx.stamp = some (generations, nodes)) :
    generations = [(ctx.executionId : Int)] := by
  have hcounter : ':' ∉ (toString ctx.executionId).toList :=
    Text.colon_not_mem_to_string (ctx.executionId : Int)
  obtain ⟨front, last, lineage, generation, hcut, hparse, hlast, rfl⟩ := stamp_lineage_parts h
  rw [OrchestrationContext.stamp, executionStamp, rsplit_once_append _ hcounter] at hcut
  obtain ⟨rfl, rfl⟩ := Prod.mk.inj (Option.some.inj hcut)
  have htokens : splitTokens ctx.instanceId = [ctx.instanceId] := by
    rw [splitTokens, Text.split_double_single hid]
    simp
  simp only [InstanceLineage.parse, htokens] at hparse
  split at hparse
  · cases hparse
  · cases hparse
    rw [parse_generation_counter hlast]
    rfl

/-- The stamp of a child starts with the generation of its root orchestration. -/
theorem child_stamp_generations (hid : ':' ∉ ctx.instanceId.toList) {childId : String}
    (h : stampLineage (childStamp ctx childId) = some (generations, nodes)) :
    ∃ deeper, generations = (ctx.executionId : Int) :: deeper := by
  have hcounter : ':' ∉ (toString ctx.executionId).toList :=
    Text.colon_not_mem_to_string (ctx.executionId : Int)
  have hone : ':' ∉ "1".toList := by decide
  have hshape : childStamp ctx childId = subtreeInstanceId ctx childId ++ "::" ++ "1" := by
    rw [childStamp, String.append_assoc]
    rfl
  have htokens : splitTokens (subtreeInstanceId ctx childId) =
      ctx.instanceId :: toString ctx.executionId :: splitTokens childId := by
    have hchars : (subtreeInstanceId ctx childId).toList = ctx.instanceId.toList ++ ':' :: ':' ::
        ((toString ctx.executionId).toList ++ ':' :: ':' :: childId.toList) := by
      simp [subtreeInstanceId, composeSubtreeInstanceId]
    rw [splitTokens, hchars, Text.split_double_append hid, Text.split_double_append hcounter,
      List.map_cons, List.map_cons, String.ofList_toList, String.ofList_toList]
    rfl
  obtain ⟨front, last, lineage, generation, hcut, hparse, hlast, rfl⟩ := stamp_lineage_parts h
  rw [hshape, rsplit_once_append _ hone] at hcut
  obtain ⟨rfl, rfl⟩ := Prod.mk.inj (Option.some.inj hcut)
  simp only [InstanceLineage.parse, htokens] at hparse
  split at hparse
  · cases hparse
  · next hodd =>
      simp only [Option.bind_eq_bind, Option.bind_eq_some_iff, pure, Option.some.injEq] at hparse
      obtain ⟨pairs, hpairs, rfl⟩ := hparse
      cases hrest : splitTokens childId with
      | nil => simp [hrest] at hodd
      | cons node rest =>
          rw [hrest] at hpairs
          simp only [parsePairs, Option.bind_eq_bind, Option.bind_eq_some_iff] at hpairs
          obtain ⟨g, hg, hpairs⟩ := hpairs
          split at hpairs
          · cases hpairs
          · simp only [Option.bind_eq_some_iff, pure, Option.some.injEq] at hpairs
            obtain ⟨deeper, -, rfl⟩ := hpairs
            rw [parse_generation_counter hg]
            exact ⟨_, rfl⟩

/-- A stamp of the root orchestration does not supersede one of its later generations. -/
theorem own_stamp_not_newer (hid : ':' ∉ ctx.instanceId.toList) {stamp : String}
    (h : OwnStamp ctx stamp) {executionId : Nat} (hle : ctx.executionId ≤ executionId) :
    incomingStampIsSuperseded (executionStamp ctx.instanceId (toString executionId)) (some stamp) =
      false := by
  have hfirst : ∀ {generations nodes}, stampLineage stamp = some (generations, nodes) →
      ∃ deeper, generations = (ctx.executionId : Int) :: deeper := by
    intro generations nodes hlineage
    rcases h with rfl | ⟨childId, rfl⟩
    · exact ⟨[], root_stamp_generations hid hlineage⟩
    · exact child_stamp_generations hid hlineage
  simp only [incomingStampIsSuperseded]
  split
  · next incGens incNodes exGens exNodes hincoming hexisting =>
      have hroot := @root_stamp_generations { ctx with executionId := executionId } _ _ hid hincoming
      obtain ⟨deeper, rfl⟩ := hfirst hexisting
      subst hroot
      -- the incoming stamp has no second level to compare
      have hnot : ¬ (executionId : Int) < ctx.executionId := by omega
      unfold olderAtFirstDifference
      rw [if_neg hnot]
      split
      · rfl
      · split
        · split <;> rfl
        · rfl
  · rfl

end OwnStamps

/-! ## What a generation logs -/

/-- An event that an orchestration generation logs by itself stamps its node status writes. -/
def Event.StampedBy (ctx : OrchestrationContext) (event : Event) : Prop :=
  event.site.instanceId = ctx.instanceId ∧ ∀ input succeeded,
    event.nodeUpdate = some (input, succeeded) →
      ∃ stamp, input.executionId = some stamp ∧ OwnStamp ctx stamp

/-- Another activity writes no node status. -/
theorem other_activity_writes_no_node {name : String} (h : name ≠ updateNodeStatusName)
    (site : Site) (input : String) (outcome : Except String String) :
    (Event.activity site name input outcome).nodeUpdate = none :=
  if_neg h

/-- The update that a node status write schedules. -/
theorem node_update_of_input {text : String} {input : NodeStatusInput}
    (h : NodeStatusInput.ofJson text = .ok input) (site : Site) (outcome : Except String String) :
    (Event.activity site updateNodeStatusName text outcome).nodeUpdate =
      some (input, outcome.isOk) := by
  rw [Event.nodeUpdate, if_pos rfl, h]
  rfl

/-- An event without a node status write at the visit of the generation. -/
theorem stamped_of_no_update {ctx : OrchestrationContext} {event : Event}
    (hsite : event.site = ctx.site) (h : event.nodeUpdate = none) : event.StampedBy ctx := by
  refine ⟨by rw [hsite]; rfl, fun input succeeded hupdate => ?_⟩
  rw [h] at hupdate
  cases hupdate

/-- A stamped write at the visit of the generation. -/
theorem stamped_of_input {ctx : OrchestrationContext} {text stamp : String}
    {input : NodeStatusInput} (h : NodeStatusInput.ofJson text = .ok input)
    (hstamp : input.executionId = some stamp) (hown : OwnStamp ctx stamp)
    (outcome : Except String String) :
    (Event.activity ctx.site updateNodeStatusName text outcome).StampedBy ctx := by
  refine ⟨rfl, fun other succeeded hupdate => ?_⟩
  rw [node_update_of_input h] at hupdate
  cases hupdate
  exact ⟨stamp, hstamp, hown⟩

/-- Events of a run are stamped by the orchestration itself or belong to a child, which has a longer
id. -/
theorem stamped_invariant : LogInvariant fun ctx event =>
    event.StampedBy ctx ∨ ctx.instanceId.length < event.site.instanceId.length where
  own := by
    intro ctx event h
    refine Or.inl ?_
    cases h with
    | visited | broke | decided | finished => exact stamped_of_no_update rfl rfl
    | status =>
        exact stamped_of_input (node_status_input_of_serialize _ _ _ _ _) rfl (Or.inl rfl) _
    | quiet h =>
        rcases h with (⟨name, input, outcome, hname, rfl⟩ | ⟨_, rfl⟩) | ⟨_, _, rfl⟩ |
          ⟨_, _, _, _, _, hstamp, rfl⟩
        · refine stamped_of_no_update rfl (other_activity_writes_no_node ?_ _ _ _)
          intro heq
          rw [heq] at hname
          exact absurd hname (by decide)
        · exact stamped_of_no_update rfl rfl
        · exact stamped_of_no_update rfl rfl
        · exact stamped_of_input (node_status_input_of_loop_stamp _ _ _ _ _) rfl hstamp _
  down := id
  child := by
    intro ctx nodeId steps executionId event h
    have hlonger := subtree_instance_id_length ctx nodeId
    rcases h with h | h
    · refine Or.inr ?_
      rw [h.1]
      exact hlonger
    · exact Or.inr (hlonger.trans h)

/-- What the events of a generation of the root orchestration satisfy: it stamps its own writes, and
only it updates the instance. -/
structure Event.OfGeneration (ctx : OrchestrationContext) (event : Event) : Prop where
  stamped : event.site.instanceId = ctx.instanceId → event.StampedBy ctx
  instanceUpdate : event.site.instanceId ≠ ctx.instanceId → event.instanceUpdate = none

/-- Events of the visit itself that write no node status. -/
theorem of_generation_own {ctx : OrchestrationContext} {event : Event}
    (hsite : event.site = ctx.site) (h : event.nodeUpdate = none) : event.OfGeneration ctx :=
  ⟨fun _ => stamped_of_no_update hsite h, fun hne => absurd (by rw [hsite]; rfl) hne⟩

theorem load_of_generation {ctx : OrchestrationContext} {event : Event} (h : event.IsLoad ctx) :
    event.OfGeneration ctx := by
  rcases h with ⟨name, input, outcome, hname, rfl⟩ | ⟨_, rfl⟩
  · refine of_generation_own rfl (other_activity_writes_no_node ?_ _ _ _)
    intro heq
    rw [heq] at hname
    exact absurd hname (by decide)
  · exact of_generation_own rfl rfl

theorem instance_write_of_generation (ctx : OrchestrationContext) (instanceId status : String)
    (attempt : Nat) : (instanceStatusEvent ctx instanceId status attempt).OfGeneration ctx :=
  of_generation_own rfl (other_activity_writes_no_node (by decide) _ _ _)

theorem finalize_of_generation {ctx : OrchestrationContext} {instanceId status : String}
    {attempt retries : Nat} :
    ∀ event ∈ finalizeEvents ctx instanceId status attempt retries, event.OfGeneration ctx := by
  intro event hevent
  rcases finalize_events_cases hevent with ⟨attempt, rfl⟩ | ⟨_, rfl⟩
  · exact instance_write_of_generation ctx instanceId status attempt
  · exact of_generation_own rfl rfl

/-- Every event of a generation. -/
theorem generation_events {fuel : Nat} {ctx : OrchestrationContext} {inputJson : String}
    {input : FunctionInput} (hinput : FunctionInput.ofJson inputJson = .ok input) :
    ∀ event ∈ (execute (engine fuel) ctx inputJson).1, event.OfGeneration ctx := by
  have hafter : ∀ {graph loads outcome after}, GraphLoad ctx input loads →
      (engine fuel).node ctx graph graph.rootNodeId (rootExecutionContext input graph)
        ⟨∅, loads ++ [instanceStatusEvent ctx input.instanceId "running" ctx.executionId]⟩ =
          (outcome, after) → ∀ event ∈ after.log, event.OfGeneration ctx := by
    intro graph loads outcome after hloads hrun event hevent
    obtain ⟨events, hlog, hstamped⟩ := (engine_logs stamped_invariant fuel).node ctx graph
      graph.rootNodeId (rootExecutionContext input graph)
      ⟨∅, loads ++ [instanceStatusEvent ctx input.instanceId "running" ctx.executionId]⟩
    obtain ⟨events', hlog', hupdates⟩ := (engine_logs instance_update_invariant fuel).node ctx graph
      graph.rootNodeId (rootExecutionContext input graph)
      ⟨∅, loads ++ [instanceStatusEvent ctx input.instanceId "running" ctx.executionId]⟩
    rw [hrun] at hlog hlog'
    have hsame : events = events' := List.append_cancel_left (hlog.symm.trans hlog')
    subst hsame
    rw [hlog] at hevent
    rcases List.mem_append.1 hevent with hevent | hevent
    · rcases List.mem_append.1 hevent with hevent | hevent
      · exact load_of_generation (hloads.is_load event hevent)
      · rw [List.mem_singleton.1 hevent]
        exact instance_write_of_generation ctx _ _ _
    · refine ⟨fun hsite => (hstamped event hevent).resolve_right fun hlonger => ?_,
        fun _ => hupdates event hevent⟩
      rw [hsite] at hlonger
      exact absurd hlonger (Nat.lt_irrefl _)
  have hrun := @execute_runs (engine fuel) ctx input inputJson hinput
  generalize execute (engine fuel) ctx inputJson = run at hrun
  obtain ⟨log, ended⟩ := run
  intro event hevent
  cases hrun with
  | waiting hwaits => exact load_of_generation (hwaits event hevent).1
  | refused hwaits =>
      rcases List.mem_append.1 hevent with hevent | hevent
      · exact load_of_generation (hwaits event hevent).1
      · exact finalize_of_generation event hevent
  | unreadable hloads => exact load_of_generation (hloads.is_load event hevent)
  | executed hloads _ _ hnode =>
      rcases List.mem_append.1 hevent with hevent | hevent
      · exact hafter hloads hnode event hevent
      · exact finalize_of_generation event hevent
  | stopped hloads _ _ hnode => exact hafter hloads hnode event hevent

/-! ## The tables during a generation -/

/-- The row does not fence writes of this generation of a root orchestration or of a later one. -/
def Unfenced (ctx : OrchestrationContext) (row : NodeRow) : Prop :=
  ∀ executionId, ctx.executionId ≤ executionId →
    incomingStampIsSuperseded (executionStamp ctx.instanceId (toString executionId))
      (executionIdFromDetails row.statusDetails) = false

/-- The instance is not completed, and the root's row does not fence. -/
structure Unfinished (ctx : OrchestrationContext) (tables : Tables) : Prop where
  status : tables.instanceRow.status ≠ "completed"
  unfenced : Unfenced ctx tables.rootRow

/-- The root's row is completed with the result. -/
def Stored (value : String) (tables : Tables) : Prop :=
  tables.rootRow.status = "completed" ∧ tables.rootRow.result = some (storedResult value)

/-- The event does not complete an instance. -/
def Event.CompletesNothing (event : Event) : Prop :=
  ∀ input succeeded, event.instanceUpdate = some (input, succeeded) → input.status ≠ "completed"

section Generation

variable {ctx : OrchestrationContext} {rootId : String} {tables before next after : Tables}
  {event : Event} {events : List Event}

/-- A node status write leaves the row or updates it. -/
theorem update_node_status_cases {statusDetailsPresent : Bool} {input : NodeStatusInput}
    {row updated : NodeRow} {message : String}
    (h : updateNodeStatus statusDetailsPresent input (some row) = .ok (updated, message)) :
    (updated = row ∧ incomingStampIsSuperseded (input.executionId.getD "")
        (executionIdFromDetails row.statusDetails) = true) ∨
      updated = pushStatusUpdate input (input.executionId.isSome && statusDetailsPresent) row := by
  simp only [updateNodeStatus] at h
  split at h
  · next hfenced =>
      cases h
      exact Or.inl ⟨rfl, (Bool.and_eq_true_iff.1 hfenced).2⟩
  · split at h
    · cases h
      exact Or.inr rfl
    · cases h

/-- An update with an own stamp does not make the row fence. -/
theorem unfenced_push {input : NodeStatusInput} {row : NodeRow} {stamp : String}
    (hid : ':' ∉ ctx.instanceId.toList) (hstamp : input.executionId = some stamp)
    (hown : OwnStamp ctx stamp) (h : Unfenced ctx row) (writeDetails : Bool) :
    Unfenced ctx (pushStatusUpdate input writeDetails row) := by
  intro executionId hle
  cases writeDetails with
  | false => exact h executionId hle
  | true =>
      rw [execution_id_push_status_update, hstamp]
      exact own_stamp_not_newer hid hown hle

/-- Events of the generation that complete no instance leave the tables unfinished. -/
theorem effect_unfinished (hid : ':' ∉ ctx.instanceId.toList) (hevent : event.StampedBy ctx)
    (hnothing : event.CompletesNothing) (h : Unfinished ctx before)
    (heffect : Effect rootId before event next) : Unfinished ctx next := by
  cases heffect with
  | nodeRow hupdate _ _ hrun =>
      refine ⟨h.status, ?_⟩
      obtain ⟨stamp, hstamp, hown⟩ := hevent.2 _ _ hupdate
      rcases update_node_status_cases hrun with ⟨rfl, -⟩ | rfl
      · exact h.unfenced
      · exact unfenced_push hid hstamp hown h.unfenced _
  | instanceRow now hupdate =>
      refine ⟨?_, h.unfenced⟩
      have hother := hnothing _ _ hupdate
      show (updateInstanceStatus _ now before.instanceRow).status ≠ "completed"
      unfold updateInstanceStatus
      split_ifs
      · exact hother
      · exact h.status
  | failed | unrelated => exact h

/-- A cancellation leaves the tables unfinished. -/
theorem cancel_unfinished (now : Int) (h : Unfinished ctx before) :
    Unfinished ctx { before with
      instanceRow := Instances.cancel before.instanceRow.id now before.instanceRow } :=
  ⟨fun hcompleted => h.status ((cancel_row _ now _).2 hcompleted), h.unfenced⟩

/-- Events without node status writes leave the root's row. -/
theorem effect_stored {value : String} (hnode : event.nodeUpdate = none) (h : Stored value before)
    (heffect : Effect rootId before event next) : Stored value next := by
  cases heffect with
  | nodeRow hupdate =>
      rw [hnode] at hupdate
      cases hupdate
  | instanceRow | failed | unrelated => exact h

/-- The completion of the root is stored if it succeeds. -/
theorem completion_stored {graph : FunctionGraph} {value : String}
    (hroot : graph.rootNodeId = rootId) (hinstance : graph.instanceId = before.instanceRow.id)
    (hsucceeds : ∀ input succeeded,
      (statusEvent ctx graph graph.rootNodeId "completed" (some value)).nodeUpdate =
        some (input, succeeded) → succeeded = true)
    (h : Unfinished ctx before)
    (heffect : Effect rootId before
      (statusEvent ctx graph graph.rootNodeId "completed" (some value)) next) :
    Stored value next := by
  have hupdate := node_update_of_input (node_status_input_of_serialize graph.rootNodeId
    graph.instanceId "completed" (some value) ctx.stamp) ctx.site (ctx.world.activity ctx.path
      updateNodeStatusName (serializeNodeStatusInput graph.rootNodeId graph.instanceId "completed"
        (some value) ctx.stamp) 0)
  have hsucceeded := hsucceeds _ _ hupdate
  rw [hsucceeded] at hupdate
  cases heffect with
  | @nodeRow input _ _ row _ hwrite _ _ hrun =>
      obtain rfl := (Prod.mk.inj (Option.some.inj (hupdate.symm.trans hwrite))).1
      rcases update_node_status_cases hrun with ⟨-, hfenced⟩ | rfl
      · have hnot := h.unfenced ctx.executionId (Nat.le_refl _)
        exact absurd (hfenced.symm.trans hnot) (by decide)
      · exact ⟨rfl, rfl⟩
  | instanceRow now hother =>
      have hnone : (statusEvent ctx graph graph.rootNodeId "completed" (some value)).instanceUpdate =
          none := other_activity_updates_nothing (by decide) _ _ _
      rw [hnone] at hother
      cases hother
  | failed hfailed =>
      rcases hfailed with ⟨input, hfailed⟩ | ⟨input, hfailed⟩
      · exact absurd (Prod.mk.inj (Option.some.inj (hupdate.symm.trans hfailed))).2 (by decide)
      · have hnone : (statusEvent ctx graph graph.rootNodeId "completed"
            (some value)).instanceUpdate = none := other_activity_updates_nothing (by decide) _ _ _
        rw [hnone] at hfailed
        cases hfailed
  | unrelated hnode => exact absurd ⟨_, _, hupdate, hroot, hinstance⟩ hnode

/-- A run takes its first event at some moment. -/
theorem TableRun.first {P Q : Tables → Prop} (h : TableRun rootId tables (event :: events) after)
    (hcancel : ∀ {before : Tables} (now : Int), P before → P { before with
      instanceRow := Instances.cancel before.instanceRow.id now before.instanceRow })
    (heffect : ∀ {before next}, P before → Effect rootId before event next → Q next)
    (hstart : P tables) : ∃ middle, Q middle ∧ TableRun rootId middle events after := by
  generalize hevents : event :: events = all at h
  induction h with
  | done => cases hevents
  | event hfirst hrest _ =>
      cases hevents
      exact ⟨_, heffect hstart hfirst, hrest⟩
  | cancelled now _ ih => exact ih (hcancel now hstart) hevents

/-- Events of the generation that complete no instance leave the tables unfinished. -/
theorem events_unfinished (hid : ':' ∉ ctx.instanceId.toList)
    (h : TableRun rootId tables events after) (hstart : Unfinished ctx tables)
    (hevents : ∀ event ∈ events, event.StampedBy ctx ∧ event.CompletesNothing) :
    Unfinished ctx after :=
  h.preserves (fun event hmem _ _ hbefore heffect =>
    effect_unfinished hid (hevents event hmem).1 (hevents event hmem).2 hbefore heffect)
    (fun now hbefore => cancel_unfinished now hbefore) hstart

/-- An event that completes an instance is a terminal update of its log. -/
theorem completes_nothing_of_terminal {log : List Event}
    (h : ∀ update ∈ terminalUpdates log, update.1.status ≠ "completed") :
    ∀ event ∈ log, event.CompletesNothing := by
  intro event hevent input succeeded hupdate hcompleted
  refine h (input, succeeded) (List.mem_filter.2 ⟨?_, ?_⟩) hcompleted
  · exact List.mem_filterMap.2 ⟨event, hevent, hupdate⟩
  · rw [hcompleted]
    decide

/-- A prefix of a list in two parts ends in the first or goes on in the second. -/
theorem prefix_append_cases {first second events : List Event} (h : events <+: first ++ second) :
    events <+: first ∨ ∃ more, events = first ++ more ∧ more <+: second := by
  obtain ⟨rest, heq⟩ := h
  rcases List.append_eq_append_iff.1 heq with ⟨between, hfirst, -⟩ | ⟨more, hevents, hsecond⟩
  · exact Or.inl ⟨between, hfirst.symm⟩
  · exact Or.inr ⟨more, hevents, rest, hsecond.symm⟩

/-- The log of a generation that returns a value: its last node status write is the completion of
the root, and only the terminal write follows. -/
theorem completed_generation_log {fuel : Nat} {input : FunctionInput} {graph : FunctionGraph}
    {loads : List Event} {value : String} {last : Machine} (hloads : GraphLoad ctx input loads)
    (hrun : (engine fuel).node ctx graph graph.rootNodeId (rootExecutionContext input graph)
      ⟨∅, loads ++ [instanceStatusEvent ctx input.instanceId "running" ctx.executionId]⟩ =
        (.ok value, last)) :
    ∃ earlier, last.log = earlier ++ [statusEvent ctx graph graph.rootNodeId "completed" (some value),
        .finished ctx.site graph.rootNodeId (.ok value)] ∧
      ∀ event ∈ earlier, event.CompletesNothing := by
  cases fuel with
  | zero => cases hrun
  | succ fuel =>
      have hnone := unfinished_no_terminal hloads hrun
      have hnode := @node_runs (engine fuel) (engine_typed fuel) ctx graph graph.rootNodeId
        (rootExecutionContext input graph)
        ⟨∅, loads ++ [instanceStatusEvent ctx input.instanceId "running" ctx.executionId]⟩
      change NodeRun (engine fuel) ctx graph graph.rootNodeId (rootExecutionContext input graph) _
        ((engine (fuel + 1)).node ctx graph graph.rootNodeId (rootExecutionContext input graph)
          _).1 ((engine (fuel + 1)).node ctx graph graph.rootNodeId
            (rootExecutionContext input graph) _).2 at hnode
      rw [hrun] at hnode
      cases hnode with
      | child _ _ hroot => exact absurd rfl hroot
      | @returned node _ inner _ _ hinner =>
          refine ⟨inner.log, rfl, completes_nothing_of_terminal ?_⟩
          change terminalUpdates (inner.log ++ [_, _]) = [] at hnone
          rw [terminal_updates_append, List.append_eq_nil_iff] at hnone
          rw [hnone.1]
          exact List.forall_mem_nil _

/-- Arrivals of a generation that completes the root: before the completion the tables are
unfinished, after it the result is stored. -/
theorem completion_tables {graph : FunctionGraph} {value : String} {earlier last : List Event}
    (hid : ':' ∉ ctx.instanceId.toList) (hroot : graph.rootNodeId = rootId)
    (hinstance : graph.instanceId = tables.instanceRow.id)
    (hsucceeds : ∀ input succeeded,
      (statusEvent ctx graph graph.rootNodeId "completed" (some value)).nodeUpdate =
        some (input, succeeded) → succeeded = true)
    (hearlier : ∀ event ∈ earlier, event.site.instanceId = ctx.instanceId →
      event.StampedBy ctx ∧ event.CompletesNothing)
    (hlast : ∀ event ∈ last, event.nodeUpdate = none)
    (hstart : Unfinished ctx tables) (htables : TableRun rootId tables events after)
    (hfront : events <+: (earlier ++
      statusEvent ctx graph graph.rootNodeId "completed" (some value) :: last).filter
        fun event => event.site.instanceId = ctx.instanceId) :
    Unfinished ctx after ∨ Stored value after := by
  have hbefore : ∀ {part middle}, TableRun rootId tables part middle →
      part <+: earlier.filter (fun event => event.site.instanceId = ctx.instanceId) →
      Unfinished ctx middle := by
    intro part middle hpart hsub
    refine events_unfinished hid hpart hstart fun event hevent => ?_
    obtain ⟨hmem, hsite⟩ := List.mem_filter.1 (hsub.subset hevent)
    exact hearlier event hmem (by simpa using hsite)
  have hown : (statusEvent ctx graph graph.rootNodeId "completed" (some value)).site.instanceId =
      ctx.instanceId := rfl
  rw [List.filter_append, List.filter_cons_of_pos (by simpa using hown)] at hfront
  rcases prefix_append_cases hfront with hsub | ⟨more, rfl, hmore⟩
  · exact Or.inl (hbefore htables hsub)
  · obtain ⟨middle, hfirst, hsecond⟩ := htables.split
    have hmiddle := hbefore hfirst (List.prefix_refl _)
    cases more with
    | nil =>
        refine Or.inl (events_unfinished hid hsecond hmiddle ?_)
        exact List.forall_mem_nil _
    | cons event more =>
        obtain ⟨rest, heq⟩ := hmore
        obtain ⟨rfl, hrest⟩ := List.cons.inj heq
        -- the completion reaches the tables: it is stored, and what follows writes no node status
        obtain ⟨completed, hstored, hthird⟩ := hsecond.first
          (P := fun t => Unfinished ctx t ∧ t.instanceRow.id = tables.instanceRow.id)
          (fun now hp => ⟨cancel_unfinished now hp.1, (cancel_row _ now _).1.trans hp.2⟩)
          (fun hp heffect =>
            completion_stored hroot (hinstance.trans hp.2.symm) hsucceeds hp.1 heffect)
          ⟨hmiddle, hfirst.instance_id⟩
        refine Or.inr (hthird.preserves (fun event hevent _ _ hbefore heffect =>
          effect_stored ?_ hbefore heffect) (fun _ hbefore => hbefore) hstored)
        have hafter : event ∈ more ++ rest := List.mem_append_left rest hevent
        rw [show more ++ rest = _ from hrest] at hafter
        exact hlast event (List.mem_filter.1 hafter).1

/-- A generation leaves the tables unfinished, or it returns a value and has stored it. -/
theorem generation_tables {fuel : Nat} {inputJson : String} {input : FunctionInput} {log : List Event}
    {ended : Ended} (hid : ':' ∉ ctx.instanceId.toList)
    (hinput : FunctionInput.ofJson inputJson = .ok input)
    (hgraph : ∀ graph, Loads (engine fuel) ctx inputJson graph →
      graph.instanceId = input.instanceId ∧ graph.rootNodeId = rootId)
    (hrun : execute (engine fuel) ctx inputJson = (log, ended))
    (hrow : tables.instanceRow.id = input.instanceId)
    (hwritten : ∀ event ∈ log, ∀ input succeeded, event.nodeUpdate = some (input, succeeded) →
      input.nodeId = rootId → input.instanceId = tables.instanceRow.id →
      input.status = "completed" → succeeded = true)
    (hstart : Unfinished ctx tables) (htables : TableRun rootId tables events after)
    (hfront : events <+: log.filter fun event => event.site.instanceId = ctx.instanceId) :
    Unfinished ctx after ∨ ∃ value, ended = .returned (.ok value) ∧ Stored value after := by
  have hnothing : (∀ event ∈ log, event.CompletesNothing) → Unfinished ctx after := by
    intro hlog
    refine events_unfinished hid htables hstart fun event hevent => ?_
    obtain ⟨hmem, hsite⟩ := List.mem_filter.1 (hfront.subset hevent)
    have hlogged := generation_events hinput event (by rw [hrun]; exact hmem)
    exact ⟨hlogged.stamped (by simpa using hsite), hlog event hmem⟩
  have hempty : ∀ {log : List Event}, terminalUpdates log = [] →
      ∀ event ∈ log, event.CompletesNothing := by
    intro log hnone
    refine completes_nothing_of_terminal ?_
    rw [hnone]
    exact List.forall_mem_nil _
  have hload : ∀ {loads : List Event}, (∀ event ∈ loads, event.IsLoad ctx) →
      terminalUpdates loads = [] :=
    fun hloads => terminal_updates_eq_nil fun event hevent =>
      load_updates_nothing (hloads event hevent)
  have hfailed : ∀ {earlier : List Event} {error : String}, terminalUpdates earlier = [] →
      ∀ event ∈ earlier ++ finalizeEvents ctx input.instanceId "failed" 0 maxStatusFinalizeAttempts,
        event.CompletesNothing := by
    intro earlier error hnone
    have hfinal := @finalized_after ctx input.instanceId (.error error) earlier hnone
    refine completes_nothing_of_terminal fun update hupdate => ?_
    rw [hfinal.status update hupdate]
    show "failed" ≠ "completed"
    decide
  have hruns := @execute_runs (engine fuel) ctx input inputJson hinput
  rw [hrun] at hruns
  cases hruns with
  | waiting hwaits =>
      exact Or.inl (hnothing (hempty (hload fun event hevent => (hwaits event hevent).1)))
  | @refused waits error hwaits =>
      have hloads := hload fun event hevent => (hwaits event hevent).1
      exact Or.inl (hnothing (@hfailed waits error hloads))
  | unreadable hloads => exact Or.inl (hnothing (hempty (hload hloads.is_load)))
  | stopped hloads _ _ hnode =>
      exact Or.inl (hnothing (hempty (unfinished_no_terminal hloads hnode)))
  | @executed loads json graph result outcome last hloads hreceived hread hnode houtcome =>
      cases outcome with
      | error error =>
          exact Or.inl (hnothing (@hfailed last.log error (unfinished_no_terminal hloads hnode)))
      | ok value =>
          have hresult : result = .ok value := by
            cases result with
            | ok found =>
                cases houtcome
                rfl
            | error stop =>
                cases stop with
                | raised error => cases error <;> cases houtcome
                | continuedAsNew | unresolved => cases houtcome
          subst hresult
          obtain ⟨earlier, hlast, hearlier⟩ := completed_generation_log hloads hnode
          obtain ⟨hinstance, hroot⟩ := hgraph graph (.received hinput hreceived hread)
          have hlog : last.log.append (finalizeEvents ctx input.instanceId
              (terminalStatus (.ok value)) 0 maxStatusFinalizeAttempts) =
              earlier ++ statusEvent ctx graph graph.rootNodeId "completed" (some value) ::
                .finished ctx.site graph.rootNodeId (.ok value) ::
                  finalizeEvents ctx input.instanceId "completed" 0 maxStatusFinalizeAttempts := by
            rw [hlast]
            exact List.append_assoc _ _ _
          rw [hlog] at hfront hwritten hrun
          refine (completion_tables hid hroot (hinstance.trans hrow.symm) ?_ ?_ ?_ hstart htables
            hfront).imp_right fun hstored => ⟨value, rfl, hstored⟩
          · intro written succeeded hupdate
            have hinput := node_update_of_input (node_status_input_of_serialize graph.rootNodeId
              graph.instanceId "completed" (some value) ctx.stamp) ctx.site
              (ctx.world.activity ctx.path updateNodeStatusName (serializeNodeStatusInput
                graph.rootNodeId graph.instanceId "completed" (some value) ctx.stamp) 0)
            obtain ⟨rfl, -⟩ := Prod.mk.inj (Option.some.inj (hinput.symm.trans hupdate))
            exact hwritten _ (List.mem_append_right _ (.head _)) _ _ hupdate hroot
              (hinstance.trans hrow.symm) rfl
          · intro event hevent hsite
            refine ⟨?_, hearlier event hevent⟩
            refine (@generation_events fuel _ _ _ hinput event ?_).stamped hsite
            rw [hrun]
            exact List.mem_append_left _ hevent
          · intro event hevent
            rcases List.mem_cons.1 hevent with rfl | hfinal
            · rfl
            · rcases finalize_events_cases hfinal with ⟨attempt, rfl⟩ | ⟨_, rfl⟩
              · exact other_activity_writes_no_node (by decide) _ _ _
              · rfl

end Generation

/-! ## Whole runs -/

section Run

variable {fuel : Nat} {ctx : OrchestrationContext} {rootId inputJson next : String}
  {input : FunctionInput} {log : List Event} {outcome : Option (Except String String)}

/-- The graphs that the instance can get are those of its row: they name the instance and its root
node. -/
def LoadsOwnGraph (fuel : Nat) (ctx : OrchestrationContext) (inputJson instanceId rootId : String) :
    Prop :=
  ∀ graph, Loads (engine fuel) ctx inputJson graph →
    graph.instanceId = instanceId ∧ graph.rootNodeId = rootId

/-- The next generation is one of the same instance. -/
theorem own_graph_handed_over (hinput : FunctionInput.ofJson inputJson = .ok input)
    (hgraph : LoadsOwnGraph fuel ctx inputJson input.instanceId rootId)
    (hrun : execute (engine fuel) ctx inputJson = (log, .continuedAsNew next)) :
    ∃ input', FunctionInput.ofJson next = .ok input' ∧ input'.instanceId = input.instanceId ∧
      LoadsOwnGraph fuel { ctx with executionId := ctx.executionId + 1 } next input.instanceId
        rootId := by
  cases hands_over hinput hrun with
  | waiting hnext hnone =>
      exact ⟨_, hnext, rfl, fun graph hlater => hgraph graph (.waited hinput hnone hrun hlater)⟩
  | @looping json graph iteration hnext hreceived hread =>
      obtain ⟨hinstance, hroot⟩ := hgraph graph (.received hinput hreceived hread)
      refine ⟨_, hnext, hinstance, fun loaded hlater => ?_⟩
      rw [loads_carried hnext rfl hlater]
      exact ⟨hinstance, hroot⟩

/-- A later generation fences no less. -/
theorem Unfinished.handed_over {tables : Tables} (h : Unfinished ctx tables) :
    Unfinished { ctx with executionId := ctx.executionId + 1 } tables :=
  ⟨h.status, fun executionId hle => h.unfenced executionId (Nat.le_of_succ_le hle)⟩

/-- Only the root orchestration updates the instance, in any of its generations. -/
theorem run_instance_updates (generations : Nat)
    (hinput : FunctionInput.ofJson inputJson = .ok input) :
    ∀ event ∈ (runExecute (engine fuel) generations ctx inputJson).1,
      event.site.instanceId ≠ ctx.instanceId → event.instanceUpdate = none := by
  induction generations generalizing ctx inputJson input with
  | zero => exact fun event hevent => absurd hevent List.not_mem_nil
  | succ generations ih =>
      intro event hevent hsite
      have hfirst := @generation_events fuel ctx inputJson input hinput event
      rcases hrun : execute (engine fuel) ctx inputJson with ⟨log, ended⟩
      rw [hrun] at hfirst
      rw [runExecute, hrun] at hevent
      cases ended with
      | returned | unresolved => exact (hfirst hevent).instanceUpdate hsite
      | continuedAsNew next =>
          rcases List.mem_append.1 hevent with hevent | hevent
          · exact (hfirst hevent).instanceUpdate hsite
          · cases hands_over hinput hrun with
            | waiting hnext => exact ih hnext event hevent hsite
            | looping hnext => exact ih hnext event hevent hsite

/-- Arrivals of the run's own events leave the tables unfinished, or the run returned a value and
they have stored it. -/
theorem run_tables (generations : Nat) {tables after : Tables} {events : List Event}
    (hid : ':' ∉ ctx.instanceId.toList) (hinput : FunctionInput.ofJson inputJson = .ok input)
    (hgraph : LoadsOwnGraph fuel ctx inputJson input.instanceId rootId)
    (hrun : runExecute (engine fuel) generations ctx inputJson = (log, outcome))
    (hrow : tables.instanceRow.id = input.instanceId)
    (hwritten : ∀ event ∈ log, ∀ input succeeded, event.nodeUpdate = some (input, succeeded) →
      input.nodeId = rootId → input.instanceId = tables.instanceRow.id →
      input.status = "completed" → succeeded = true)
    (hstart : Unfinished ctx tables) (htables : TableRun rootId tables events after)
    (hfront : events <+: log.filter fun event => event.site.instanceId = ctx.instanceId) :
    after.instanceRow.status ≠ "completed" ∨
      ∃ value, outcome = some (.ok value) ∧ Stored value after := by
  induction generations generalizing ctx inputJson input log tables events with
  | zero =>
      cases hrun
      obtain rfl := List.prefix_nil.1 hfront
      exact Or.inl (events_unfinished hid htables hstart (List.forall_mem_nil _)).status
  | succ generations ih =>
      rw [runExecute] at hrun
      rcases hexecute : execute (engine fuel) ctx inputJson with ⟨first, ended⟩
      rw [hexecute] at hrun
      cases ended with
      | returned result =>
          cases hrun
          rcases generation_tables hid hinput hgraph hexecute hrow hwritten hstart htables hfront
            with h | ⟨value, hended, hstored⟩
          · exact Or.inl h.status
          · cases hended
            exact Or.inr ⟨value, rfl, hstored⟩
      | unresolved =>
          cases hrun
          rcases generation_tables hid hinput hgraph hexecute hrow hwritten hstart htables hfront
            with h | ⟨value, hended, -⟩
          · exact Or.inl h.status
          · cases hended
      | continuedAsNew next =>
          cases hrun
          have hfirst : ∀ {part middle}, TableRun rootId tables part middle →
              part <+: first.filter (fun event => event.site.instanceId = ctx.instanceId) →
              Unfinished ctx middle := by
            intro part middle hpart hsub
            refine (generation_tables hid hinput hgraph hexecute hrow ?_ hstart hpart
              hsub).resolve_right ?_
            · exact fun event hevent => hwritten event (List.mem_append_left _ hevent)
            · intro h
              obtain ⟨value, hended, -⟩ := h
              cases hended
          rw [List.filter_append] at hfront
          rcases prefix_append_cases hfront with hsub | ⟨more, rfl, hmore⟩
          · exact Or.inl (hfirst htables hsub).status
          · obtain ⟨middle, hbefore, hlater⟩ := htables.split
            obtain ⟨input', hinput', hsame, hgraph'⟩ :=
              own_graph_handed_over hinput hgraph hexecute
            have hid' := hbefore.instance_id
            rw [← hsame] at hgraph'
            refine @ih { ctx with executionId := ctx.executionId + 1 } next input' _ middle more
              hid hinput' hgraph' (Prod.mk.eta).symm ((hid'.trans hrow).trans hsame.symm) ?_
              (hfirst hbefore (List.prefix_refl _)).handed_over hlater hmore
            rw [hid']
            exact fun event hevent => hwritten event (List.mem_append_right _ hevent)

end Run

/-! ## A lost result -/

/-- How an event reaches the tables when a reported error has had no effect. -/
def Tables.receive (rootId : String) (tables : Tables) (event : Event) : Option Tables :=
  match event.nodeUpdate, event.instanceUpdate with
  | some (input, true), _ =>
      if input.nodeId = rootId ∧ input.instanceId = tables.instanceRow.id then
        match updateNodeStatus true input (some tables.rootRow) with
        | .ok (row, _) => some { tables with rootRow := row }
        | .error _ => none
      else none
  | some (_, false), _ => some tables
  | none, some (input, true) =>
      some { tables with instanceRow := updateInstanceStatus input 0 tables.instanceRow }
  | none, some (_, false) => some tables
  | none, none => some tables

theorem effect_of_receive {rootId : String} {tables after : Tables} {event : Event}
    (h : tables.receive rootId event = some after) : Effect rootId tables event after := by
  unfold Tables.receive at h
  rcases hnode : event.nodeUpdate with _ | ⟨input, _ | _⟩
  · rw [hnode] at h
    have hunrelated : ¬ event.WritesRoot rootId tables.instanceRow.id := by
      intro hwrites
      obtain ⟨input, succeeded, hupdate, -⟩ := hwrites
      rw [hnode] at hupdate
      cases hupdate
    rcases hinstance : event.instanceUpdate with _ | ⟨input, _ | _⟩ <;> rw [hinstance] at h <;>
      cases h
    · exact .unrelated hunrelated hinstance
    · exact .failed (Or.inr ⟨_, hinstance⟩)
    · exact .instanceRow 0 hinstance
  · rw [hnode] at h
    cases h
    exact .failed (Or.inl ⟨_, hnode⟩)
  · rw [hnode] at h
    dsimp only at h
    split_ifs at h with hroot
    cases hrun : updateNodeStatus true input (some tables.rootRow) with
    | error message =>
        rw [hrun] at h
        cases h
    | ok written =>
        obtain ⟨row, message⟩ := written
        rw [hrun] at h
        cases h
        exact .nodeRow hnode hroot.1 hroot.2 hrun

/-- Events that reach the tables in their order. -/
theorem table_run_of_receive {rootId : String} {tables after : Tables} {events : List Event}
    (h : events.foldlM (Tables.receive rootId) tables = some after) :
    TableRun rootId tables events after := by
  induction events generalizing tables with
  | nil =>
      cases h
      exact .done _
  | cons event events ih =>
      rw [List.foldlM_cons] at h
      obtain ⟨middle, hfirst, hrest⟩ := Option.bind_eq_some_iff.1 h
      exact .event (effect_of_receive hfirst) (ih hrest)

/-- An instance whose only node sleeps for no time. -/
def shortSleep : FunctionGraph where
  instanceId := "aaaaaaaa"
  rootNodeId := "r"
  nodes := (∅ : Std.ExtTreeMap String FunctionNode).insert "r"
    ⟨"r", "SLEEP", some "0", none, none, none, "alice", none⟩
  sqlQuotingVersion := .v1

/-- An environment in which the node status activity answers as given. -/
def nodeStatusWorld (answer : Except String String) : World :=
  { World.quiet with
    activity := fun _ name _ _ => if name = updateNodeStatusName then answer else .ok "null" }

/-- A generation of the instance in that environment. -/
def sleepGeneration (answer : Except String String) : OrchestrationContext :=
  ⟨nodeStatusWorld answer, "aaaaaaaa", 2, []⟩

/-- What it logs. -/
def shortSleepLog (ctx : OrchestrationContext) : List Event :=
  [instanceStatusEvent ctx "aaaaaaaa" "running" 2, .visited ctx.site "r",
    statusEvent ctx shortSleep "r" "running" none, .timer ctx.site 0,
    statusEvent ctx shortSleep "r" "completed" (some (sleepResult 0)),
    .finished ctx.site "r" (.ok (sleepResult 0)),
    instanceStatusEvent ctx "aaaaaaaa" "completed" 0]

/-- The rows before the instance runs. -/
def pendingTables : Tables := ⟨⟨"aaaaaaaa", "pending", none, 0⟩, ⟨"pending", none, none⟩⟩

/-- The instance returns its result whatever becomes of its status writes. -/
theorem sleep_run {answer : Except String String}
    (h : answer = .ok "null" ∨ answer = .error "connection reset") :
    runExecute (engine 1) 1 (sleepGeneration answer) (carriedInput shortSleep.toJson).toJson =
      (shortSleepLog (sleepGeneration answer), some (.ok (sleepResult 0))) := by
  have hinput := function_input_of_json_to_json (carried_input_fits shortSleep.toJson)
  have hexecute : execute (engine 1) (sleepGeneration answer)
      (carriedInput shortSleep.toJson).toJson =
      (shortSleepLog (sleepGeneration answer), .returned (.ok (sleepResult 0))) := by
    rw [execute, execute_carried hinput rfl (graph_of_json_to_json _)]
    rcases h with rfl | rfl <;> decide +kernel
  rw [runExecute, hexecute]

/-- All events of a run reach the tables. -/
theorem arrives_all (instanceId : String) (log : List Event) : Arrives instanceId log log :=
  ⟨fun _ h => h, List.prefix_refl _⟩

end PgDurable.Orchestration
