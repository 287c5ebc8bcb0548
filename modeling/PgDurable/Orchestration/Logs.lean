import PgDurable.Orchestration.Handlers

/-!
# What a run logs

A property of events that holds of everything a visit logs by itself, and that passes from a step
below a visit and from a child of it to the visit, holds of everything that executing a node logs,
through any nesting of children and any number of their generations: `engine_logs`.
-/

namespace PgDurable.Orchestration

/-- What a visit logs by itself. -/
inductive Event.IsOwn (ctx : OrchestrationContext) : Event → Prop
  | visited (nodeId : String) : IsOwn ctx (.visited ctx.site nodeId)
  | quiet {event : Event} (h : event.IsQuiet ctx) : IsOwn ctx event
  | status (nodeId instanceId status : String) (result : Option String)
      (outcome : Except String String) :
      IsOwn ctx (.activity ctx.site updateNodeStatusName
        (serializeNodeStatusInput nodeId instanceId status result ctx.stamp) outcome)
  | broke (value : String) : IsOwn ctx (.broke ctx.site value)
  | decided (index : Nat) : IsOwn ctx (.decided ctx.site index)
  | finished (nodeId : String) (outcome : Except NodeError String) :
      IsOwn ctx (.finished ctx.site nodeId outcome)

/-- A property of events at a visit that passes upwards. -/
structure LogInvariant (P : OrchestrationContext → Event → Prop) : Prop where
  own : ∀ {ctx event}, event.IsOwn ctx → P ctx event
  down : ∀ {ctx step event}, P (OrchestrationContext.down ctx step) event → P ctx event
  child : ∀ {ctx nodeId steps executionId event},
    P { childContext ctx nodeId (ctx.path ++ steps) with executionId := executionId } event →
    P ctx event

/-- A property of all events except for activities that no node schedules. -/
theorem LogInvariant.of_activities {P : Event → Prop}
    (hactivity : ∀ site input outcome,
      ∀ name ∈ [updateNodeStatusName, executeSqlName, executeHttpName, executeMultipartName],
        P (.activity site name input outcome))
    (hother : ∀ event, (∀ site name input outcome, event ≠ .activity site name input outcome) →
      P event) : LogInvariant fun _ => P where
  own := by
    intro ctx event h
    cases h with
    | visited | broke | decided | finished => exact hother _ fun _ _ _ _ h => by cases h
    | status => exact hactivity _ _ _ _ List.mem_cons_self
    | quiet h =>
        rcases h with (⟨name, input, outcome, hname, rfl⟩ | ⟨_, rfl⟩) | ⟨_, _, rfl⟩ |
          ⟨_, _, _, _, _, _, rfl⟩
        · exact hactivity _ _ _ _ (List.mem_cons_of_mem _ hname)
        · exact hother _ fun _ _ _ _ h => by cases h
        · exact hother _ fun _ _ _ _ h => by cases h
        · exact hactivity _ _ _ _ List.mem_cons_self
  down := id
  child := id

/-- A property of what a visit logs apart from the visit itself, given a property of what the visits
below it log. -/
structure VisitInvariant (ctx : OrchestrationContext) (P : Event → Prop)
    (Q : OrchestrationContext → Event → Prop) : Prop where
  own : ∀ {event}, event.IsOwn ctx → (∀ nodeId, event ≠ .visited ctx.site nodeId) → P event
  down : ∀ {step event}, Q (ctx.down step) event → P event
  child : ∀ {nodeId steps executionId event},
    Q { childContext ctx nodeId (ctx.path ++ steps) with executionId := executionId } event →
    P event

/-- A property that passes upwards is one of each visit. -/
theorem LogInvariant.visit {P : OrchestrationContext → Event → Prop} (hP : LogInvariant P)
    (ctx : OrchestrationContext) : VisitInvariant ctx (P ctx) P :=
  ⟨fun h _ => hP.own h, hP.down, hP.child⟩

/-- The log grows by events with the property. -/
def Logs (P : Event → Prop) (before after : Machine) : Prop :=
  ∃ events, after.log = before.log ++ events ∧ ∀ event ∈ events, P event

section Logs

variable {P : Event → Prop} {first second third : Machine}

theorem Logs.refl (P : Event → Prop) (machine : Machine) : Logs P machine machine :=
  ⟨[], by simp, nofun⟩

theorem Logs.trans (h : Logs P first second) (h' : Logs P second third) : Logs P first third := by
  obtain ⟨events, hlog, hevents⟩ := h
  obtain ⟨more, hmore, hmoreEvents⟩ := h'
  refine ⟨events ++ more, by rw [hmore, hlog, List.append_assoc], ?_⟩
  intro event hevent
  rcases List.mem_append.1 hevent with hevent | hevent
  · exact hevents event hevent
  · exact hmoreEvents event hevent

theorem Logs.mono {Q : Event → Prop} (h : Logs P first second) (himp : ∀ event, P event → Q event) :
    Logs Q first second := by
  obtain ⟨events, hlog, hevents⟩ := h
  exact ⟨events, hlog, fun event hevent => himp event (hevents event hevent)⟩

/-- Logging events with the property. -/
theorem logs_logged {machine : Machine} {events : List Event} (h : ∀ event ∈ events, P event) :
    Logs P machine (machine.logged events) :=
  ⟨events, rfl, h⟩

end Logs

/-- The interpreter logs events with the property. -/
structure EngineLogs (P : OrchestrationContext → Event → Prop) (engine : Engine) : Prop where
  node : ∀ ctx graph nodeId execCtx machine,
    Logs (P ctx) machine (engine.node ctx graph nodeId execCtx machine).2
  subtree : ∀ {ctx input event}, event ∈ (engine.subtree ctx input).1 →
    ∃ executionId, P { ctx with executionId := executionId } event

section Runs

variable {ctx : OrchestrationContext} {P : Event → Prop}
  {Q : OrchestrationContext → Event → Prop} (hP : VisitInvariant ctx P Q) {engine : Engine}
  (hengine : EngineLogs Q engine) {graph : FunctionGraph} {node : FunctionNode} {nodeId : String}
  {execCtx : ExecutionContext}

include hP

theorem quiet_own {event : Event} (h : event.IsQuiet ctx) : P event := by
  refine hP.own (.quiet h) fun nodeId hvisit => ?_
  rcases h with (⟨_, _, _, _, rfl⟩ | ⟨_, rfl⟩) | ⟨_, _, rfl⟩ | ⟨_, _, _, _, _, _, rfl⟩ <;>
    cases hvisit

theorem quiet_logged {events : List Event} (h : ∀ event ∈ events, event.IsQuiet ctx) :
    ∀ event ∈ events, P event :=
  fun event hevent => quiet_own hP (h event hevent)

include hengine

/-- A scheduled child logs events with the property of its parent. -/
theorem child_logged {childId input : String} {steps : Path} {event : Event}
    (h : event ∈ (runChild engine (childContext ctx childId (ctx.path ++ steps)) input).1) :
    P event := by
  unfold runChild at h
  cases hfault : (childContext ctx childId (ctx.path ++ steps)).world.runtimeFault
      (childContext ctx childId (ctx.path ++ steps)).path
      (childContext ctx childId (ctx.path ++ steps)).instanceId with
  | some error =>
      rw [hfault] at h
      cases h
  | none =>
      rw [hfault] at h
      obtain ⟨executionId, hevent⟩ := hengine.subtree h
      exact hP.child hevent

/-- A step below the visit logs events with its property. -/
theorem step_logged {step : Step} {childId : String} {machine after : Machine}
    {outcome : Except Stop String}
    (h : engine.node (ctx.down step) graph childId execCtx machine = (outcome, after)) :
    Logs P machine after := by
  have hlogs := hengine.node (ctx.down step) graph childId execCtx machine
  rw [h] at hlogs
  exact hlogs.mono fun _ => hP.down

theorem sequence_logs {machine after : Machine} {outcome : Except Stop String}
    (hrun : SequenceRun engine ctx graph node execCtx machine outcome after) :
    Logs P machine after := by
  have hprelude : ∀ {step middle}, Prelude engine ctx graph node execCtx step machine middle →
      Logs P machine middle := by
    intro step middle h
    cases h with
    | nothing => exact Logs.refl _ _
    | returned _ _ hfirst => exact step_logged hP hengine hfirst
  cases hrun with
  | failed => exact Logs.refl _ _
  | stopped hfirst _ hlast => exact (hprelude hfirst).trans (step_logged hP hengine hlast)
  | returned hfirst _ hlast =>
      have hlogs := (hprelude hfirst).trans (step_logged hP hengine hlast)
      exact hlogs

/-- The branches of a join log events with the property of the join. -/
theorem join_events_logged (results : StringMap) (branchIds : List String) :
    ∀ event ∈ joinEvents engine ctx (branchChildren ctx graph execCtx results branchIds),
      P event := by
  intro event hevent
  rcases List.mem_append.1 hevent with hevent | hevent
  · obtain ⟨child, -, rfl⟩ := List.mem_map.1 hevent
    exact quiet_own hP (Or.inr (Or.inl ⟨_, _, rfl⟩))
  · obtain ⟨child, hchild, hlogged⟩ := List.mem_flatMap.1 hevent
    obtain ⟨index, hindex, rfl⟩ := List.mem_mapIdx.1 hchild
    exact child_logged hP hengine hlogged

theorem join_logs {machine after : Machine} {outcome : Except Stop String}
    (hrun : JoinRun engine ctx graph node execCtx machine outcome after) :
    Logs P machine after := by
  have hjoin := fun branchIds => @join_events_logged ctx P Q hP engine hengine graph execCtx
    machine.results branchIds
  cases hrun with
  | failed => exact Logs.refl _ _
  | stuck => exact logs_logged (hjoin _)
  | returned => exact ⟨_, rfl, hjoin _⟩
  | @raised replies error results _ _ =>
      refine ⟨_, rfl, fun event hevent => ?_⟩
      rcases List.mem_append.1 hevent with hevent | hevent
      · exact hjoin _ event hevent
      · unfold joinErrorEvents at hevent
        rcases List.mem_cons.1 hevent with rfl | hevent
        · exact hP.own (.decided _) (fun _ h => by cases h)
        · cases hloop : error.loopNodeId with
          | none =>
              rw [hloop] at hevent
              cases hevent
          | some loopNodeId =>
              rw [hloop] at hevent
              exact quiet_own hP (child_stamp_is_quiet ctx _ _ _ _ _ event hevent)

theorem race_logs {machine after : Machine} {outcome : Except Stop String}
    (hrun : RaceRun engine ctx graph node execCtx machine outcome after) :
    Logs P machine after := by
  have hbranches : ∀ {winner loser progress winnerId loserId event},
      event ∈ (branchRun engine ctx graph execCtx machine.results winner winnerId).1 ++
        (branchRun engine ctx graph execCtx machine.results loser loserId).1.take progress →
      P event := by
    intro winner loser progress winnerId loserId event hevent
    rcases List.mem_append.1 hevent with hevent | hevent
    · exact child_logged hP hengine hevent
    · exact child_logged hP hengine (List.mem_of_mem_take hevent)
  cases hrun with
  | failed => exact Logs.refl _ _
  | stuck _ _ _ hspawned =>
      refine logs_logged fun event hevent => ?_
      rcases List.mem_append.1 hevent with hevent | hevent
      · exact quiet_logged hP hspawned event hevent
      · exact hbranches hevent
  | replied _ _ _ hspawned hquiet =>
      refine ⟨_, rfl, fun event hevent => ?_⟩
      rcases List.mem_append.1 hevent with hevent | hevent
      · rcases List.mem_append.1 hevent with hevent | hevent
        · exact quiet_logged hP hspawned event hevent
        · exact hbranches hevent
      · rcases List.mem_cons.1 hevent with rfl | hevent
        · exact hP.own (.decided _) (fun _ h => by cases h)
        · exact quiet_logged hP hquiet event hevent

theorem loop_child_logs {machine after : Machine} {outcome : Except Stop String}
    (hrun : LoopChildRun engine ctx graph nodeId execCtx machine outcome after) :
    Logs P machine after := by
  have hchild : ∀ {event},
      event ∈ (loopChildRun engine ctx graph nodeId execCtx machine.results).1 → P event := by
    intro event hevent
    refine @child_logged ctx P Q hP engine hengine nodeId
      (buildSubtreeInput graph nodeId machine.results execCtx) [] event ?_
    rw [List.append_nil]
    exact hevent
  cases hrun with
  | failed _ hquiet => exact logs_logged (quiet_logged hP hquiet)
  | stuck hspawned =>
      refine logs_logged fun event hevent => ?_
      rcases List.mem_cons.1 hevent with rfl | hevent
      · exact quiet_own hP hspawned
      · exact hchild hevent
  | replied hspawned hquiet _ =>
      refine ⟨_, rfl, fun event hevent => ?_⟩
      rcases List.mem_cons.1 hevent with rfl | hevent
      · exact quiet_own hP hspawned
      · rcases List.mem_append.1 hevent with hevent | hevent
        · exact hchild hevent
        · exact quiet_logged hP hquiet event hevent

theorem body_logs {config : LoopConfig} {bodyId : String} {machine after : Machine}
    {result : BodyResult}
    (hrun : BodyRun engine ctx graph execCtx config bodyId machine result after) :
    Logs P machine after := by
  have hchild : ∀ {spawned event : Event}, spawned.IsQuiet ctx →
      event ∈ spawned :: (isolatedRun engine ctx graph execCtx bodyId machine.results).1 →
      P event := by
    intro spawned event hspawned hevent
    rcases List.mem_cons.1 hevent with rfl | hevent
    · exact quiet_own hP hspawned
    · exact child_logged hP hengine hevent
  cases hrun with
  | inline _ hrun => exact step_logged hP hengine hrun
  | stuck _ hspawned => exact logs_logged fun event hevent => hchild hspawned hevent
  | isolated _ hspawned _ => exact ⟨_, rfl, fun event hevent => hchild hspawned hevent⟩

theorem iteration_logs {config : LoopConfig} {bodyId : String} {machine after : Machine}
    {outcome : Except Stop (Option String)}
    (hrun : IterationRun engine ctx graph node execCtx config bodyId machine outcome after) :
    Logs P machine after := by
  cases hrun with
  | stopped hbody | consumed hbody | unconditional hbody => exact body_logs hP hengine hbody
  | broke hbody =>
      have hlogs := body_logs hP hengine hbody
      exact hlogs
  | conditional hbody _ hrun _ =>
      have hlogs := (body_logs hP hengine hbody).trans (step_logged hP hengine hrun)
      exact hlogs

theorem loop_logs {machine after : Machine} {outcome : Except Stop String}
    (hrun : LoopRun engine ctx graph node nodeId execCtx machine outcome after) :
    Logs P machine after := by
  cases hrun with
  | failed => exact Logs.refl _ _
  | stopped _ _ hiteration | ended _ _ hiteration | exhausted _ _ hiteration =>
      exact iteration_logs hP hengine hiteration
  | continued _ _ hiteration _ hquiet =>
      exact (iteration_logs hP hengine hiteration).trans (logs_logged (quiet_logged hP hquiet))

omit hengine in
theorem leaf_logs {machine after : Machine} {outcome : Except Stop String}
    (hrun : LeafRun ctx node machine outcome after) : Logs P machine after := by
  have heffects : ∀ {events : List Event}, (∀ event ∈ events, event.IsEffect ctx.site) →
      ∀ event ∈ events, P event :=
    fun h event hevent => quiet_own hP (Or.inl (h event hevent))
  cases hrun with
  | failed | stuck => exact Logs.refl _ _
  | refused h | unstored _ h => exact logs_logged (heffects h)
  | stored _ h => exact ⟨_, rfl, heffects h⟩
  | broke =>
      refine logs_logged fun event hevent => ?_
      rw [List.mem_singleton.1 hevent]
      exact hP.own (.broke _) fun _ h => by cases h

theorem inner_logs {machine after : Machine} {outcome : Except Stop String}
    (hrun : InnerRun engine ctx graph node nodeId execCtx machine outcome after) :
    Logs P machine after := by
  cases hrun with
  | leaf hrun => exact leaf_logs hP hrun
  | sequence _ hrun => exact sequence_logs hP hengine hrun
  | join _ hrun => exact join_logs hP hengine hrun
  | race _ hrun => exact race_logs hP hengine hrun
  | loop _ hrun => exact loop_logs hP hengine hrun

/-- Executing a node logs its visit first, and then events with the property. -/
theorem visit_logs {machine after : Machine} {outcome : Except Stop String}
    (hnode : graph.nodes[nodeId]? = some node)
    (hrun : NodeRun engine ctx graph nodeId execCtx machine outcome after) :
    ∃ events, after.log = machine.log ++ .visited ctx.site nodeId :: events ∧
      ∀ event ∈ events, P event := by
  have hvisit : ∀ {after : Machine}, Logs P (machine.logged [.visited ctx.site nodeId]) after →
      ∃ events, after.log = machine.log ++ .visited ctx.site nodeId :: events ∧
        ∀ event ∈ events, P event := by
    rintro after ⟨events, hlog, hevents⟩
    exact ⟨events, by rw [hlog, logged_log, List.append_assoc, List.singleton_append], hevents⟩
  have hstatus : ∀ status result, P (statusEvent ctx graph nodeId status result) :=
    fun status result => hP.own (.status _ _ _ _ _) fun _ h => by cases h
  have hstart : Logs P (machine.logged [.visited ctx.site nodeId]) (machine.logged
      [.visited ctx.site nodeId, statusEvent ctx graph nodeId "running" none]) := by
    refine ⟨[statusEvent ctx graph nodeId "running" none], ?_, ?_⟩
    · rw [logged_log, logged_log, List.append_assoc, List.singleton_append]
    · exact List.forall_mem_singleton.2 (hstatus _ _)
  have hend : ∀ (after : Machine) status result outcome, Logs P after (after.logged
      [statusEvent ctx graph nodeId status result, .finished ctx.site nodeId outcome]) := by
    intro after status result outcome
    refine logs_logged fun event hevent => ?_
    rcases List.mem_cons.1 hevent with rfl | hevent
    · exact hstatus _ _
    · rw [List.mem_singleton.1 hevent]
      exact hP.own (.finished _ _) fun _ h => by cases h
  cases hrun with
  | missing hmissing => rw [hmissing] at hnode; cases hnode
  | child _ _ _ hrun => exact hvisit (loop_child_logs hP hengine hrun)
  | returned _ _ hrun =>
      exact hvisit ((hstart.trans (inner_logs hP hengine hrun)).trans (hend _ _ _ _))
  | raised _ _ hrun =>
      exact hvisit ((hstart.trans (inner_logs hP hengine hrun)).trans (hend _ _ _ _))
  | stopped _ _ _ hrun => exact hvisit (hstart.trans (inner_logs hP hengine hrun))

end Runs

section Nodes

variable {P : OrchestrationContext → Event → Prop} (hP : LogInvariant P) {engine : Engine}
  (hengine : EngineLogs P engine) {ctx : OrchestrationContext} {graph : FunctionGraph}
  {nodeId : String} {execCtx : ExecutionContext}

include hP hengine

theorem node_logs {machine after : Machine} {outcome : Except Stop String}
    (hrun : NodeRun engine ctx graph nodeId execCtx machine outcome after) :
    Logs (P ctx) machine after := by
  cases hnode : graph.nodes[nodeId]? with
  | none =>
      cases hrun with
      | missing => exact Logs.refl _ _
      | child hother | returned hother | raised hother | stopped hother =>
          rw [hnode] at hother
          cases hother
  | some node =>
      obtain ⟨events, hlog, hevents⟩ := visit_logs (hP.visit ctx) hengine hnode hrun
      exact ⟨_, hlog, List.forall_mem_cons.2 ⟨hP.own (.visited _), hevents⟩⟩

/-- A generation of a child, and all that follow it, log events with the property. -/
theorem run_subtree_logged {input : String} {event : Event}
    (h : event ∈ (runSubtree engine ctx input).1) :
    ∃ executionId, P { ctx with executionId := executionId } event := by
  have hgeneration : ∀ event ∈ (executeSubtree engine ctx input).1, P ctx event := by
    intro event hevent
    unfold executeSubtree at hevent
    split at hevent
    · cases hevent
    · split at hevent
      · rw [List.mem_singleton.1 hevent]
        exact hP.own (.status _ _ _ _ _)
      · obtain ⟨events, hlog, hevents⟩ := hengine.node ctx _ _ _ ⟨_, []⟩
        dsimp only at hevent
        rw [hlog] at hevent
        exact hevents event hevent
  unfold runSubtree at h
  split at h
  · next hrun =>
      rw [hrun] at hgeneration
      exact ⟨ctx.executionId, hgeneration event h⟩
  · next hrun =>
      rw [hrun] at hgeneration
      rcases List.mem_append.1 h with h | h
      · exact ⟨ctx.executionId, hgeneration event h⟩
      · obtain ⟨executionId, hevent⟩ := hengine.subtree h
        exact ⟨executionId, hevent⟩
  · next hrun =>
      rw [hrun] at hgeneration
      exact ⟨ctx.executionId, hgeneration event h⟩

end Nodes

/-- Everything that executing a node logs has the property of the visit. -/
theorem engine_logs {P : OrchestrationContext → Event → Prop} (hP : LogInvariant P) (fuel : Nat) :
    EngineLogs P (engine fuel) := by
  induction fuel with
  | zero => exact ⟨fun _ _ _ _ machine => Logs.refl _ machine, nofun⟩
  | succ fuel ih =>
      exact ⟨fun _ _ _ _ machine => node_logs hP ih (node_runs (engine_typed fuel) machine),
        run_subtree_logged hP ih⟩

end PgDurable.Orchestration
