import PgDurable.Orchestration.BreakValue

/-!
# Loops that run out of iterations

A loop that asks for one iteration too many fails with `exhaustedMessage`. `RunsOut` follows the
failure outwards: through sequences, bodies and conditions of loops as it is, and through branches,
nested loops and failure-isolated bodies as the error text of a child. The text stays plain, so no
boundary takes it for an application failure, and a failure-isolated join raises no lesser error of
another branch instead: `runs_out_fails` says that everything around the loop fails, failure-isolated
loops included.
-/

namespace PgDurable.Orchestration

open Json Program

/-- The failure of a loop that ran out of iterations. -/
def exhaustedMessage : String :=
  "Loop exceeded maximum iteration count of " ++ toString maxLoopIterations ++
    ". Use df.break() to exit the loop or restructure the workflow."

theorem exhausted_message_plain : Plain exhaustedMessage :=
  Plain.append (Plain.append (by decide) _) _

/-- A value whose text is plain is neither an array nor an object. -/
theorem parse_plain {text : String} {value : Value} (h : Plain text)
    (hparse : parse text = some value) :
    (∀ items, value ≠ .array items) ∧ ∀ members, value ≠ .object members := by
  unfold Plain at h
  obtain ⟨c, hhead, hc⟩ := (Option.any_eq_true _ _).1 h
  simp only [Bool.and_eq_true, Bool.not_eq_true', bne_iff_ne, ne_eq] at hc
  obtain ⟨rest, htext⟩ := List.head?_eq_some_iff.1 hhead
  unfold parse at hparse
  rw [htext] at hparse
  split at hparse
  · next read after hread =>
      split_ifs at hparse
      cases hparse
      rw [parseValue, skip_space_cons hc.1.1] at hread
      split at hread
      · cases hread
        simp
      · cases hread
        simp
      · cases hread
        simp
      · obtain ⟨⟨text, after⟩, -, hvalue⟩ := Option.bind_eq_some_iff.1 hread
        cases hvalue
        simp
      · next heq => exact absurd (List.cons.inj heq).1 hc.2
      · next heq => exact absurd (List.cons.inj heq).1 hc.1.2
      · obtain ⟨⟨number, after⟩, -, hvalue⟩ := Option.bind_eq_some_iff.1 hread
        cases hvalue
        simp
  · cases hparse

/-- A plain text is no application failure. -/
theorem decode_plain {text : String} (h : Plain text) :
    decodeSubtreeApplicationFailure text = none := by
  unfold decodeSubtreeApplicationFailure
  cases hparse : parse text with
  | none => rfl
  | some value =>
      obtain ⟨harray, hobject⟩ := parse_plain h hparse
      cases value with
      | array items => exact absurd rfl (harray items)
      | object members => exact absurd rfl (hobject members)
      | null => rfl
      | bool value => rfl
      | number value => rfl
      | string value => rfl

/-- A plain text stays a failure where it happened is added, and stays plain. -/
theorem contextualize_plain (context : String) {text : String} (h : Plain text) :
    contextualizeSubtreeFailure context text = .failure (context ++ ": " ++ text) := by
  rw [contextualizeSubtreeFailure, classifySubtreeFailure, decode_plain h]

/-! ## From the loop outwards -/

mutual
/-- Executing the node fails, with this text, because a loop in it runs out of iterations. -/
inductive RunsOut : Nat → OrchestrationContext → FunctionGraph → String → ExecutionContext →
    Machine → String → Prop
  | here {fuel : Nat} {ctx : OrchestrationContext} {graph : FunctionGraph} {nodeId : String}
      {execCtx : ExecutionContext} {machine middle : Machine} {node : FunctionNode}
      {config : LoopConfig} {bodyId : String} (hnode : graph.nodes[nodeId]? = some node)
      (hkind : nodeKind node.nodeType = some .loop) (hroot : nodeId = execCtx.subtreeRoot)
      (hbody : node.leftNode = some bodyId) (hconfig : parseLoopConfig node nodeId = .ok config)
      (hiteration : loopIteration (engine fuel) ctx graph node execCtx config bodyId
        (started ctx graph nodeId machine) = (.ok none, middle))
      (hlimit : maxLoopIterations ≤ execCtx.loopIteration + 1) :
      RunsOut (fuel + 1) ctx graph nodeId execCtx machine exhaustedMessage
  | sequence {fuel : Nat} {ctx : OrchestrationContext} {graph : FunctionGraph} {nodeId : String}
      {execCtx : ExecutionContext} {machine middle : Machine} {node : FunctionNode} {step : Step}
      {id message : String} (hnode : graph.nodes[nodeId]? = some node)
      (hexecutes : Executes (engine fuel) ctx graph node execCtx
        (started ctx graph nodeId machine) step id middle)
      (h : RunsOut fuel (ctx.down step) graph id execCtx middle message) :
      RunsOut (fuel + 1) ctx graph nodeId execCtx machine message
  | branch {fuel : Nat} {ctx : OrchestrationContext} {graph : FunctionGraph} {nodeId : String}
      {execCtx : ExecutionContext} {machine after : Machine} {node : FunctionNode} {index : Nat}
      {branchId context message : String} (hnode : graph.nodes[nodeId]? = some node)
      (hkind : nodeKind node.nodeType = some .join ∨ nodeKind node.nodeType = some .race)
      (hcontext : Plain context)
      (hraises : executeNodeInner (engine fuel) ctx graph node nodeId execCtx
        (started ctx graph nodeId machine) =
          (.error (.raised (contextualizeSubtreeFailure context message)), after))
      (h : ChildRunsOut fuel (childContext ctx branchId (ctx.path ++ [.branch index])) graph branchId
        execCtx machine.results 0 message) :
      RunsOut (fuel + 1) ctx graph nodeId execCtx machine (context ++ ": " ++ message)
  | isolatedJoin {fuel : Nat} {ctx : OrchestrationContext} {graph : FunctionGraph}
      {nodeId : String} {execCtx : ExecutionContext} {machine after : Machine}
      {node : FunctionNode} {leftId rightId branchId message : String} {index : Nat}
      {error : NodeError} (hnode : graph.nodes[nodeId]? = some node)
      (hkind : nodeKind node.nodeType = some .join) (hleft : node.leftNode = some leftId)
      (hright : node.rightNode = some rightId) (hisolated : execCtx.failureIsolated = true)
      (hbranch : (joinBranchIds node leftId rightId)[index]? = some branchId)
      (hfault : ctx.world.runtimeFault (ctx.path ++ [.branch index])
        (subtreeInstanceId ctx branchId) = none)
      (hraises : executeNodeInner (engine fuel) ctx graph node nodeId execCtx
        (started ctx graph nodeId machine) = (.error (.raised error), after))
      (h : ChildRunsOut fuel (childContext ctx branchId (ctx.path ++ [.branch index])) graph branchId
        execCtx machine.results 0 message) :
      RunsOut (fuel + 1) ctx graph nodeId execCtx machine error.message
  | child {fuel : Nat} {ctx : OrchestrationContext} {graph : FunctionGraph} {nodeId : String}
      {execCtx : ExecutionContext} {machine : Machine} {node : FunctionNode} {message : String}
      (hnode : graph.nodes[nodeId]? = some node) (hkind : nodeKind node.nodeType = some .loop)
      (hroot : nodeId ≠ execCtx.subtreeRoot) (hbody : node.leftNode.isSome)
      (hfault : ctx.world.runtimeFault ctx.path (subtreeInstanceId ctx nodeId) = none)
      (h : ChildRunsOut fuel (childContext ctx nodeId ctx.path) graph nodeId execCtx
        machine.results 0 message) :
      RunsOut (fuel + 1) ctx graph nodeId execCtx machine
        ("Loop sub-orchestration failed: " ++ message)
  | body {fuel : Nat} {ctx : OrchestrationContext} {graph : FunctionGraph} {nodeId : String}
      {execCtx : ExecutionContext} {machine : Machine} {node : FunctionNode}
      {config : LoopConfig} {bodyId message : String} (hnode : graph.nodes[nodeId]? = some node)
      (hkind : nodeKind node.nodeType = some .loop) (hroot : nodeId = execCtx.subtreeRoot)
      (hbody : node.leftNode = some bodyId) (hconfig : parseLoopConfig node nodeId = .ok config)
      (hmode : config.continueOnFailure = false)
      (h : RunsOut fuel (ctx.down (.loopBody execCtx.loopIteration)) graph bodyId execCtx
        (started ctx graph nodeId machine) message) :
      RunsOut (fuel + 1) ctx graph nodeId execCtx machine message
  | isolatedBody {fuel : Nat} {ctx : OrchestrationContext} {graph : FunctionGraph}
      {nodeId : String} {execCtx : ExecutionContext} {machine : Machine} {node : FunctionNode}
      {config : LoopConfig} {bodyId message : String} (hnode : graph.nodes[nodeId]? = some node)
      (hkind : nodeKind node.nodeType = some .loop) (hroot : nodeId = execCtx.subtreeRoot)
      (hbody : node.leftNode = some bodyId) (hconfig : parseLoopConfig node nodeId = .ok config)
      (hmode : config.continueOnFailure = true)
      (hfault : ctx.world.runtimeFault (ctx.path ++ [.loopBody execCtx.loopIteration])
        (subtreeInstanceId ctx bodyId) = none)
      (h : ChildRunsOut fuel
        (childContext ctx bodyId (ctx.path ++ [.loopBody execCtx.loopIteration])) graph bodyId
        { execCtx with failureIsolated := true } machine.results 0 message) :
      RunsOut (fuel + 1) ctx graph nodeId execCtx machine message
  | condition {fuel : Nat} {ctx : OrchestrationContext} {graph : FunctionGraph} {nodeId : String}
      {execCtx : ExecutionContext} {machine middle : Machine} {node : FunctionNode}
      {config : LoopConfig} {bodyId conditionId result message : String}
      (hnode : graph.nodes[nodeId]? = some node)
      (hkind : nodeKind node.nodeType = some .loop) (hroot : nodeId = execCtx.subtreeRoot)
      (hbody : node.leftNode = some bodyId) (hconfig : parseLoopConfig node nodeId = .ok config)
      (hevaluates : loopIteration (engine fuel) ctx graph node execCtx config bodyId
        (started ctx graph nodeId machine) =
          evaluateLoopCondition (engine fuel) ctx graph node execCtx config.conditionNode result
            middle)
      (hcondition : config.conditionNode = some conditionId)
      (h : RunsOut fuel (ctx.down (.loopCondition execCtx.loopIteration)) graph conditionId execCtx
        middle message) :
      RunsOut (fuel + 1) ctx graph nodeId execCtx machine message

/-- The child, from one of its generations on, fails because a loop in it runs out of iterations. -/
inductive ChildRunsOut : Nat → OrchestrationContext → FunctionGraph → String →
    ExecutionContext → StringMap → Nat → String → Prop
  | now {fuel : Nat} {ctx : OrchestrationContext} {graph : FunctionGraph} {nodeId : String}
      {execCtx : ExecutionContext} {results : StringMap} {iteration : Nat} {message : String}
      (h : RunsOut fuel ctx graph nodeId (execCtx.enter nodeId iteration) ⟨results, []⟩ message) :
      ChildRunsOut (fuel + 1) ctx graph nodeId execCtx results iteration message
  | later {fuel : Nat} {ctx : OrchestrationContext} {graph : FunctionGraph} {nodeId : String}
      {execCtx : ExecutionContext} {results : StringMap} {iteration next : Nat} {after : Machine}
      {message : String} (hnext : next < 2 ^ 64)
      (hrun : (engine fuel).node ctx graph nodeId (execCtx.enter nodeId iteration) ⟨results, []⟩ =
        (.error (.continuedAsNew (subtreeText graph nodeId after.results execCtx next)), after))
      (h : ChildRunsOut fuel { ctx with executionId := ctx.executionId + 1 } graph nodeId execCtx
        after.results next message) :
      ChildRunsOut (fuel + 1) ctx graph nodeId execCtx results iteration message
end

/-! ## Every node around the loop fails -/

section Handlers

variable {engine : Engine} {ctx : OrchestrationContext} {graph : FunctionGraph}
  {node : FunctionNode} {nodeId : String} {execCtx : ExecutionContext} {machine after : Machine}

/-- The text of a configuration that parses is read by the handlers. -/
theorem read_of_parse {query : Option String} {config : Value}
    (h : query.bind parse = some config) (start : String) :
    ∃ configText, query = some configText ∧
      (fromStr configText).mapError (start ++ ·) = .ok config := by
  obtain ⟨configText, rfl, hparse⟩ := Option.bind_eq_some_iff.1 h
  refine ⟨configText, rfl, ?_⟩
  rw [fromStr, hparse]
  rfl

/-- The conditional decides, with two branches at hand. -/
theorem if_decides {config : Value} {thenId elseId : String}
    (hkind : nodeKind node.nodeType = some .ifNode)
    (hconfig : node.query.bind parse = some config) (hthen : node.leftNode = some thenId)
    (helse : node.rightNode = some elseId) :
    executeNodeInner engine ctx graph node nodeId execCtx = (do
      let isTrue ← decideIf engine ctx graph execCtx config
      let result ←
        if isTrue then engine.node (ctx.down .ifThen) graph thenId execCtx
        else engine.node (ctx.down .ifElse) graph elseId execCtx
      storeNamedResult node result
      pure result) := by
  obtain ⟨configText, hquery, hread⟩ := read_of_parse hconfig "Invalid IF config: "
  unfold executeNodeInner executeIfNode
  simp only [hkind, hquery, hread, hthen, helse, or_missing_some, or_fail_ok, pure_bind]

/-- The failures that branches contribute to a join are plain. -/
theorem failure_contribution_plain {index : Nat} {branchId : String} {reply : ChildReply}
    {error : JoinError} {message : String}
    (h : joinContribution graph index branchId reply = .error error)
    (hfailure : error.error = .failure message) : Plain message := by
  have hplain : Plain "JOIN branch " := by decide
  cases reply with
  | envelope control value results =>
      cases control with
      | breakLoop =>
          cases h
          cases hfailure
      | normal =>
          simp only [joinContribution] at h
          cases hread : fromStr value with
          | ok parsed =>
              rw [hread] at h
              cases h
          | error e =>
              rw [hread] at h
              cases h
              cases hfailure
              exact ((hplain.append _).append _).append _
  | error text =>
      cases h
      simp only [contextualizeSubtreeFailure, classifySubtreeFailure] at hfailure
      cases hdecode : decodeSubtreeApplicationFailure text with
      | some application =>
          rw [hdecode] at hfailure
          cases hfailure
      | none =>
          rw [hdecode] at hfailure
          cases hfailure
          exact (((hplain.append _).append _).append _).append _

/-- Of the errors of a failure-isolated join a failure is selected, if there is one. -/
theorem join_selects_failure {index offset : Nat} {replies : List (String × ChildReply)}
    {joined : List Value} {selected : Option JoinError} {results : StringMap}
    (h : (∃ error, selected = some error ∧ joinPriority error.error = 2) ∨
      ∃ branchId reply error, replies[offset]? = some (branchId, reply) ∧
        joinContribution graph (index + offset) branchId reply = .error error ∧
        joinPriority error.error = 2) :
    ∃ error merged, joinReplies graph true index replies joined selected results =
      (.error error, merged) ∧ joinPriority error.error = 2 := by
  have hbound : ∀ error, joinPriority error ≤ 2 := by
    intro error
    cases error <;> simp [joinPriority]
  induction replies generalizing index offset joined selected results with
  | nil =>
      obtain ⟨error, rfl, hpriority⟩ := h.resolve_right (by simp)
      exact ⟨error, results, rfl, hpriority⟩
  | cons entry replies ih =>
      obtain ⟨branchId, reply⟩ := entry
      have hlater : ∀ {selected'}, (∀ error, selected = some error → joinPriority error.error = 2 →
            selected' = some error) →
          (∀ error, joinContribution graph index branchId reply = .error error →
            joinPriority error.error = 2 →
            ∃ error, selected' = some error ∧ joinPriority error.error = 2) →
          ∀ joined results, ∃ error merged, joinReplies graph true (index + 1) replies joined
            selected' results = (.error error, merged) ∧ joinPriority error.error = 2 := by
        intro selected' hkeeps hnow joined results
        refine @ih (index + 1) (offset - 1) joined selected' results ?_
        rcases h with ⟨error, hselected, hpriority⟩ | ⟨otherId, other, error, hget, hrest, hpriority⟩
        · exact Or.inl ⟨error, hkeeps error hselected hpriority, hpriority⟩
        · cases offset with
          | zero =>
              cases hget
              exact Or.inl (hnow error hrest hpriority)
          | succ offset =>
              refine Or.inr ⟨otherId, other, error, hget, ?_, hpriority⟩
              rwa [show index + 1 + (offset + 1 - 1) = index + (offset + 1) by omega]
      unfold joinReplies
      cases hcontribution : joinContribution graph index branchId reply with
      | ok parsed =>
          refine hlater (fun error hselected _ => hselected) (fun error hown => ?_) _ _
          rw [hcontribution] at hown
          cases hown
      | error own =>
          dsimp only
          rw [if_pos rfl]
          refine hlater (fun error hselected hpriority => ?_) (fun error hown hpriority => ?_) _ _
          · subst hselected
            unfold retainHigherPriorityJoinError
            dsimp only
            rw [if_neg (by have := hbound own.error; omega)]
          · rw [hcontribution] at hown
            cases hown
            cases selected with
            | none => exact ⟨own, rfl, hpriority⟩
            | some current =>
                unfold retainHigherPriorityJoinError
                dsimp only
                split_ifs with hhigher
                · exact ⟨own, rfl, hpriority⟩
                · exact ⟨current, rfl, by have := hbound current.error; omega⟩

/-- A failure-isolated join with a branch that fails by a plain text raises a plain failure: the
branch's own, or that of a branch before it. -/
theorem isolated_join_fails (htyped : engine.Typed) {leftId rightId branchId text : String}
    {index : Nat} {error : NodeError} (hkind : nodeKind node.nodeType = some .join)
    (hleft : node.leftNode = some leftId) (hright : node.rightNode = some rightId)
    (hisolated : execCtx.failureIsolated = true)
    (hraises : executeNodeInner engine ctx graph node nodeId execCtx machine =
      (.error (.raised error), after))
    (hbranch : (joinBranchIds node leftId rightId)[index]? = some branchId) (hplain : Plain text)
    (hreply : (branchRun engine ctx graph execCtx machine.results index branchId).2 =
      some (.error text)) :
    ∃ message, error = .failure message ∧ Plain message := by
  rw [inner_join hkind] at hraises
  rcases join_executes htyped ctx graph nodeId execCtx hleft hright machine with
    ⟨replies, hbranches, hreplies, hrun⟩ | hrun
  · rw [← hbranches, List.getElem?_map, Option.map_eq_some_iff] at hbranch
    obtain ⟨⟨_, reply⟩, hget, rfl⟩ := hbranch
    have htext := hreplies hget
    rw [hreply, Option.some.injEq] at htext
    have hown : reply = .error text := by
      cases reply with
      | error other => exact congrArg _ (Except.error.inj htext).symm
      | envelope => cases htext
    subst hown
    obtain ⟨selected, merged, hselects, hpriority⟩ := @join_selects_failure graph 0 index replies []
      none machine.results (Or.inr ⟨_, _, _, hget, rfl, by
        rw [contextualize_plain _ hplain]
        rfl⟩)
    rw [hrun, hisolated, hselects] at hraises
    cases hraises
    obtain ⟨offset, otherId, other, -, hcontribution⟩ :=
      (join_error_source hselects).resolve_left (by simp)
    cases hfailure : selected.error with
    | failure message => exact ⟨message, rfl, failure_contribution_plain hcontribution hfailure⟩
    | application message => rw [hfailure] at hpriority; cases hpriority
    | breakWith value => rw [hfailure] at hpriority; cases hpriority
  · rw [hrun] at hraises
    cases hraises

/-- A sequence or a conditional stops where its child stops. -/
theorem executes_stop {step : Step} {id : String} {middle : Machine} {stop : Stop}
    (hexecutes : Executes engine ctx graph node execCtx machine step id middle)
    (hrun : engine.node (ctx.down step) graph id execCtx middle = (.error stop, after)) :
    executeNodeInner engine ctx graph node nodeId execCtx machine = (.error stop, after) := by
  cases hexecutes with
  | thenLeft hkind hleft hright =>
      unfold executeNodeInner executeThenNode
      simp only [hkind, hleft, hright, or_missing_some, pure_bind]
      exact bind_error hrun
  | thenRight hkind hleft hright hfirst =>
      unfold executeNodeInner executeThenNode
      simp only [hkind, hleft, hright, or_missing_some, pure_bind]
      rw [bind_ok hfirst]
      exact bind_error hrun
  | ifCondition hkind hconfig hthen helse hnodes hid =>
      rw [if_decides hkind hconfig hthen helse]
      refine bind_error ?_
      unfold decideIf
      rw [if_neg hnodes, hid, or_missing_some, pure_bind]
      exact bind_error hrun
  | ifThen hkind hconfig hthen helse hdecide =>
      rw [if_decides hkind hconfig hthen helse, bind_ok hdecide]
      exact bind_error hrun
  | ifElse hkind hconfig hthen helse hdecide =>
      rw [if_decides hkind hconfig hthen helse, bind_ok hdecide]
      exact bind_error hrun

/-- A loop with a body runs its iteration. -/
theorem loop_iterates {config : LoopConfig} {bodyId : String}
    (hbody : node.leftNode = some bodyId) (hconfig : parseLoopConfig node nodeId = .ok config) :
    executeLoopNode engine ctx graph node nodeId execCtx = (do
      match ← loopIteration engine ctx graph node execCtx config bodyId with
      | some finalResult => pure finalResult
      | none =>
          if execCtx.loopIteration + 1 ≥ maxLoopIterations then fail exhaustedMessage
          else do
            rateLimit ctx execCtx
              (ctx.world.utcNow (ctx.path ++ [.loopBody execCtx.loopIteration]) 0)
            let results ← readResults
            Program.exit (.continuedAsNew
              (continuationInput graph nodeId execCtx results (execCtx.loopIteration + 1)))) := by
  unfold executeLoopNode
  simp only [hbody, hconfig, or_missing_some, or_fail_ok, pure_bind]
  rfl

/-- A loop that asks for one iteration too many fails. -/
theorem exhausted_fails {config : LoopConfig} {bodyId : String}
    (hkind : nodeKind node.nodeType = some .loop) (hbody : node.leftNode = some bodyId)
    (hconfig : parseLoopConfig node nodeId = .ok config)
    (hiteration : loopIteration engine ctx graph node execCtx config bodyId machine =
      (.ok none, after)) (hlimit : maxLoopIterations ≤ execCtx.loopIteration + 1) :
    (executeNodeInner engine ctx graph node nodeId execCtx machine).1 =
      .error (.raised (.failure exhaustedMessage)) := by
  rw [inner_loop hkind, loop_iterates hbody hconfig, bind_ok hiteration]
  dsimp only
  rw [if_pos hlimit]
  rfl

/-- An inline body that fails fails its loop. -/
theorem inline_body_fails {config : LoopConfig} {bodyId message : String}
    (hmode : config.continueOnFailure = false)
    (hrun : engine.node (ctx.down (.loopBody execCtx.loopIteration)) graph bodyId execCtx machine =
      (.error (.raised (.failure message)), after)) :
    loopIteration engine ctx graph node execCtx config bodyId machine =
      (.error (.raised (.failure message)), after) := by
  unfold loopIteration runLoopIteration
  simp only [hmode, Bool.false_eq_true, if_false]
  rw [bind_apply, attempt_apply, hrun]
  rfl

/-- A failure-isolated body that fails with a plain text fails its loop: it is not consumed. -/
theorem isolated_body_fails {config : LoopConfig} {bodyId message : String}
    (hmode : config.continueOnFailure = true) (hplain : Plain message)
    (hreply : (isolatedRun engine ctx graph execCtx bodyId machine.results).2 =
      some (.error message)) :
    (loopIteration engine ctx graph node execCtx config bodyId machine).1 =
      .error (.raised (.failure message)) := by
  have hchild := schedule_sub_apply engine ctx machine
    (childContext ctx bodyId (ctx.path ++ [.loopBody execCtx.loopIteration]))
    (buildSubtreeInput graph bodyId machine.results { execCtx with failureIsolated := true })
  rw [← isolatedRun, hreply] at hchild
  have hclassify : ∀ middle, classifyIsolatedBodyResult (.error message) middle =
      (.error (.raised (.failure message)), middle) := by
    intro middle
    unfold classifyIsolatedBodyResult
    simp only [decode_plain hplain]
    rfl
  unfold loopIteration runFailureIsolatedBody
  simp only [hmode, if_true, bind_assoc]
  rw [bind_ok (read_results_apply machine), bind_ok hchild, bind_error (hclassify _)]

/-- A condition that fails fails its loop. -/
theorem condition_fails {conditionNode : Option String} {conditionId result message : String}
    (hcondition : conditionNode = some conditionId)
    (hrun : engine.node (ctx.down (.loopCondition execCtx.loopIteration)) graph conditionId execCtx
      machine = (.error (.raised (.failure message)), after)) :
    (evaluateLoopCondition engine ctx graph node execCtx conditionNode result machine).1 =
      .error (.raised (.failure message)) := by
  subst hcondition
  unfold evaluateLoopCondition
  dsimp only
  rw [bind_apply, attempt_apply, hrun]
  rfl

/-- A loop whose iteration fails fails. -/
theorem iteration_fails {config : LoopConfig} {bodyId message : String}
    (hkind : nodeKind node.nodeType = some .loop) (hbody : node.leftNode = some bodyId)
    (hconfig : parseLoopConfig node nodeId = .ok config)
    (hiteration : (loopIteration engine ctx graph node execCtx config bodyId machine).1 =
      .error (.raised (.failure message))) :
    (executeNodeInner engine ctx graph node nodeId execCtx machine).1 =
      .error (.raised (.failure message)) := by
  rw [inner_loop hkind, loop_iterates hbody hconfig, bind_apply, hiteration]

/-- A node whose handler fails fails. -/
theorem inner_fails {message : String} (hnode : graph.nodes[nodeId]? = some node)
    (hroot : nodeKind node.nodeType = some .loop → nodeId = execCtx.subtreeRoot)
    (hrun : (executeNodeInner engine ctx graph node nodeId execCtx
      (started ctx graph nodeId machine)).1 = .error (.raised (.failure message))) :
    (executeFunctionNodeWithVars engine ctx graph nodeId execCtx machine).1 =
      .error (.raised (.failure message)) := by
  rw [node_applies hnode hroot, closed_outcome, hrun]

/-- A loop whose child fails with a plain text fails with it. -/
theorem loop_child_fails {message : String} (hnode : graph.nodes[nodeId]? = some node)
    (hkind : nodeKind node.nodeType = some .loop) (hroot : nodeId ≠ execCtx.subtreeRoot)
    (hbody : node.leftNode.isSome) (hplain : Plain message)
    (hreply : (loopChildRun engine ctx graph nodeId execCtx machine.results).2 =
      some (.error message)) :
    (executeFunctionNodeWithVars engine ctx graph nodeId execCtx machine).1 =
      .error (.raised (.failure ("Loop sub-orchestration failed: " ++ message))) := by
  have hbranch : ¬ node.leftNode.isNone = true := by
    rw [Option.isNone_iff_eq_none]
    exact Option.isSome_iff_ne_none.1 hbody
  have hschedule := schedule_sub_apply engine ctx (machine.logged [.visited ctx.site nodeId])
    (childContext ctx nodeId ctx.path) (buildSubtreeInput graph nodeId machine.results execCtx)
  rw [← loopChildRun, hreply] at hschedule
  rw [loop_child_applies hnode hkind hroot]
  unfold executeLoopSuborchestration
  rw [if_neg hbranch, bind_ok (read_results_apply _), logged_results, bind_ok hschedule]
  dsimp only
  rw [contextualize_plain _ hplain]
  obtain ⟨quiet, -, hfail⟩ := fail_loop_child_apply ctx graph nodeId
    (.failure ("Loop sub-orchestration failed" ++ ": " ++ message))
    ((machine.logged [.visited ctx.site nodeId]).logged (.spawned ctx.site
      (childContext ctx nodeId ctx.path).instanceId
      (buildSubtreeInput graph nodeId machine.results execCtx) ::
        (loopChildRun engine ctx graph nodeId execCtx machine.results).1))
  rw [hfail]
  rfl

end Handlers

/-- A child that the runtime does not fail runs. -/
theorem run_child_unfaulted {engine : Engine} {child : OrchestrationContext} {input : String}
    (h : child.world.runtimeFault child.path child.instanceId = none) :
    runChild engine child input = engine.subtree child input := by
  rw [runChild, h]

/-- What runs out of iterations fails with a plain text, and so does everything around it; no
failure-isolated loop consumes the failure. -/
theorem runs_out_fails (fuel : Nat) :
    (∀ {ctx graph nodeId execCtx machine message},
      RunsOut fuel ctx graph nodeId execCtx machine message → Plain message ∧
        ((engine fuel).node ctx graph nodeId execCtx machine).1 =
          .error (.raised (.failure message))) ∧
    ∀ {ctx graph nodeId execCtx results iteration message}, iteration < 2 ^ 64 →
      ChildRunsOut fuel ctx graph nodeId execCtx results iteration message → Plain message ∧
        ((engine fuel).subtree ctx (subtreeText graph nodeId results execCtx iteration)).2 =
          some (.error message) := by
  induction fuel with
  | zero => exact ⟨fun h => (by cases h), fun _ h => (by cases h)⟩
  | succ fuel ih =>
      obtain ⟨hnodes, hchildren⟩ := ih
      refine ⟨fun {ctx graph nodeId execCtx machine message} h => ?_,
        fun {ctx graph nodeId execCtx results iteration message} hiteration h => ?_⟩
      · show Plain message ∧
          (executeFunctionNodeWithVars (engine fuel) ctx graph nodeId execCtx machine).1 = _
        cases h with
        | here hnode hkind hroot hbody hconfig hiteration hlimit =>
            exact ⟨exhausted_message_plain, inner_fails hnode (fun _ => hroot)
              (exhausted_fails hkind hbody hconfig hiteration hlimit)⟩
        | sequence hnode hexecutes h =>
            obtain ⟨hplain, hrun⟩ := hnodes h
            refine ⟨hplain, inner_fails hnode (fun hloop => ?_)
              (congrArg Prod.fst (executes_stop hexecutes (Prod.ext hrun rfl)))⟩
            cases hexecutes <;> simp_all
        | branch hnode hkind hcontext hraises h =>
            obtain ⟨hplain, -⟩ := hchildren (by decide) h
            rw [contextualize_plain _ hplain] at hraises
            refine ⟨Plain.append (Plain.append hcontext _) _, inner_fails hnode (fun hloop => ?_)
              (congrArg Prod.fst hraises)⟩
            rcases hkind with hkind | hkind <;> rw [hkind] at hloop <;> cases hloop
        | isolatedJoin hnode hkind hleft hright hisolated hbranch hfault hraises h =>
            obtain ⟨hplain, hreply⟩ := hchildren (by decide) h
            rw [← run_child_unfaulted hfault] at hreply
            obtain ⟨message, rfl, hmessage⟩ := isolated_join_fails (engine_typed fuel) hkind hleft
              hright hisolated hraises hbranch hplain hreply
            refine ⟨hmessage, inner_fails hnode (fun hloop => ?_) (congrArg Prod.fst hraises)⟩
            rw [hkind] at hloop
            cases hloop
        | child hnode hkind hroot hbody hfault h =>
            obtain ⟨hplain, hreply⟩ := hchildren (by decide) h
            refine ⟨Plain.append (by decide) _,
              loop_child_fails hnode hkind hroot hbody hplain ?_⟩
            rw [loopChildRun, run_child_unfaulted hfault]
            exact hreply
        | body hnode hkind hroot hbody hconfig hmode h =>
            obtain ⟨hplain, hrun⟩ := hnodes h
            exact ⟨hplain, inner_fails hnode (fun _ => hroot) (iteration_fails hkind hbody hconfig
              (congrArg Prod.fst (inline_body_fails hmode (Prod.ext hrun rfl))))⟩
        | isolatedBody hnode hkind hroot hbody hconfig hmode hfault h =>
            obtain ⟨hplain, hreply⟩ := hchildren (by decide) h
            refine ⟨hplain, inner_fails hnode (fun _ => hroot) (iteration_fails hkind hbody hconfig
              (isolated_body_fails hmode hplain ?_))⟩
            rw [isolatedRun, run_child_unfaulted hfault]
            exact hreply
        | condition hnode hkind hroot hbody hconfig hevaluates hcondition h =>
            obtain ⟨hplain, hrun⟩ := hnodes h
            refine ⟨hplain, inner_fails hnode (fun _ => hroot) (iteration_fails hkind hbody hconfig
              ?_)⟩
            rw [hevaluates]
            exact condition_fails hcondition (Prod.ext hrun rfl)
      · show Plain message ∧ (runSubtree (engine fuel) ctx _).2 = _
        rw [run_subtree_reads _ _ _ _ _ _ hiteration]
        cases h with
        | now h =>
            obtain ⟨hplain, hrun⟩ := hnodes h
            refine ⟨hplain, ?_⟩
            dsimp only
            rw [hrun]
            rfl
        | later hnext hrun h =>
            obtain ⟨hplain, hreply⟩ := hchildren hnext h
            refine ⟨hplain, ?_⟩
            dsimp only
            rw [hrun]
            exact hreply

end PgDurable.Orchestration
