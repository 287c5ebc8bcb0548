import PgDurable.Orchestration.Children
import PgDurable.Orchestration.Leaves

/-!
# What the compound handlers do

For each handler that executes other nodes, an inductive relation lists everything it can do to
the machine, with the outcome it has: `SequenceRun` for sequences and conditionals, `JoinRun`,
`RaceRun`, `LoopChildRun`, and `LoopRun` over `IterationRun` and `BodyRun`. `NodeRun` puts them
together for a node of any type. Replies of children appear as `ChildReply`, without texts.
-/

namespace PgDurable.Orchestration

open Json Program

/-- Bookkeeping of a visit: an effect, a scheduled child, or a failure stamp for a loop node. -/
def Event.IsQuiet (ctx : OrchestrationContext) (event : Event) : Prop :=
  event.IsEffect ctx.site ∨
  (∃ childId input, event = .spawned ctx.site childId input) ∨
  ∃ loopNodeId instanceId result stamp outcome,
    (stamp = ctx.stamp ∨ ∃ childId, stamp = childStamp ctx childId) ∧
    event = .activity ctx.site updateNodeStatusName
      (loopNodeStatusInput loopNodeId instanceId "failed" result stamp) outcome

/-- The failure stamp for a loop child is bookkeeping. -/
theorem child_stamp_is_quiet (ctx : OrchestrationContext)
    (loopNodeId instanceId result childId : String) (outcome : Except String String) :
    ∀ event ∈ [Event.activity ctx.site updateNodeStatusName
      (loopNodeStatusInput loopNodeId instanceId "failed" result (childStamp ctx childId)) outcome],
      event.IsQuiet ctx := by
  rintro _ (_ | _)
  · exact Or.inr (Or.inr ⟨_, _, _, _, _, Or.inr ⟨_, rfl⟩, rfl⟩)
  · contradiction

/-- All replies of children are envelopes with a control signal, or errors. -/
def Engine.Typed (engine : Engine) : Prop :=
  ∀ ctx input text, (engine.subtree ctx input).2 = some text →
    ∃ reply : ChildReply, text = reply.text

/-- Scheduled children reply like the interpreter, or with the fault of the runtime. -/
theorem Engine.Typed.child {engine : Engine} (h : engine.Typed) {child : OrchestrationContext}
    {input : String} {text : Except String String}
    (hreply : (runChild engine child input).2 = some text) :
    ∃ reply : ChildReply, text = reply.text := by
  unfold runChild at hreply
  cases hfault : child.world.runtimeFault child.path child.instanceId with
  | some error =>
      rw [hfault] at hreply
      cases hreply
      exact ⟨.error error, rfl⟩
  | none =>
      rw [hfault] at hreply
      exact h child input text hreply

/-- The interpreter's replies are typed, whatever the input. -/
theorem engine_typed (fuel : Nat) : (engine fuel).Typed := by
  induction fuel with
  | zero => rintro ctx input text ⟨⟩
  | succ fuel ih =>
      intro ctx input text hreply
      change (runSubtree (engine fuel) ctx input).2 = some text at hreply
      have hends : ∀ outcome results text, endSubtree outcome results = .returned text →
          ∃ reply : ChildReply, text = reply.text := by
        rintro (stop | value) results text hend
        · rcases stop with (value | message | message) | input | _ <;> cases hend
          · exact ⟨.envelope .breakLoop value results, rfl⟩
          · exact ⟨.error _, rfl⟩
          · exact ⟨.error _, rfl⟩
        · cases hend
          exact ⟨.envelope .normal value results, rfl⟩
      have hgeneration : ∀ text, (executeSubtree (engine fuel) ctx input).2 = .returned text →
          ∃ reply : ChildReply, text = reply.text := by
        intro text hend
        unfold executeSubtree at hend
        split at hend
        · cases hend
          exact ⟨.error _, rfl⟩
        · split at hend
          · cases hend
            exact ⟨.error _, rfl⟩
          · exact hends _ _ _ hend
      unfold runSubtree at hreply
      split at hreply
      · next hrun =>
          cases hreply
          exact hgeneration _ (by rw [hrun])
      · exact ih _ _ _ hreply
      · cases hreply

/-- The nodes that a node executes, according to its type. -/
def childIds (node : FunctionNode) : List String :=
  match nodeKind node.nodeType with
  | some .thenNode | some .race => node.leftNode.toList ++ node.rightNode.toList
  | some .ifNode =>
      node.leftNode.toList ++ node.rightNode.toList ++
        ((node.query.bind parse).bind fun config => (config.index "condition_node").asStr).toList
  | some .join =>
      match node.leftNode, node.rightNode with
      | some leftId, some rightId => joinBranchIds node leftId rightId
      | _, _ => []
  | some .loop =>
      node.leftNode.toList ++
        ((node.query.bind fun query => (LoopConfig.ofJson query).toOption).bind
          LoopConfig.conditionNode).toList
  | _ => []

section Shapes

variable (engine : Engine) (ctx : OrchestrationContext) (graph : FunctionGraph)
  (node : FunctionNode) (nodeId : String) (execCtx : ExecutionContext)

/-! ## Sequences -/

/-- The order in which a node executes its children one after another. -/
inductive Before : Step → Step → Prop
  | thenRight : Before .thenLeft .thenRight
  | ifThen : Before .ifCondition .ifThen
  | ifElse : Before .ifCondition .ifElse
  | loopCondition (iteration : Nat) : Before (.loopBody iteration) (.loopCondition iteration)

/-- What happens before a step: nothing, or the step before it returns. -/
inductive Prelude (step : Step) (machine : Machine) : Machine → Prop
  | nothing : Prelude step machine machine
  | returned {earlier : Step} {id value : String} {after : Machine} (horder : Before earlier step)
      (hid : id ∈ childIds node)
      (hrun : engine.node (ctx.down earlier) graph id execCtx machine = (.ok value, after)) :
      Prelude step machine after

/-- What a sequence or a conditional can do. -/
inductive SequenceRun (machine : Machine) : Except Stop String → Machine → Prop
  | failed {message : String} (hplain : Plain message) :
      SequenceRun machine (.error (.raised (.failure message))) machine
  | stopped {step : Step} {id : String} {stop : Stop} {middle after : Machine}
      (hprelude : Prelude engine ctx graph node execCtx step machine middle)
      (hid : id ∈ childIds node)
      (hrun : engine.node (ctx.down step) graph id execCtx middle = (.error stop, after)) :
      SequenceRun machine (.error stop) after
  | returned {step : Step} {id value : String} {middle after : Machine}
      (hprelude : Prelude engine ctx graph node execCtx step machine middle)
      (hid : id ∈ childIds node)
      (hrun : engine.node (ctx.down step) graph id execCtx middle = (.ok value, after)) :
      SequenceRun machine (.ok value) { after with results := withResult node value after.results }

end Shapes

section Sequences

variable {engine : Engine} {ctx : OrchestrationContext} {graph : FunctionGraph}
  {node : FunctionNode} {nodeId : String} {execCtx : ExecutionContext}

/-- The last step of a sequence: its exit, or its value, which is stored. -/
theorem sequence_last {step : Step} {id : String} {machine middle : Machine}
    (hprelude : Prelude engine ctx graph node execCtx step machine middle)
    (hid : id ∈ childIds node) :
    let program := do
      let result ← engine.node (ctx.down step) graph id execCtx
      storeNamedResult node result
      pure result
    SequenceRun engine ctx graph node execCtx machine (program middle).1 (program middle).2 := by
  dsimp only
  rcases hrun : engine.node (ctx.down step) graph id execCtx middle with ⟨outcome, after⟩
  cases outcome with
  | error stop =>
      rw [bind_error hrun]
      exact .stopped hprelude hid hrun
  | ok value =>
      rw [bind_ok hrun, bind_ok (store_named_result_apply node value after)]
      exact .returned hprelude hid hrun

theorem then_runs (hkind : nodeKind node.nodeType = some .thenNode) :
    Does (SequenceRun engine ctx graph node execCtx)
      (executeThenNode engine ctx graph node nodeId execCtx) := by
  have hplain : Plain "THEN node " := by decide
  refine does_missing (fun _ => .failed ((hplain.append _).append _)) fun leftId hleft =>
    does_missing (fun _ => .failed ((hplain.append _).append _)) fun rightId hright machine => ?_
  have hleftId : leftId ∈ childIds node := by simp [childIds, hkind, hleft]
  have hrightId : rightId ∈ childIds node := by simp [childIds, hkind, hright]
  rcases hrun : engine.node (ctx.down .thenLeft) graph leftId execCtx machine with
    ⟨outcome, middle⟩
  cases outcome with
  | error stop =>
      rw [bind_error hrun]
      exact .stopped .nothing hleftId hrun
  | ok value =>
      rw [bind_ok hrun]
      exact sequence_last (.returned .thenRight hleftId hrun) hrightId

/-- Conditions always evaluate. -/
theorem evaluate_condition_ok (result : String) : ∃ isTrue, evaluateCondition result = .ok isTrue := by
  unfold evaluateCondition
  repeat' split
  all_goals exact ⟨_, rfl⟩

/-- A named result has rows or not, or the check fails with a plain text. -/
theorem result_has_rows_plain (config : Value) (results : StringMap) :
    ErrorsPlain (resultHasRows config results) := by
  unfold resultHasRows
  split
  · split
    · refine errors_plain_bind (errors_plain_map_error _ (by decide)) fun parsed => ?_
      split
      · exact errors_plain_ok _
      · exact errors_plain_error (Plain.append (Plain.append (by decide) _) _)
    · exact errors_plain_error (Plain.append (Plain.append (by decide) _) _)
  · exact errors_plain_error (by decide)

/-- The configuration text of a node, parsed. -/
theorem parse_of_from_str {text start : String} {value : Value}
    (h : (fromStr text).mapError (start ++ ·) = .ok value) : parse text = some value := by
  unfold fromStr at h
  cases hparse : parse text with
  | none => simp [hparse, Except.mapError] at h
  | some parsed =>
      simp only [hparse, Except.mapError, Except.ok.injEq] at h
      rw [h]

/-- What the decision of a conditional can do. -/
inductive DecideRun (engine : Engine) (ctx : OrchestrationContext) (graph : FunctionGraph)
    (node : FunctionNode) (execCtx : ExecutionContext) (machine : Machine) :
    Except Stop Bool → Machine → Prop
  | failed {message : String} (hplain : Plain message) :
      DecideRun engine ctx graph node execCtx machine (.error (.raised (.failure message))) machine
  | stopped {id : String} {stop : Stop} {after : Machine} (hid : id ∈ childIds node)
      (hrun : engine.node (ctx.down .ifCondition) graph id execCtx machine = (.error stop, after)) :
      DecideRun engine ctx graph node execCtx machine (.error stop) after
  | decided {isTrue : Bool} {after : Machine}
      (hprelude : ∀ step, Before .ifCondition step →
        Prelude engine ctx graph node execCtx step machine after) :
      DecideRun engine ctx graph node execCtx machine (.ok isTrue) after

theorem decide_if_runs {config : Value}
    (hchild : ∀ id, (config.index "condition_node").asStr = some id → id ∈ childIds node) :
    Does (DecideRun engine ctx graph node execCtx) (decideIf engine ctx graph execCtx config) := by
  unfold decideIf
  split
  · refine does_read fun machine => ?_
    cases hrows : resultHasRows config machine.results with
    | error message => exact .failed (result_has_rows_plain config machine.results message hrows)
    | ok isTrue => exact .decided fun _ _ => .nothing
  · refine does_missing (fun _ => .failed (by decide)) fun id hid machine => ?_
    rcases hrun : engine.node (ctx.down .ifCondition) graph id execCtx machine with
      ⟨outcome, after⟩
    cases outcome with
    | error stop =>
        rw [bind_error hrun]
        exact .stopped (hchild id hid) hrun
    | ok conditionResult =>
        obtain ⟨isTrue, hevaluate⟩ := evaluate_condition_ok conditionResult
        rw [bind_ok hrun, hevaluate]
        exact .decided fun _ horder => .returned horder (hchild id hid) hrun

theorem if_runs (hkind : nodeKind node.nodeType = some .ifNode) :
    Does (SequenceRun engine ctx graph node execCtx)
      (executeIfNode engine ctx graph node nodeId execCtx) := by
  have hplain : Plain "IF node " := by decide
  have hconfigPlain := fun configText => errors_plain_map_error (fromStr configText)
    (show Plain "Invalid IF config: " by decide)
  refine does_missing (fun _ => .failed ((hplain.append _).append _)) fun configText hquery =>
    does_or_fail (fun message hmessage _ => .failed (hconfigPlain _ message hmessage))
      fun config hconfig => does_missing (fun _ => .failed ((hplain.append _).append _))
        fun thenId hthen => does_missing (fun _ => .failed ((hplain.append _).append _))
          fun elseId helse machine => ?_
  have hthenId : thenId ∈ childIds node := by simp [childIds, hkind, hthen]
  have helseId : elseId ∈ childIds node := by simp [childIds, hkind, helse]
  have hdecision := @decide_if_runs engine ctx graph node execCtx config (fun id hid => by
    simp [childIds, hkind, hquery, parse_of_from_str hconfig, hid]) machine
  rcases hrun : decideIf engine ctx graph execCtx config machine with ⟨outcome, middle⟩
  rw [hrun] at hdecision
  cases hdecision with
  | failed hmessage =>
      rw [bind_error hrun]
      exact .failed hmessage
  | stopped hid hstop =>
      rw [bind_error hrun]
      exact .stopped .nothing hid hstop
  | @decided isTrue _ hprelude =>
      rw [bind_ok hrun]
      cases isTrue with
      | true => exact sequence_last (hprelude .ifThen .ifThen) hthenId
      | false => exact sequence_last (hprelude .ifElse .ifElse) helseId

end Sequences

/-! ## Joins -/

/-- The run of a branch of a join or a race. -/
def branchRun (engine : Engine) (ctx : OrchestrationContext) (graph : FunctionGraph)
    (execCtx : ExecutionContext) (results : StringMap) (index : Nat) (branchId : String) :
    List Event × Option (Except String String) :=
  runChild engine (childContext ctx branchId (ctx.path ++ [.branch index]))
    (buildSubtreeInput graph branchId results execCtx)

/-- The replies of a join's branches, in branch order. -/
structure JoinReplies (engine : Engine) (ctx : OrchestrationContext) (graph : FunctionGraph)
    (node : FunctionNode) (execCtx : ExecutionContext) (results : StringMap)
    (replies : List (String × ChildReply)) : Prop where
  ids : ∀ entry ∈ replies, entry.1 ∈ childIds node
  reply : ∀ {index branchId reply}, replies[index]? = some (branchId, reply) →
    (branchRun engine ctx graph execCtx results index branchId).2 = some reply.text

/-- What a join can do. -/
inductive JoinRun (engine : Engine) (ctx : OrchestrationContext) (graph : FunctionGraph)
    (node : FunctionNode) (execCtx : ExecutionContext) (machine : Machine) :
    Except Stop String → Machine → Prop
  | failed {message : String} (hplain : Plain message) :
      JoinRun engine ctx graph node execCtx machine (.error (.raised (.failure message))) machine
  | stuck {branchIds : List String} (hids : ∀ id ∈ branchIds, id ∈ childIds node) :
      JoinRun engine ctx graph node execCtx machine (.error .unresolved)
        (machine.logged (joinEvents engine ctx
          (branchChildren ctx graph execCtx machine.results branchIds)))
  | returned {replies : List (String × ChildReply)} {values : List Value} {results : StringMap}
      (hreplies : JoinReplies engine ctx graph node execCtx machine.results replies)
      (hjoin : joinReplies graph execCtx.failureIsolated 0 replies [] none machine.results =
        (.ok values, results)) :
      JoinRun engine ctx graph node execCtx machine (.ok (print (.array values)))
        ⟨withResult node (print (.array values)) results, machine.log ++ joinEvents engine ctx
          (branchChildren ctx graph execCtx machine.results (replies.map (·.1)))⟩
  | raised {replies : List (String × ChildReply)} {error : JoinError} {results : StringMap}
      (hreplies : JoinReplies engine ctx graph node execCtx machine.results replies)
      (hjoin : joinReplies graph execCtx.failureIsolated 0 replies [] none machine.results =
        (.error error, results)) :
      JoinRun engine ctx graph node execCtx machine (.error (.raised error.error))
        ⟨results, machine.log ++ (joinEvents engine ctx
          (branchChildren ctx graph execCtx machine.results (replies.map (·.1))) ++
            joinErrorEvents ctx graph error)⟩

/-- Typed forms of a list of replies. -/
theorem exists_typed_replies {pairs : List (String × Except String String)}
    (h : ∀ pair ∈ pairs, ∃ reply : ChildReply, pair.2 = reply.text) :
    ∃ replies : List (String × ChildReply),
      pairs = replies.map fun reply => (reply.1, reply.2.text) := by
  induction pairs with
  | nil => exact ⟨[], rfl⟩
  | cons pair pairs ih =>
      obtain ⟨id, text⟩ := pair
      obtain ⟨reply, rfl⟩ := h (id, text) (by simp)
      obtain ⟨replies, rfl⟩ := ih fun pair hmem => h pair (by simp [hmem])
      exact ⟨(id, reply) :: replies, rfl⟩

/-- A join with two branches runs all its branches; if they all reply, it does what the replies
say. -/
theorem join_executes {engine : Engine} (htyped : engine.Typed) (ctx : OrchestrationContext)
    (graph : FunctionGraph) {node : FunctionNode} (nodeId : String) (execCtx : ExecutionContext)
    {leftId rightId : String} (hleft : node.leftNode = some leftId)
    (hright : node.rightNode = some rightId) (machine : Machine) :
    (∃ replies : List (String × ChildReply),
      replies.map (·.1) = joinBranchIds node leftId rightId ∧
      (∀ {index branchId reply}, replies[index]? = some (branchId, reply) →
        (branchRun engine ctx graph execCtx machine.results index branchId).2 = some reply.text) ∧
      executeJoinNode engine ctx graph node nodeId execCtx machine =
        match joinReplies graph execCtx.failureIsolated 0 replies [] none machine.results with
        | (.ok values, results) =>
            (.ok (print (.array values)), ⟨withResult node (print (.array values)) results,
              machine.log ++ joinEvents engine ctx (branchChildren ctx graph execCtx
                machine.results (joinBranchIds node leftId rightId))⟩)
        | (.error error, results) =>
            (.error (.raised error.error), ⟨results, machine.log ++ (joinEvents engine ctx
              (branchChildren ctx graph execCtx machine.results
                (joinBranchIds node leftId rightId)) ++ joinErrorEvents ctx graph error)⟩)) ∨
    executeJoinNode engine ctx graph node nodeId execCtx machine =
      (.error .unresolved, machine.logged (joinEvents engine ctx
        (branchChildren ctx graph execCtx machine.results
          (joinBranchIds node leftId rightId)))) := by
  unfold executeJoinNode mergeJoinBranches
  simp only [bind_assoc, hleft, hright, or_missing_some, pure_bind]
  rw [bind_ok (read_results_apply machine)]
  generalize joinBranchIds node leftId rightId = branchIds
  rcases join_children_cases engine ctx machine
    (branchChildren ctx graph execCtx machine.results branchIds) with ⟨replies, hreplies, hrun⟩ | hrun
  · left
    rw [bind_ok hrun]
    have hlength : branchIds.length = replies.length := by
      simpa [branchChildren] using congrArg List.length hreplies
    obtain ⟨typed, htypedReplies⟩ := @exists_typed_replies (branchIds.zip replies)
      fun pair hmem => by
        obtain ⟨index, hindex⟩ := List.getElem?_of_mem hmem
        exact htyped.child (branch_reply engine ctx hreplies hindex)
    have hfirst : branchIds = typed.map (·.1) := by
      have hzip := congrArg (List.map Prod.fst) htypedReplies
      rwa [List.map_fst_zip hlength.le, List.map_map] at hzip
    refine ⟨typed, hfirst.symm, fun {index branchId reply} hindex => ?_, ?_⟩
    · refine branch_reply engine ctx hreplies ?_
      rw [htypedReplies, List.getElem?_map, hindex]
      rfl
    · have houtcomes := join_outcomes_apply ctx graph execCtx typed 0 [] none
        (machine.logged (joinEvents engine ctx
          (branchChildren ctx graph execCtx machine.results branchIds)))
      rw [htypedReplies]
      rw [logged_results] at houtcomes
      rcases hresult : joinReplies graph execCtx.failureIsolated 0 typed [] none machine.results with
        ⟨error | values, results⟩
      · rw [hresult] at houtcomes
        rw [bind_error houtcomes, logged_log, List.append_assoc]
      · rw [hresult] at houtcomes
        rw [bind_ok houtcomes, bind_ok (store_named_result_apply node _ _)]
        rfl
  · right
    rw [bind_error hrun]

theorem join_runs {engine : Engine} (htyped : engine.Typed) {ctx : OrchestrationContext}
    {graph : FunctionGraph} {node : FunctionNode} {nodeId : String} {execCtx : ExecutionContext}
    (hkind : nodeKind node.nodeType = some .join) :
    Does (JoinRun engine ctx graph node execCtx)
      (executeJoinNode engine ctx graph node nodeId execCtx) := by
  intro machine
  have hplain : Plain "JOIN node " := by decide
  cases hleft : node.leftNode with
  | none =>
      unfold executeJoinNode mergeJoinBranches
      simp only [hleft]
      exact .failed ((hplain.append _).append _)
  | some leftId =>
      cases hright : node.rightNode with
      | none =>
          unfold executeJoinNode mergeJoinBranches
          simp only [hleft, hright]
          exact .failed ((hplain.append _).append _)
      | some rightId =>
          have hids : childIds node = joinBranchIds node leftId rightId := by
            simp [childIds, hkind, hleft, hright]
          rcases join_executes htyped ctx graph nodeId execCtx hleft hright machine with
            ⟨replies, hbranches, hreply, hrun⟩ | hrun
          · have hreplies : JoinReplies engine ctx graph node execCtx machine.results replies := by
              refine ⟨fun entry hmem => ?_, hreply⟩
              rw [hids, ← hbranches]
              exact List.mem_map_of_mem hmem
            rw [hrun, ← hbranches]
            rcases hjoin : joinReplies graph execCtx.failureIsolated 0 replies [] none
              machine.results with ⟨error | values, results⟩
            · exact .raised hreplies hjoin
            · exact .returned hreplies hjoin
          · rw [hrun]
            exact .stuck fun id hid => hids ▸ hid

/-! ## Races -/

/-- What a parent takes a reply for; errors get a context. -/
def ChildReply.outcome (context : String) : ChildReply → Except Stop String
  | .envelope control value _ => control.outcome value
  | .error text => .error (.raised (contextualizeSubtreeFailure context text))

/-- What a race can do. The winner's events are all there, the loser's only up to some point. -/
inductive RaceRun (engine : Engine) (ctx : OrchestrationContext) (graph : FunctionGraph)
    (node : FunctionNode) (execCtx : ExecutionContext) (machine : Machine) :
    Except Stop String → Machine → Prop
  | failed {message : String} (hplain : Plain message) :
      RaceRun engine ctx graph node execCtx machine (.error (.raised (.failure message))) machine
  | stuck {winner loser progress : Nat} {winnerId loserId : String} {spawned : List Event}
      (hdistinct : winner ≠ loser) (hwinner : winnerId ∈ childIds node)
      (hloser : loserId ∈ childIds node)
      (hspawned : ∀ event ∈ spawned, event.IsQuiet ctx) :
      RaceRun engine ctx graph node execCtx machine (.error .unresolved)
        (machine.logged (spawned ++
          ((branchRun engine ctx graph execCtx machine.results winner winnerId).1 ++
            (branchRun engine ctx graph execCtx machine.results loser loserId).1.take progress)))
  | replied {winner loser progress : Nat} {winnerId loserId context : String}
      {spawned quiet : List Event} {reply : ChildReply} {results : StringMap}
      (hdistinct : winner ≠ loser) (hwinner : winnerId ∈ childIds node)
      (hloser : loserId ∈ childIds node)
      (hspawned : ∀ event ∈ spawned, event.IsQuiet ctx)
      (hquiet : ∀ event ∈ quiet, event.IsQuiet ctx) (hcontext : Plain context)
      (hreply : (branchRun engine ctx graph execCtx machine.results winner winnerId).2 =
        some reply.text)
      (hresults : results = match reply.outcome context with
        | .ok value => withResult node value (reply.merge machine.results)
        | .error _ => reply.merge machine.results) :
      RaceRun engine ctx graph node execCtx machine (reply.outcome context)
        ⟨results, machine.log ++ (spawned ++
          ((branchRun engine ctx graph execCtx machine.results winner winnerId).1 ++
            (branchRun engine ctx graph execCtx machine.results loser loserId).1.take progress) ++
          (.decided ctx.site winner :: quiet))⟩

/-- The stamp for a losing loop is bookkeeping. -/
theorem cancel_losing_apply (ctx : OrchestrationContext) (graph : FunctionGraph)
    (branchId : String) (machine : Machine) :
    ∃ quiet, (∀ event ∈ quiet, Event.IsQuiet ctx event) ∧
      cancelLosingLoopBranch ctx graph branchId machine = (.ok (), machine.logged quiet) := by
  unfold cancelLosingLoopBranch
  split
  · exact ⟨[_], child_stamp_is_quiet ctx _ _ _ _ _, rfl⟩
  · exact ⟨[], by simp, by simp⟩

/-- The stamp for a failed loop child is bookkeeping. -/
theorem fail_loop_child_apply (ctx : OrchestrationContext) (graph : FunctionGraph)
    (loopNodeId : String) (error : NodeError) (machine : Machine) :
    ∃ quiet, (∀ event ∈ quiet, Event.IsQuiet ctx event) ∧
      failLoopChildFuture ctx graph loopNodeId error machine =
        (.error (.raised error), machine.logged quiet) :=
  ⟨[_], child_stamp_is_quiet ctx _ _ _ _ _, rfl⟩

/-- What a race does with the winner's reply. -/
theorem finish_race_apply (ctx : OrchestrationContext) (graph : FunctionGraph)
    (node : FunctionNode) (leftId rightId : String) (leftWins : Bool) (reply : ChildReply)
    (machine : Machine) :
    ∃ context quiet, Plain context ∧ (∀ event ∈ quiet, Event.IsQuiet ctx event) ∧
      finishRace ctx graph node leftId rightId leftWins reply.text machine =
        (reply.outcome context,
          ⟨match reply.outcome context with
            | .ok value => withResult node value (reply.merge machine.results)
            | .error _ => reply.merge machine.results, machine.log ++ quiet⟩) := by
  obtain ⟨cancel, hcancel, hrun⟩ := cancel_losing_apply ctx graph
    (if leftWins then rightId else leftId) machine
  have hplain : Plain (if leftWins then "RACE left branch failed"
      else "RACE right branch failed") := by
    cases leftWins <;> decide
  unfold finishRace
  rw [bind_ok hrun]
  generalize (if leftWins then "RACE left branch failed" else "RACE right branch failed") =
    context at hplain ⊢
  generalize (if leftWins then leftId else rightId) = winnerId
  cases reply with
  | error text =>
      simp only [ChildReply.text, ChildReply.outcome, ChildReply.merge]
      by_cases hloop : isLoopNode graph winnerId
      · obtain ⟨quiet, hquiet, hfail⟩ := fail_loop_child_apply ctx graph winnerId
          (contextualizeSubtreeFailure context text) (machine.logged cancel)
        refine ⟨context, cancel ++ quiet, hplain, ?_, ?_⟩
        · intro event hevent
          rcases List.mem_append.1 hevent with hevent | hevent
          · exact hcancel event hevent
          · exact hquiet event hevent
        · simp only [hloop, if_true]
          rw [bind_error hfail, logged_logged]
          rfl
      · simp only [hloop, Bool.false_eq_true, if_false]
        exact ⟨context, cancel, hplain, hcancel, rfl⟩
  | envelope control value results =>
      refine ⟨"RACE branch", cancel, by decide, hcancel, ?_⟩
      have hparse := parse_envelope_apply control value results "RACE branch"
        (machine.logged cancel)
      simp only [ChildReply.text, pure_bind, ChildReply.outcome, ChildReply.merge]
      cases control with
      | breakLoop =>
          rw [bind_error hparse]
          rfl
      | normal =>
          rw [bind_ok hparse, bind_ok (store_named_result_apply node value _)]
          rfl

/-- A race whose winner replied does what the reply says. -/
theorem race_finishes {engine : Engine} {ctx : OrchestrationContext} {graph : FunctionGraph}
    {node : FunctionNode} {execCtx : ExecutionContext} {machine : Machine}
    {winner loser progress : Nat} {winnerId loserId : String} {spawned : List Event}
    {reply : ChildReply} (hdistinct : winner ≠ loser) (hwinner : winnerId ∈ childIds node)
    (hloser : loserId ∈ childIds node) (hspawned : ∀ event ∈ spawned, event.IsQuiet ctx)
    (hreply : (branchRun engine ctx graph execCtx machine.results winner winnerId).2 =
      some reply.text) (leftId rightId : String) (leftWins : Bool) :
    let run := finishRace ctx graph node leftId rightId leftWins reply.text
      (machine.logged (spawned ++
        ((branchRun engine ctx graph execCtx machine.results winner winnerId).1 ++
          (branchRun engine ctx graph execCtx machine.results loser loserId).1.take progress) ++
        [.decided ctx.site winner]))
    RaceRun engine ctx graph node execCtx machine run.1 run.2 := by
  obtain ⟨context, quiet, hcontext, hquiet, hrun⟩ := finish_race_apply ctx graph node leftId
    rightId leftWins reply (machine.logged (spawned ++
      ((branchRun engine ctx graph execCtx machine.results winner winnerId).1 ++
        (branchRun engine ctx graph execCtx machine.results loser loserId).1.take progress) ++
      [.decided ctx.site winner]))
  dsimp only
  rw [hrun, logged_log, logged_results, List.append_assoc machine.log, List.append_assoc _ [_]]
  exact .replied hdistinct hwinner hloser hspawned hquiet hcontext hreply rfl

theorem race_runs {engine : Engine} (htyped : engine.Typed) {ctx : OrchestrationContext}
    {graph : FunctionGraph} {node : FunctionNode} {nodeId : String} {execCtx : ExecutionContext}
    (hkind : nodeKind node.nodeType = some .race) :
    Does (RaceRun engine ctx graph node execCtx)
      (executeRaceNode engine ctx graph node nodeId execCtx) := by
  have hplain : Plain "RACE node " := by decide
  refine does_missing (fun _ => .failed ((hplain.append _).append _)) fun leftId hleft =>
    does_missing (fun _ => .failed ((hplain.append _).append _)) fun rightId hright =>
      does_read fun machine => ?_
  have hleftId : leftId ∈ childIds node := by simp [childIds, hkind, hleft]
  have hrightId : rightId ∈ childIds node := by simp [childIds, hkind, hright]
  have hspawned : ∀ event ∈ [Event.spawned ctx.site
      (childContext ctx leftId (ctx.path ++ [.branch 0])).instanceId
      (buildSubtreeInput graph leftId machine.results execCtx),
      Event.spawned ctx.site (childContext ctx rightId (ctx.path ++ [.branch 1])).instanceId
      (buildSubtreeInput graph rightId machine.results execCtx)], event.IsQuiet ctx := by
    simp [Event.IsQuiet]
  have hselect := select_children_apply engine ctx machine
    (childContext ctx leftId (ctx.path ++ [.branch 0]))
    (childContext ctx rightId (ctx.path ++ [.branch 1]))
    (buildSubtreeInput graph leftId machine.results execCtx)
    (buildSubtreeInput graph rightId machine.results execCtx)
  cases hwins : ctx.world.leftWins ctx.path with
  | true =>
      simp only [winnerRun, loserRun, selectEvents, hwins, if_true] at hselect
      cases hreply : (branchRun engine ctx graph execCtx machine.results 0 leftId).2 with
      | none =>
          rw [← branchRun, ← branchRun, hreply] at hselect
          rw [bind_error hselect]
          exact .stuck (by decide) hleftId hrightId hspawned
      | some text =>
          obtain ⟨reply, rfl⟩ := htyped.child hreply
          rw [← branchRun, ← branchRun, hreply] at hselect
          rw [bind_ok hselect]
          exact race_finishes (by decide) hleftId hrightId hspawned hreply leftId rightId true
  | false =>
      simp only [winnerRun, loserRun, selectEvents, hwins, Bool.false_eq_true, if_false] at hselect
      cases hreply : (branchRun engine ctx graph execCtx machine.results 1 rightId).2 with
      | none =>
          rw [← branchRun, ← branchRun, hreply] at hselect
          rw [bind_error hselect]
          exact .stuck (by decide) hrightId hleftId hspawned
      | some text =>
          obtain ⟨reply, rfl⟩ := htyped.child hreply
          rw [← branchRun, ← branchRun, hreply] at hselect
          rw [bind_ok hselect]
          exact race_finishes (by decide) hrightId hleftId hspawned hreply leftId rightId false

/-! ## Loops -/

/-- The run of a loop that is not at the root of its orchestration. -/
def loopChildRun (engine : Engine) (ctx : OrchestrationContext) (graph : FunctionGraph)
    (nodeId : String) (execCtx : ExecutionContext) (results : StringMap) :
    List Event × Option (Except String String) :=
  runChild engine (childContext ctx nodeId ctx.path)
    (buildSubtreeInput graph nodeId results execCtx)

/-- What a loop that runs as a child can do to its parent. -/
inductive LoopChildRun (engine : Engine) (ctx : OrchestrationContext) (graph : FunctionGraph)
    (nodeId : String) (execCtx : ExecutionContext) (machine : Machine) :
    Except Stop String → Machine → Prop
  | failed {message : String} {quiet : List Event} (hplain : Plain message)
      (hquiet : ∀ event ∈ quiet, event.IsQuiet ctx) :
      LoopChildRun engine ctx graph nodeId execCtx machine (.error (.raised (.failure message)))
        (machine.logged quiet)
  | stuck {spawned : Event} (hspawned : spawned.IsQuiet ctx) :
      LoopChildRun engine ctx graph nodeId execCtx machine (.error .unresolved)
        (machine.logged (spawned ::
          (loopChildRun engine ctx graph nodeId execCtx machine.results).1))
  | replied {spawned : Event} {quiet : List Event} {reply : ChildReply}
      (hspawned : spawned.IsQuiet ctx) (hquiet : ∀ event ∈ quiet, event.IsQuiet ctx)
      (hreply : (loopChildRun engine ctx graph nodeId execCtx machine.results).2 =
        some reply.text) :
      LoopChildRun engine ctx graph nodeId execCtx machine
        (reply.outcome "Loop sub-orchestration failed")
        ⟨reply.merge machine.results, machine.log ++ (spawned ::
          ((loopChildRun engine ctx graph nodeId execCtx machine.results).1 ++ quiet))⟩

theorem loop_child_runs {engine : Engine} (htyped : engine.Typed) {ctx : OrchestrationContext}
    {graph : FunctionGraph} {node : FunctionNode} {nodeId : String}
    {execCtx : ExecutionContext} :
    Does (LoopChildRun engine ctx graph nodeId execCtx)
      (executeLoopSuborchestration engine ctx graph node nodeId execCtx) := by
  intro machine
  have hplain : Plain "LOOP node " := by decide
  unfold executeLoopSuborchestration
  by_cases hbody : node.leftNode.isNone
  · simp only [hbody, if_true]
    refine .failed ((hplain.append _).append _) ?_
    rintro _ (_ | _)
    · exact Or.inr (Or.inr ⟨_, _, _, _, _, Or.inl rfl, rfl⟩)
    · contradiction
  · simp only [hbody, Bool.false_eq_true, if_false]
    rw [bind_ok (read_results_apply machine)]
    have hrun := schedule_sub_apply engine ctx machine (childContext ctx nodeId ctx.path)
      (buildSubtreeInput graph nodeId machine.results execCtx)
    have hspawned : Event.IsQuiet ctx (.spawned ctx.site
        (childContext ctx nodeId ctx.path).instanceId
        (buildSubtreeInput graph nodeId machine.results execCtx)) := by
      simp [Event.IsQuiet]
    rw [← loopChildRun] at hrun
    generalize Event.spawned ctx.site (childContext ctx nodeId ctx.path).instanceId
      (buildSubtreeInput graph nodeId machine.results execCtx) = spawned at hrun hspawned
    cases hreply : (loopChildRun engine ctx graph nodeId execCtx machine.results).2 with
    | none =>
        rw [hreply] at hrun
        rw [bind_error hrun]
        exact .stuck hspawned
    | some text =>
        obtain ⟨reply, rfl⟩ := htyped.child hreply
        rw [hreply] at hrun
        rw [bind_ok hrun]
        cases reply with
        | envelope control value results =>
            have hreplied := @LoopChildRun.replied _ _ _ _ _ _ _ [] _ hspawned (by simp) hreply
            rw [List.append_nil] at hreplied
            simp only [ChildReply.text]
            rw [parse_envelope_apply]
            exact hreplied
        | error text =>
            obtain ⟨quiet, hquiet, hfail⟩ := fail_loop_child_apply ctx graph nodeId
              (contextualizeSubtreeFailure "Loop sub-orchestration failed" text)
              (machine.logged (spawned ::
                (loopChildRun engine ctx graph nodeId execCtx machine.results).1))
            simp only [ChildReply.text]
            rw [hfail, logged_logged]
            exact .replied hspawned hquiet hreply

/-- How the body of a loop iteration ends. -/
inductive BodyResult where
  | finished (value : String)
  /-- An application failure that the loop consumes. -/
  | consumed
  | broke (value : String)
  | stopped (stop : Stop)

/-- How an inline body ends. -/
def inlineBodyResult : Except Stop String → BodyResult
  | .ok value => .finished value
  | .error (.raised (.breakWith value)) => .broke value
  | .error stop => .stopped stop

/-- How a failure-isolated body ends. -/
def isolatedBodyResult : ChildReply → BodyResult
  | .envelope .normal value _ => .finished value
  | .envelope .breakLoop value _ => .broke value
  | .error text =>
      match decodeSubtreeApplicationFailure text with
      | some _ => .consumed
      | none => .stopped (.raised (.failure text))

/-- A failure-isolated body is classified by its reply, and its map is merged. -/
theorem classify_isolated_apply (reply : ChildReply) (machine : Machine) :
    classifyIsolatedBodyResult reply.text machine =
      (match isolatedBodyResult reply with
        | .finished value => .ok (.succeeded value)
        | .consumed => .ok .applicationFailed
        | .broke value => .ok (.breakWith value)
        | .stopped stop => .error stop,
      { machine with results := reply.merge machine.results }) := by
  cases reply with
  | error text =>
      simp only [ChildReply.text, classifyIsolatedBodyResult, isolatedBodyResult, ChildReply.merge]
      cases decodeSubtreeApplicationFailure text <;> rfl
  | envelope control value results =>
      have hattempt : attempt (parseSubtreeEnvelope
          (SubtreeEnvelope.toJson ⟨some control, value, results⟩) "LOOP iteration") machine =
          (.ok (control.outcome value),
            { machine with results := overlay machine.results results }) := by
        rw [attempt_apply, parse_envelope_apply]
      simp only [ChildReply.text, classifyIsolatedBodyResult]
      rw [bind_ok hattempt]
      cases control <;> rfl

section Iterations

variable (engine : Engine) (ctx : OrchestrationContext) (graph : FunctionGraph)
  (node : FunctionNode) (nodeId : String) (execCtx : ExecutionContext) (config : LoopConfig)
  (bodyId : String)

/-- The run of a failure-isolated body. -/
def isolatedRun (results : StringMap) : List Event × Option (Except String String) :=
  runChild engine (childContext ctx bodyId (ctx.path ++ [.loopBody execCtx.loopIteration]))
    (buildSubtreeInput graph bodyId results { execCtx with failureIsolated := true })

/-- What the body of an iteration can do. -/
inductive BodyRun (machine : Machine) : BodyResult → Machine → Prop
  | inline {outcome : Except Stop String} {after : Machine}
      (hmode : config.continueOnFailure = false)
      (hrun : engine.node (ctx.down (.loopBody execCtx.loopIteration)) graph bodyId execCtx
        machine = (outcome, after)) :
      BodyRun machine (inlineBodyResult outcome) after
  | stuck {spawned : Event} (hmode : config.continueOnFailure = true)
      (hspawned : spawned.IsQuiet ctx) :
      BodyRun machine (.stopped .unresolved)
        (machine.logged (spawned ::
          (isolatedRun engine ctx graph execCtx bodyId machine.results).1))
  | isolated {spawned : Event} {reply : ChildReply} (hmode : config.continueOnFailure = true)
      (hspawned : spawned.IsQuiet ctx)
      (hreply : (isolatedRun engine ctx graph execCtx bodyId machine.results).2 =
        some reply.text) :
      BodyRun machine (isolatedBodyResult reply)
        ⟨reply.merge machine.results, machine.log ++ (spawned ::
          (isolatedRun engine ctx graph execCtx bodyId machine.results).1)⟩

/-- How an iteration ends after its condition: with the loop's result, or with none to go on. -/
def conditionEnd (bodyResult : String) : Except Stop String → Except Stop (Option String)
  | .ok conditionResult =>
      .ok (if (evaluateCondition conditionResult).toOption.getD false then none
        else some bodyResult)
  | .error (.raised (.breakWith value)) => .ok (some value)
  | .error (.raised (.application message)) => .error (.raised (.failure message))
  | .error stop => .error stop

/-- What an iteration of a loop can do. -/
inductive IterationRun (machine : Machine) : Except Stop (Option String) → Machine → Prop
  | stopped {stop : Stop} {after : Machine}
      (hbody : BodyRun engine ctx graph execCtx config bodyId machine (.stopped stop) after) :
      IterationRun machine (.error stop) after
  | consumed {after : Machine}
      (hbody : BodyRun engine ctx graph execCtx config bodyId machine .consumed after) :
      IterationRun machine (.ok none) after
  | broke {value : String} {after : Machine}
      (hbody : BodyRun engine ctx graph execCtx config bodyId machine (.broke value) after) :
      IterationRun machine (.ok (some value))
        { after with results := withResult node value after.results }
  | unconditional {value : String} {after : Machine}
      (hbody : BodyRun engine ctx graph execCtx config bodyId machine (.finished value) after)
      (hcondition : config.conditionNode = none) :
      IterationRun machine (.ok none) after
  | conditional {value conditionId : String} {outcome : Except Stop String}
      {middle after : Machine} {results : StringMap}
      (hbody : BodyRun engine ctx graph execCtx config bodyId machine (.finished value) middle)
      (hcondition : config.conditionNode = some conditionId)
      (hrun : engine.node (ctx.down (.loopCondition execCtx.loopIteration)) graph conditionId
        execCtx middle = (outcome, after))
      (hresults : results = match conditionEnd value outcome with
        | .ok (some final) => withResult node final after.results
        | _ => after.results) :
      IterationRun machine (conditionEnd value outcome) { after with results := results }

/-- What a loop at the root of its orchestration can do in one generation. -/
inductive LoopRun (machine : Machine) : Except Stop String → Machine → Prop
  | failed {message : String} (hplain : Plain message) :
      LoopRun machine (.error (.raised (.failure message))) machine
  | stopped {config : LoopConfig} {bodyId : String} {stop : Stop} {after : Machine}
      (hbody : node.leftNode = some bodyId) (hconfig : parseLoopConfig node nodeId = .ok config)
      (hiteration : IterationRun engine ctx graph node execCtx config bodyId machine
        (.error stop) after) :
      LoopRun machine (.error stop) after
  | ended {config : LoopConfig} {bodyId value : String} {after : Machine}
      (hbody : node.leftNode = some bodyId) (hconfig : parseLoopConfig node nodeId = .ok config)
      (hiteration : IterationRun engine ctx graph node execCtx config bodyId machine
        (.ok (some value)) after) :
      LoopRun machine (.ok value) after
  | exhausted {config : LoopConfig} {bodyId message : String} {after : Machine}
      (hbody : node.leftNode = some bodyId) (hconfig : parseLoopConfig node nodeId = .ok config)
      (hiteration : IterationRun engine ctx graph node execCtx config bodyId machine (.ok none)
        after)
      (hlimit : maxLoopIterations ≤ execCtx.loopIteration + 1) (hplain : Plain message) :
      LoopRun machine (.error (.raised (.failure message))) after
  | continued {config : LoopConfig} {bodyId : String} {after : Machine} {quiet : List Event}
      (hbody : node.leftNode = some bodyId) (hconfig : parseLoopConfig node nodeId = .ok config)
      (hiteration : IterationRun engine ctx graph node execCtx config bodyId machine (.ok none)
        after)
      (hlimit : execCtx.loopIteration + 1 < maxLoopIterations)
      (hquiet : ∀ event ∈ quiet, event.IsQuiet ctx) :
      LoopRun machine (.error (.continuedAsNew (continuationInput graph nodeId execCtx
        after.results (execCtx.loopIteration + 1)))) (after.logged quiet)

end Iterations

section Loops

variable {engine : Engine} {ctx : OrchestrationContext} {graph : FunctionGraph}
  {node : FunctionNode} {nodeId : String} {execCtx : ExecutionContext} {config : LoopConfig}
  {bodyId : String}

/-- What the condition of an iteration does after a body that finished. -/
theorem condition_runs {machine middle : Machine} {value : String}
    (hbody : BodyRun engine ctx graph execCtx config bodyId machine (.finished value) middle) :
    IterationRun engine ctx graph node execCtx config bodyId machine
      (evaluateLoopCondition engine ctx graph node execCtx config.conditionNode value middle).1
      (evaluateLoopCondition engine ctx graph node execCtx config.conditionNode value middle).2 := by
  unfold evaluateLoopCondition
  cases hcondition : config.conditionNode with
  | none => exact .unconditional hbody hcondition
  | some conditionId =>
      rcases hrun : engine.node (ctx.down (.loopCondition execCtx.loopIteration)) graph conditionId
        execCtx middle with ⟨outcome, after⟩
      have hattempt : attempt (engine.node (ctx.down (.loopCondition execCtx.loopIteration)) graph
          conditionId execCtx) middle = (.ok outcome, after) := by
        rw [attempt_apply, hrun]
      have hiteration := @IterationRun.conditional engine ctx graph node execCtx config bodyId
        machine value conditionId outcome middle after _ hbody hcondition hrun rfl
      dsimp only
      rw [bind_ok hattempt]
      rcases outcome with ((final | message | message) | input | _) | conditionResult
      · simp only [bind_apply, store_named_result_apply, pure_apply]
        exact hiteration
      · exact hiteration
      · exact hiteration
      · exact hiteration
      · exact hiteration
      · obtain ⟨isTrue, hevaluate⟩ := evaluate_condition_ok conditionResult
        simp only [conditionEnd, hevaluate, Except.toOption, Option.getD_some] at hiteration ⊢
        cases isTrue with
        | true => exact hiteration
        | false =>
            simp only [Bool.false_eq_true, if_false, bind_apply, store_named_result_apply,
              pure_apply] at hiteration ⊢
            exact hiteration

/-- What the body of a loop does, and what the iteration makes of it. -/
theorem iteration_runs (htyped : engine.Typed) :
    Does (IterationRun engine ctx graph node execCtx config bodyId)
      (loopIteration engine ctx graph node execCtx config bodyId) := by
  intro machine
  unfold loopIteration
  cases hmode : config.continueOnFailure with
  | false =>
      rcases hrun : engine.node (ctx.down (.loopBody execCtx.loopIteration)) graph bodyId execCtx
        machine with ⟨outcome, after⟩
      have hattempt : attempt (engine.node (ctx.down (.loopBody execCtx.loopIteration)) graph
          bodyId execCtx) machine = (.ok outcome, after) := by
        rw [attempt_apply, hrun]
      have hbody := BodyRun.inline hmode hrun
      simp only [Bool.false_eq_true, if_false]
      unfold runLoopIteration
      rw [bind_ok hattempt]
      rcases outcome with ((value | message | message) | input | _) | value
      · simp only [bind_apply, store_named_result_apply, pure_apply]
        exact .broke hbody
      · exact .stopped hbody
      · exact .stopped hbody
      · exact .stopped hbody
      · exact .stopped hbody
      · exact condition_runs hbody
  | true =>
      have hrun := schedule_sub_apply engine ctx machine
        (childContext ctx bodyId (ctx.path ++ [.loopBody execCtx.loopIteration]))
        (buildSubtreeInput graph bodyId machine.results { execCtx with failureIsolated := true })
      have hspawned : Event.IsQuiet ctx (.spawned ctx.site
          (childContext ctx bodyId (ctx.path ++ [.loopBody execCtx.loopIteration])).instanceId
          (buildSubtreeInput graph bodyId machine.results
            { execCtx with failureIsolated := true })) := by
        simp [Event.IsQuiet]
      generalize Event.spawned ctx.site
        (childContext ctx bodyId (ctx.path ++ [.loopBody execCtx.loopIteration])).instanceId
        (buildSubtreeInput graph bodyId machine.results
          { execCtx with failureIsolated := true }) = spawned at hrun hspawned
      rw [← isolatedRun] at hrun
      simp only [if_true]
      unfold runFailureIsolatedBody
      simp only [bind_assoc]
      rw [bind_ok (read_results_apply machine)]
      cases hreply : (isolatedRun engine ctx graph execCtx bodyId machine.results).2 with
      | none =>
          rw [hreply] at hrun
          rw [bind_error hrun]
          exact .stopped (.stuck hmode hspawned)
      | some text =>
          obtain ⟨reply, rfl⟩ := htyped.child hreply
          rw [hreply] at hrun
          rw [bind_ok hrun]
          have hbody := BodyRun.isolated hmode hspawned hreply
          have hclassify := classify_isolated_apply reply (machine.logged (spawned ::
            (isolatedRun engine ctx graph execCtx bodyId machine.results).1))
          cases hresult : isolatedBodyResult reply with
          | finished value =>
              rw [hresult] at hbody hclassify
              rw [bind_ok hclassify]
              exact condition_runs hbody
          | consumed =>
              rw [hresult] at hbody hclassify
              rw [bind_ok hclassify]
              exact .consumed hbody
          | broke value =>
              rw [hresult] at hbody hclassify
              rw [bind_ok hclassify]
              simp only [bind_apply, store_named_result_apply, pure_apply]
              exact .broke hbody
          | stopped stop =>
              rw [hresult] at hbody hclassify
              rw [bind_error hclassify]
              exact .stopped hbody

/-- The configuration of a loop fails to parse with a plain text. -/
theorem parse_loop_config_plain (node : FunctionNode) (nodeId : String) :
    ErrorsPlain (parseLoopConfig node nodeId) := by
  have hplain : Plain "LOOP node " := by decide
  unfold parseLoopConfig
  split
  · exact errors_plain_map_error _ ((hplain.append _).append _)
  · exact errors_plain_ok _

/-- A loop executes its body and, if it has one, its condition. -/
theorem loop_child_ids (hkind : nodeKind node.nodeType = some .loop)
    (hbody : node.leftNode = some bodyId) (hconfig : parseLoopConfig node nodeId = .ok config) :
    childIds node = bodyId :: config.conditionNode.toList := by
  unfold parseLoopConfig at hconfig
  cases hquery : node.query with
  | none =>
      simp only [hquery, Except.ok.injEq] at hconfig
      subst hconfig
      simp [childIds, hkind, hbody, hquery, LoopConfig.default]
  | some query =>
      rw [hquery] at hconfig
      cases hjson : LoopConfig.ofJson query with
      | error message => simp [hjson, Except.mapError] at hconfig
      | ok parsed =>
          simp only [hjson, Except.mapError, Except.ok.injEq] at hconfig
          subst hconfig
          simp [childIds, hkind, hbody, hquery, hjson, Except.toOption]

/-- The body and the condition of a loop are its children. -/
theorem loop_part_is_child (hkind : nodeKind node.nodeType = some .loop)
    (hbody : node.leftNode = some bodyId) (hconfig : parseLoopConfig node nodeId = .ok config)
    (id : String) (hid : id = bodyId ∨ config.conditionNode = some id) : id ∈ childIds node := by
  rw [loop_child_ids hkind hbody hconfig]
  rcases hid with rfl | hcondition
  · exact List.mem_cons_self
  · rw [hcondition]
    exact List.mem_cons_of_mem _ List.mem_cons_self

/-- The delay between iterations is bookkeeping. -/
theorem rate_limit_apply (ctx : OrchestrationContext) (execCtx : ExecutionContext)
    (iterStarted : Except String Int) (machine : Machine) :
    ∃ pause, (∀ event ∈ pause, Event.IsEffect ctx.site event) ∧
      rateLimit ctx execCtx iterStarted machine = (.ok (), machine.logged pause) := by
  have hnone : ∃ pause, (∀ event ∈ pause, Event.IsEffect ctx.site event) ∧
      (pure () : Orch Unit) machine = (.ok (), machine.logged pause) := ⟨[], by simp, by simp⟩
  unfold rateLimit
  cases iterStarted with
  | error message => exact hnone
  | ok started =>
      cases ctx.world.utcNow (ctx.path ++ [.loopBody execCtx.loopIteration]) 1 with
      | error message => exact hnone
      | ok now =>
          by_cases hfast : max 0 (now - started) < loopMinIterDuration
          · simp only [hfast, if_true]
            exact ⟨[_], by simp [Event.IsEffect], rfl⟩
          · simp only [hfast, if_false]
            exact hnone

theorem loop_runs (htyped : engine.Typed) :
    Does (LoopRun engine ctx graph node nodeId execCtx)
      (executeLoopNode engine ctx graph node nodeId execCtx) := by
  have hplain : Plain "LOOP node " := by decide
  refine does_missing (fun _ => .failed ((hplain.append _).append _)) fun bodyId hbody =>
    does_or_fail (fun message hmessage _ =>
      .failed (parse_loop_config_plain node nodeId message hmessage)) fun config hconfig machine => ?_
  have hiteration := @iteration_runs engine ctx graph node execCtx config bodyId htyped machine
  dsimp only
  rcases hrun : loopIteration engine ctx graph node execCtx config bodyId machine with
    ⟨outcome, after⟩
  rw [hrun] at hiteration
  rcases outcome with stop | (_ | value)
  · rw [bind_error hrun]
    exact .stopped hbody hconfig hiteration
  · rw [bind_ok hrun]
    by_cases hlimit : execCtx.loopIteration + 1 ≥ maxLoopIterations
    · simp only [hlimit, if_true]
      refine .exhausted hbody hconfig hiteration hlimit ?_
      exact Plain.append (Plain.append (by decide) _) _
    · simp only [hlimit, if_false]
      obtain ⟨pause, hpause, hrate⟩ := rate_limit_apply ctx execCtx
        (ctx.world.utcNow (ctx.path ++ [.loopBody execCtx.loopIteration]) 0) after
      rw [bind_ok hrate, bind_ok (read_results_apply _)]
      exact .continued hbody hconfig hiteration (by omega)
        fun event hevent => Or.inl (hpause event hevent)
  · rw [bind_ok hrun]
    exact .ended hbody hconfig hiteration

end Loops

/-! ## Nodes -/

/-- What the logic of a node can do. -/
inductive InnerRun (engine : Engine) (ctx : OrchestrationContext) (graph : FunctionGraph)
    (node : FunctionNode) (nodeId : String) (execCtx : ExecutionContext) (machine : Machine)
    (outcome : Except Stop String) (after : Machine) : Prop
  | leaf (hrun : LeafRun ctx node machine outcome after)
  | sequence (hkind : unstoredResult node = none)
      (hrun : SequenceRun engine ctx graph node execCtx machine outcome after)
  | join (hkind : unstoredResult node = none)
      (hrun : JoinRun engine ctx graph node execCtx machine outcome after)
  | race (hkind : unstoredResult node = none)
      (hrun : RaceRun engine ctx graph node execCtx machine outcome after)
  | loop (hkind : nodeKind node.nodeType = some .loop)
      (hrun : LoopRun engine ctx graph node nodeId execCtx machine outcome after)

/-- The handler of a loop node. -/
theorem inner_loop {engine : Engine} {ctx : OrchestrationContext} {graph : FunctionGraph}
    {node : FunctionNode} {nodeId : String} {execCtx : ExecutionContext}
    (hkind : nodeKind node.nodeType = some .loop) :
    executeNodeInner engine ctx graph node nodeId execCtx =
      executeLoopNode engine ctx graph node nodeId execCtx := by
  unfold executeNodeInner
  rw [hkind]

/-- The handler of a join node. -/
theorem inner_join {engine : Engine} {ctx : OrchestrationContext} {graph : FunctionGraph}
    {node : FunctionNode} {nodeId : String} {execCtx : ExecutionContext}
    (hkind : nodeKind node.nodeType = some .join) :
    executeNodeInner engine ctx graph node nodeId execCtx =
      executeJoinNode engine ctx graph node nodeId execCtx := by
  unfold executeNodeInner
  rw [hkind]

theorem inner_runs {engine : Engine} (htyped : engine.Typed) {ctx : OrchestrationContext}
    {graph : FunctionGraph} {node : FunctionNode} {nodeId : String}
    {execCtx : ExecutionContext} :
    Does (InnerRun engine ctx graph node nodeId execCtx)
      (executeNodeInner engine ctx graph node nodeId execCtx) := by
  intro machine
  unfold executeNodeInner
  cases hkind : nodeKind node.nodeType with
  | none => exact .leaf (.failed (Plain.append (by decide) _))
  | some kind =>
      cases kind with
      | sleep => exact .leaf (sleep_is_leaf ctx node nodeId hkind machine)
      | waitSchedule => exact .leaf (wait_schedule_is_leaf ctx node nodeId hkind machine)
      | breakNode => exact .leaf (break_is_leaf ctx node hkind machine)
      | loop => exact .loop hkind (loop_runs htyped machine)
      | sql =>
          exact .leaf (sql_is_leaf ctx node nodeId execCtx _ _ (by simp [unstoredResult, hkind]) _)
      | http =>
          exact .leaf (http_is_leaf ctx node nodeId execCtx _ (by simp [unstoredResult, hkind]) _)
      | httpMultipart =>
          exact .leaf (http_multipart_is_leaf ctx node nodeId execCtx _
            (by simp [unstoredResult, hkind]) _)
      | signal =>
          exact .leaf (signal_is_leaf ctx node nodeId (by simp [unstoredResult, hkind]) _)
      | thenNode =>
          exact .sequence (by simp [unstoredResult, hkind]) (then_runs hkind machine)
      | ifNode => exact .sequence (by simp [unstoredResult, hkind]) (if_runs hkind machine)
      | join => exact .join (by simp [unstoredResult, hkind]) (join_runs htyped hkind machine)
      | race => exact .race (by simp [unstoredResult, hkind]) (race_runs htyped hkind machine)

/-- The two ways in which the source recognises a loop agree. -/
theorem is_loop_type_iff (nodeType : String) :
    isLoopType nodeType = true ↔ nodeKind nodeType = some .loop := by
  have hletter : ∀ target ∈ "loop".toList, ∀ c, toLowercase c = target ↔ c.toLower = target := by
    intro target htarget c
    unfold toLowercase
    split_ifs with hkelvin
    · subst hkelvin
      have hletters : target = 'l' ∨ target = 'o' ∨ target = 'o' ∨ target = 'p' := by
        simpa using htarget
      rcases hletters with rfl | rfl | rfl | rfl <;> decide
    · rfl
  have hletters : ∀ letters : List Char, letters.map toLowercase = "loop".toList ↔
      letters.map Char.toLower = "loop".toList := by
    intro letters
    generalize "loop".toList = target at hletter
    induction target generalizing letters with
    | nil => simp
    | cons first target ih =>
        cases letters with
        | nil => simp
        | cons c letters =>
            rw [List.map_cons, List.map_cons, List.cons.injEq, List.cons.injEq,
              hletter first (by simp) c,
              ih letters fun other hother => hletter other (by simp [hother])]
  have hkind : nodeKind nodeType = some .loop ↔ lowercaseType nodeType = "loop" := by
    unfold nodeKind
    split <;> simp_all
  rw [hkind, isLoopType, beq_iff_eq, lowercaseType, ← hletters]
  constructor
  · intro h
    rw [h, String.ofList_toList]
  · intro h
    rw [← h, String.toList_ofList]

/-- The event of a status write. -/
def statusEvent (ctx : OrchestrationContext) (graph : FunctionGraph) (nodeId status : String)
    (result : Option String) : Event :=
  .activity ctx.site updateNodeStatusName
    (serializeNodeStatusInput nodeId graph.instanceId status result ctx.stamp)
    (ctx.world.activity ctx.path updateNodeStatusName
      (serializeNodeStatusInput nodeId graph.instanceId status result ctx.stamp) 0)

@[simp] theorem write_node_status_apply (ctx : OrchestrationContext) (graph : FunctionGraph)
    (nodeId status : String) (result : Option String) (machine : Machine) :
    writeNodeStatus ctx graph nodeId status result machine =
      (.ok (), machine.logged [statusEvent ctx graph nodeId status result]) := rfl

/-- The status that a node has after an error: a break completes it. -/
def errorStatus : NodeError → String
  | .breakWith _ => "completed"
  | _ => "failed"

/-- What executing a node can do. -/
inductive NodeRun (engine : Engine) (ctx : OrchestrationContext) (graph : FunctionGraph)
    (nodeId : String) (execCtx : ExecutionContext) (machine : Machine) :
    Except Stop String → Machine → Prop
  | missing {message : String} (hnode : graph.nodes[nodeId]? = none) (hplain : Plain message) :
      NodeRun engine ctx graph nodeId execCtx machine (.error (.raised (.failure message))) machine
  | child {node : FunctionNode} {outcome : Except Stop String} {after : Machine}
      (hnode : graph.nodes[nodeId]? = some node) (hkind : nodeKind node.nodeType = some .loop)
      (hroot : nodeId ≠ execCtx.subtreeRoot)
      (hrun : LoopChildRun engine ctx graph nodeId execCtx
        (machine.logged [.visited ctx.site nodeId]) outcome after) :
      NodeRun engine ctx graph nodeId execCtx machine outcome after
  | returned {node : FunctionNode} {value : String} {after : Machine}
      (hnode : graph.nodes[nodeId]? = some node)
      (hroot : nodeKind node.nodeType = some .loop → nodeId = execCtx.subtreeRoot)
      (hrun : InnerRun engine ctx graph node nodeId execCtx (machine.logged
        [.visited ctx.site nodeId, statusEvent ctx graph nodeId "running" none]) (.ok value) after) :
      NodeRun engine ctx graph nodeId execCtx machine (.ok value)
        (after.logged [statusEvent ctx graph nodeId "completed" (some value),
          .finished ctx.site nodeId (.ok value)])
  | raised {node : FunctionNode} {error : NodeError} {after : Machine}
      (hnode : graph.nodes[nodeId]? = some node)
      (hroot : nodeKind node.nodeType = some .loop → nodeId = execCtx.subtreeRoot)
      (hrun : InnerRun engine ctx graph node nodeId execCtx (machine.logged
        [.visited ctx.site nodeId, statusEvent ctx graph nodeId "running" none])
        (.error (.raised error)) after) :
      NodeRun engine ctx graph nodeId execCtx machine (.error (.raised error))
        (after.logged [statusEvent ctx graph nodeId (errorStatus error) (some error.message),
          .finished ctx.site nodeId (.error error)])
  | stopped {node : FunctionNode} {stop : Stop} {after : Machine}
      (hnode : graph.nodes[nodeId]? = some node)
      (hroot : nodeKind node.nodeType = some .loop → nodeId = execCtx.subtreeRoot)
      (hstop : ∀ error, stop ≠ .raised error)
      (hrun : InnerRun engine ctx graph node nodeId execCtx (machine.logged
        [.visited ctx.site nodeId, statusEvent ctx graph nodeId "running" none])
        (.error stop) after) :
      NodeRun engine ctx graph nodeId execCtx machine (.error stop) after

/-- The machine on which the handler of a node starts. -/
def started (ctx : OrchestrationContext) (graph : FunctionGraph) (nodeId : String)
    (machine : Machine) : Machine :=
  machine.logged [.visited ctx.site nodeId, statusEvent ctx graph nodeId "running" none]

/-- What becomes of the run of a handler: a node that has an outcome writes its status. -/
def closed (ctx : OrchestrationContext) (graph : FunctionGraph) (nodeId : String) :
    Except Stop String × Machine → Except Stop String × Machine
  | (.ok value, after) =>
      (.ok value, after.logged [statusEvent ctx graph nodeId "completed" (some value),
        .finished ctx.site nodeId (.ok value)])
  | (.error (.raised error), after) =>
      (.error (.raised error), after.logged
        [statusEvent ctx graph nodeId (errorStatus error) (some error.message),
          .finished ctx.site nodeId (.error error)])
  | (.error stop, after) => (.error stop, after)

@[simp] theorem closed_outcome (ctx : OrchestrationContext) (graph : FunctionGraph)
    (nodeId : String) (run : Except Stop String × Machine) :
    (closed ctx graph nodeId run).1 = run.1 := by
  rcases run with ⟨(error | input | _) | value, after⟩ <;> rfl

@[simp] theorem closed_results (ctx : OrchestrationContext) (graph : FunctionGraph)
    (nodeId : String) (run : Except Stop String × Machine) :
    (closed ctx graph nodeId run).2.results = run.2.results := by
  rcases run with ⟨(error | input | _) | value, after⟩ <;> rfl

/-- A node is executed between its two status writes. -/
theorem stamped_node_apply (engine : Engine) (ctx : OrchestrationContext) (graph : FunctionGraph)
    (node : FunctionNode) (nodeId : String) (execCtx : ExecutionContext) (machine : Machine) :
    executeStampedNode engine ctx graph node nodeId execCtx
        (machine.logged [.visited ctx.site nodeId]) =
      closed ctx graph nodeId (executeNodeInner engine ctx graph node nodeId execCtx
        (started ctx graph nodeId machine)) := by
  unfold executeStampedNode
  rw [bind_ok (write_node_status_apply _ _ _ _ _ _), logged_logged]
  rcases hrun : executeNodeInner engine ctx graph node nodeId execCtx
    (started ctx graph nodeId machine) with ⟨outcome, after⟩
  have hattempt : attempt (executeNodeInner engine ctx graph node nodeId execCtx)
      (machine.logged ([.visited ctx.site nodeId] ++
        [statusEvent ctx graph nodeId "running" none])) = (.ok outcome, after) := by
    rw [attempt_apply, List.singleton_append, ← started, hrun]
  rw [bind_ok hattempt]
  rcases outcome with (error | input | _) | value
  · cases error <;>
      simp only [bind_apply, write_node_status_apply, emit_apply, logged_logged, raise_apply] <;>
      rfl
  · rfl
  · rfl
  · simp only [bind_apply, write_node_status_apply, emit_apply, logged_logged, pure_apply]
    rfl

/-- A node that is no loop below the root of its orchestration is executed there. -/
theorem node_applies {engine : Engine} {ctx : OrchestrationContext} {graph : FunctionGraph}
    {node : FunctionNode} {nodeId : String} {execCtx : ExecutionContext}
    (hnode : graph.nodes[nodeId]? = some node)
    (hroot : nodeKind node.nodeType = some .loop → nodeId = execCtx.subtreeRoot)
    (machine : Machine) :
    executeFunctionNodeWithVars engine ctx graph nodeId execCtx machine =
      closed ctx graph nodeId (executeNodeInner engine ctx graph node nodeId execCtx
        (started ctx graph nodeId machine)) := by
  have hchild : (isLoopType node.nodeType && nodeId != execCtx.subtreeRoot) = false := by
    rw [Bool.eq_false_iff]
    intro hboth
    rw [Bool.and_eq_true, is_loop_type_iff] at hboth
    simpa [hroot hboth.1] using hboth.2
  unfold executeFunctionNodeWithVars
  rw [hnode, or_missing_some, pure_bind, bind_ok (emit_apply machine _), hchild]
  exact stamped_node_apply engine ctx graph node nodeId execCtx machine

/-- A loop below the root of its orchestration runs as a child. -/
theorem loop_child_applies {engine : Engine} {ctx : OrchestrationContext} {graph : FunctionGraph}
    {node : FunctionNode} {nodeId : String} {execCtx : ExecutionContext}
    (hnode : graph.nodes[nodeId]? = some node) (hkind : nodeKind node.nodeType = some .loop)
    (hroot : nodeId ≠ execCtx.subtreeRoot) (machine : Machine) :
    executeFunctionNodeWithVars engine ctx graph nodeId execCtx machine =
      executeLoopSuborchestration engine ctx graph node nodeId execCtx
        (machine.logged [.visited ctx.site nodeId]) := by
  have hchild : (isLoopType node.nodeType && nodeId != execCtx.subtreeRoot) = true := by
    rw [Bool.and_eq_true, is_loop_type_iff]
    exact ⟨hkind, by simpa using hroot⟩
  unfold executeFunctionNodeWithVars
  rw [hnode, or_missing_some, pure_bind, bind_ok (emit_apply machine _), if_pos hchild]

theorem node_runs {engine : Engine} (htyped : engine.Typed) {ctx : OrchestrationContext}
    {graph : FunctionGraph} {nodeId : String} {execCtx : ExecutionContext} :
    Does (NodeRun engine ctx graph nodeId execCtx)
      (executeFunctionNodeWithVars engine ctx graph nodeId execCtx) := by
  intro machine
  cases hnode : graph.nodes[nodeId]? with
  | none =>
      unfold executeFunctionNodeWithVars
      rw [hnode]
      exact .missing hnode (Plain.append (by decide) _)
  | some node =>
      by_cases hchild : nodeKind node.nodeType = some .loop ∧ nodeId ≠ execCtx.subtreeRoot
      · obtain ⟨hkind, hroot⟩ := hchild
        rw [loop_child_applies hnode hkind hroot]
        exact .child hnode hkind hroot (loop_child_runs htyped _)
      · have hroot : nodeKind node.nodeType = some .loop → nodeId = execCtx.subtreeRoot :=
          fun hkind => not_not.1 fun hne => hchild ⟨hkind, hne⟩
        rw [node_applies hnode hroot]
        have hinner := @inner_runs engine htyped ctx graph node nodeId execCtx
          (started ctx graph nodeId machine)
        rcases hrun : executeNodeInner engine ctx graph node nodeId execCtx
          (started ctx graph nodeId machine) with ⟨(error | input | _) | value, after⟩ <;>
          rw [hrun] at hinner
        · exact .raised hnode hroot hinner
        · exact .stopped hnode hroot (by simp) hinner
        · exact .stopped hnode hroot (by simp) hinner
        · exact .returned hnode hroot hinner

end PgDurable.Orchestration
