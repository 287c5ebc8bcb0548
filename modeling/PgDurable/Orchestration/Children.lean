import PgDurable.Orchestration.Execute

/-!
# What a child does

The texts between an orchestration and its children are read as what was written, so a child can
be described without them. `run_subtree_reads` says that a child runs its root node on the named
results it was handed, and either returns what `endSubtree` makes of the outcome or starts its next
generation. `parse_envelope_apply` says what its parent makes of the envelope.
-/

namespace PgDurable.Orchestration

open Json

/-! ## Inputs -/

/-- The execution context in which a child runs an iteration of its root node. -/
def ExecutionContext.enter (execCtx : ExecutionContext) (nodeId : String) (iteration : Nat) :
    ExecutionContext :=
  ⟨execCtx.vars, execCtx.label, execCtx.failureIsolated, iteration, nodeId, .subtree⟩

/-- The input of a child that runs an iteration of its root node. -/
def subtreeText (graph : FunctionGraph) (nodeId : String) (results : StringMap)
    (execCtx : ExecutionContext) (iteration : Nat) : String :=
  SubtreeInput.toJson
    ⟨graph.instanceId, nodeId, graph.toJson, print (encodeStringMap results),
      some (print (encodeStringMap execCtx.vars)), execCtx.label, iteration,
      execCtx.failureIsolated⟩

section Inputs

variable (engine : Engine) (ctx : OrchestrationContext) (graph : FunctionGraph) (nodeId : String)
  (results : StringMap) (execCtx : ExecutionContext)

/-- A scheduled child starts with its first iteration. -/
theorem build_subtree_input_eq :
    buildSubtreeInput graph nodeId results execCtx =
      subtreeText graph nodeId results execCtx 0 := rfl

/-- A child continues as new with its next iteration. -/
theorem continuation_input_eq (h : execCtx.continuation = .subtree) (iteration : Nat) :
    continuationInput graph nodeId execCtx results iteration =
      subtreeText graph nodeId results execCtx iteration := by
  rw [continuationInput, h]
  rfl

/-- A child runs its root node on the graph, the named results and the variables it was handed. -/
theorem execute_subtree_reads {iteration : Nat} (h : iteration < 2 ^ 64) :
    executeSubtree engine ctx (subtreeText graph nodeId results execCtx iteration) =
      let run := engine.node ctx graph nodeId (execCtx.enter nodeId iteration) ⟨results, []⟩
      (run.2.log, endSubtree run.1 run.2.results) := by
  have hparts : parseSubtreeParts ⟨graph.instanceId, nodeId, graph.toJson,
      print (encodeStringMap results), some (print (encodeStringMap execCtx.vars)),
      execCtx.label, iteration, execCtx.failureIsolated⟩ = .ok (graph, results, execCtx.vars) := by
    simp only [parseSubtreeParts, graph_of_json_to_json, from_str_print_string_map]
    rfl
  rw [executeSubtree, subtreeText, subtree_input_of_json_to_json h]
  simp only [hparts]
  rfl

/-- A child returns what becomes of its root node, or runs its next generation. -/
theorem run_subtree_reads {iteration : Nat} (h : iteration < 2 ^ 64) :
    runSubtree engine ctx (subtreeText graph nodeId results execCtx iteration) =
      let run := engine.node ctx graph nodeId (execCtx.enter nodeId iteration) ⟨results, []⟩
      match endSubtree run.1 run.2.results with
      | .returned outcome => (run.2.log, some outcome)
      | .continuedAsNew input =>
          let rest := engine.subtree { ctx with executionId := ctx.executionId + 1 } input
          (run.2.log ++ rest.1, rest.2)
      | .unresolved => (run.2.log, none) := by
  rw [runSubtree, execute_subtree_reads engine ctx graph nodeId results execCtx h]
  dsimp only
  cases endSubtree (engine.node ctx graph nodeId (execCtx.enter nodeId iteration) ⟨results, []⟩).1
    (engine.node ctx graph nodeId (execCtx.enter nodeId iteration) ⟨results, []⟩).2.results <;> rfl

end Inputs

/-! ## Envelopes -/

/-- An envelope that its parent takes as a value. Only earlier binaries leave out the control
signal, and their result must not be the mark of a break. -/
def SubtreeEnvelope.returns (envelope : SubtreeEnvelope) : Prop :=
  envelope.control = some .normal ∨
    envelope.control = none ∧ parseLegacyBreakSentinel envelope.result = none

/-- The parent merges the whole map of a returned envelope and takes its result. -/
theorem parse_envelope_returned {raw : String} {envelope : SubtreeEnvelope}
    (hraw : SubtreeEnvelope.ofJson raw = .ok envelope) (hreturns : envelope.returns)
    (context : String) (machine : Machine) :
    parseSubtreeEnvelope raw context machine =
      (.ok envelope.result, (extendResults envelope.results machine).2) := by
  obtain ⟨control, result, results⟩ := envelope
  rw [parseSubtreeEnvelope, hraw]
  rcases hreturns with rfl | ⟨rfl, hlegacy⟩
  · rfl
  · have hnone : parseLegacyBreakSentinel result = none := hlegacy
    refine (Program.bind_ok rfl).trans ((Program.bind_ok rfl).trans ?_)
    dsimp only
    rw [hnone]
    rfl

/-- What a parent takes an envelope's control signal and result for. -/
def SubtreeControl.outcome (control : SubtreeControl) (result : String) : Except Stop String :=
  match control with
  | .normal => .ok result
  | .breakLoop => .error (.raised (.breakWith result))

/-- The parent merges the whole map of an envelope and takes its outcome. -/
theorem parse_envelope_apply (control : SubtreeControl) (result : String) (results : StringMap)
    (context : String) (machine : Machine) :
    parseSubtreeEnvelope (SubtreeEnvelope.toJson ⟨some control, result, results⟩) context machine =
      (control.outcome result, { machine with results := overlay machine.results results }) := by
  rw [parseSubtreeEnvelope, envelope_of_json_to_json]
  cases control <;> rfl

/-- A reply of a child: an envelope with a control signal, or an error text. -/
inductive ChildReply where
  | envelope (control : SubtreeControl) (value : String) (results : StringMap)
  | error (text : String)

/-- The reply as it crosses the boundary. -/
def ChildReply.text : ChildReply → Except String String
  | .envelope control value results => .ok (SubtreeEnvelope.toJson ⟨some control, value, results⟩)
  | .error text => .error text

/-- The named results of a parent that merged the reply. -/
def ChildReply.merge (reply : ChildReply) (results : StringMap) : StringMap :=
  match reply with
  | .envelope _ _ entries => overlay results entries
  | .error _ => results

/-- A reply is known by its text. -/
theorem child_reply_text_injective {first second : ChildReply} (h : first.text = second.text) :
    first = second := by
  cases first with
  | error text =>
      cases second with
      | error other => cases h; rfl
      | envelope control value results => cases h
  | envelope control value results =>
      cases second with
      | error other => cases h
      | envelope control' value' results' =>
          have hread := congrArg SubtreeEnvelope.ofJson (Except.ok.inj h)
          rw [envelope_of_json_to_json, envelope_of_json_to_json] at hread
          cases hread
          rfl

/-! ## Joining -/

section Joining

variable (ctx : OrchestrationContext) (graph : FunctionGraph) (execCtx : ExecutionContext)

/-- What the reply of a branch contributes to a join. -/
def joinContribution (index : Nat) (branchId : String) : ChildReply → Except JoinError Value
  | .envelope .normal value _ =>
      (fromStr value).mapError fun e => ⟨index, .failure ("JOIN branch " ++ toString (index + 1) ++
        " result parse error: " ++ e), none⟩
  | .envelope .breakLoop value _ => .error ⟨index, .breakWith value, none⟩
  | .error text =>
      .error ⟨index,
        contextualizeSubtreeFailure ("JOIN branch " ++ toString (index + 1) ++ " failed") text,
        if isLoopNode graph branchId then some branchId else none⟩

/-- The values of the branches, or the error that the join raises, and the merged named results.
Outside failure isolation the first error ends the join. -/
def joinReplies (isolated : Bool) : Nat → List (String × ChildReply) → List Value →
    Option JoinError → StringMap → Except JoinError (List Value) × StringMap
  | _, [], joined, selected, results =>
      (match selected with | some error => .error error | none => .ok joined, results)
  | index, (branchId, reply) :: rest, joined, selected, results =>
      match joinContribution graph index branchId reply with
      | .ok parsed =>
          joinReplies isolated (index + 1) rest (joined ++ [parsed]) selected (reply.merge results)
      | .error error =>
          if isolated then
            joinReplies isolated (index + 1) rest joined
              (retainHigherPriorityJoinError selected error) (reply.merge results)
          else (.error error, reply.merge results)

/-- A branch contributes what its reply says, and its map is merged. -/
theorem join_branch_apply (index : Nat) (branchId : String) (reply : ChildReply)
    (machine : Machine) :
    joinBranch graph index branchId reply.text machine =
      (.ok (joinContribution graph index branchId reply),
        { machine with results := reply.merge machine.results }) := by
  cases reply with
  | error text => rfl
  | envelope control value results =>
      have hattempt : Program.attempt (parseSubtreeEnvelope
          (SubtreeEnvelope.toJson ⟨some control, value, results⟩)
          ("JOIN branch " ++ toString (index + 1))) machine =
          (.ok (control.outcome value),
            { machine with results := overlay machine.results results }) := by
        rw [Program.attempt_apply, parse_envelope_apply]
      simp only [ChildReply.text, joinBranch]
      rw [Program.bind_ok hattempt]
      cases control with
      | breakLoop => rfl
      | normal =>
          simp only [SubtreeControl.outcome, joinContribution]
          cases fromStr value <;> rfl

/-- The events by which a join raises an error. -/
def joinErrorEvents (selected : JoinError) : List Event :=
  .decided ctx.site selected.index ::
    match selected.loopNodeId with
    | some loopNodeId =>
        let text := loopNodeStatusInput loopNodeId graph.instanceId "failed"
          selected.error.message (childStamp ctx loopNodeId)
        [.activity ctx.site updateNodeStatusName text
          (ctx.world.activity ctx.path updateNodeStatusName text 0)]
    | none => []

/-- A join raises the error it selected. -/
theorem raise_join_error_apply (selected : JoinError) (machine : Machine) :
    raiseJoinError ctx graph selected machine =
      (.error (.raised selected.error), machine.logged (joinErrorEvents ctx graph selected)) := by
  unfold raiseJoinError joinErrorEvents
  cases selected.loopNodeId <;>
    simp [failLoopChildFuture, stampLoopNode, Program.bind_apply]

/-- A join does what the replies of its branches say. -/
theorem join_outcomes_apply (replies : List (String × ChildReply)) (index : Nat)
    (joined : List Value) (selected : Option JoinError) (machine : Machine) :
    joinOutcomes ctx graph execCtx index (replies.map fun reply => (reply.1, reply.2.text)) joined
        selected machine =
      match joinReplies graph execCtx.failureIsolated index replies joined selected
          machine.results with
      | (.ok values, results) => (.ok values, { machine with results := results })
      | (.error error, results) =>
          (.error (.raised error.error),
            ⟨results, machine.log ++ joinErrorEvents ctx graph error⟩) := by
  induction replies generalizing index joined selected machine with
  | nil =>
      cases selected with
      | none => rfl
      | some error =>
          have hraise := raise_join_error_apply ctx graph error machine
          simp only [List.map_nil, joinOutcomes, joinReplies]
          rw [Program.bind_error hraise]
          rfl
  | cons reply replies ih =>
      obtain ⟨branchId, reply⟩ := reply
      simp only [List.map_cons, joinOutcomes, joinReplies]
      rw [Program.bind_ok (join_branch_apply graph index branchId reply machine)]
      cases joinContribution graph index branchId reply with
      | ok parsed => exact ih _ _ _ _
      | error error =>
          cases hisolated : execCtx.failureIsolated with
          | true =>
              rw [hisolated] at ih
              exact ih _ _ _ _
          | false =>
              have hraise := raise_join_error_apply ctx graph error
                { machine with results := reply.merge machine.results }
              simp only [Bool.false_eq_true, if_false]
              rw [Program.bind_error hraise]
              rfl

end Joining

/-! ## Awaiting -/

/-- The value of a future, unless it never resolves. -/
def awaited {α : Type} (reply : Option α) : Except Stop α :=
  match reply with
  | some reply => .ok reply
  | none => .error .unresolved

section Awaiting

variable (engine : Engine) (ctx : OrchestrationContext) (machine : Machine)

/-- Awaiting a child logs its events and takes its reply. -/
theorem schedule_sub_apply (child : OrchestrationContext) (input : String) :
    scheduleSubOrchestration engine ctx child input machine =
      (awaited (runChild engine child input).2,
        machine.logged (.spawned ctx.site child.instanceId input ::
          (runChild engine child input).1)) := by
  simp only [scheduleSubOrchestration, Program.bind_apply, emit_apply, logged_logged]
  cases (runChild engine child input).2 <;> rfl

/-- The events of a join's children. -/
def joinEvents (children : List (OrchestrationContext × String)) : List Event :=
  (children.map fun child => .spawned ctx.site child.1.instanceId child.2) ++
    children.flatMap fun child => (runChild engine child.1 child.2).1

/-- Awaiting all children logs their events. -/
theorem join_children_log (children : List (OrchestrationContext × String)) :
    joinChildren engine ctx children machine =
      (if (children.map fun child => runChild engine child.1 child.2).all (·.2.isSome) then
        .ok ((children.map fun child => runChild engine child.1 child.2).filterMap (·.2))
      else .error .unresolved, machine.logged (joinEvents engine ctx children)) := by
  simp only [joinChildren, joinEvents, Program.bind_apply, emit_apply, logged_logged,
    List.flatMap_map]
  split <;> rfl

/-- Children that all reply are joined with their replies in order. -/
theorem join_children_reply {children : List (OrchestrationContext × String)}
    {replies : List (Except String String)}
    (h : children.map (fun child => (runChild engine child.1 child.2).2) = replies.map some) :
    joinChildren engine ctx children machine =
      (.ok replies, machine.logged (joinEvents engine ctx children)) := by
  have hall : (children.map fun child => runChild engine child.1 child.2).all (·.2.isSome) =
      true := by
    have hsome := congrArg (List.all · Option.isSome) h
    simp only [List.all_map, Function.comp_def, Option.isSome_some] at hsome ⊢
    rw [hsome]
    simp
  have hreplies : (children.map fun child => runChild engine child.1 child.2).filterMap (·.2) =
      replies := by
    have hmap := congrArg (List.filterMap id) h
    simpa [List.filterMap_map, Function.comp_def] using hmap
  rw [join_children_log, if_pos hall, hreplies]

/-- Either all children reply, or the join never resolves. -/
theorem join_children_cases (children : List (OrchestrationContext × String)) :
    (∃ replies : List (Except String String),
      children.map (fun child => (runChild engine child.1 child.2).2) = replies.map some ∧
      joinChildren engine ctx children machine =
        (.ok replies, machine.logged (joinEvents engine ctx children))) ∨
    joinChildren engine ctx children machine =
      (.error .unresolved, machine.logged (joinEvents engine ctx children)) := by
  by_cases h : (children.map fun child => runChild engine child.1 child.2).all (·.2.isSome)
  · left
    have hreplies : children.map (fun child => (runChild engine child.1 child.2).2) =
        (children.map fun child => ((runChild engine child.1 child.2).2.getD (.ok ""))).map
          some := by
      rw [List.map_map]
      refine List.map_congr_left fun child hmem => ?_
      have hsome := List.all_eq_true.1 h _ (List.mem_map_of_mem hmem)
      obtain ⟨reply, hreply⟩ := Option.isSome_iff_exists.1 hsome
      simp [hreply]
    exact ⟨_, hreplies, join_children_reply engine ctx machine hreplies⟩
  · right
    rw [join_children_log, if_neg h]

/-- A branch of a join replies for itself. -/
theorem branch_reply {graph : FunctionGraph} {execCtx : ExecutionContext} {results : StringMap}
    {branchIds : List String} {replies : List (Except String String)}
    (h : (branchChildren ctx graph execCtx results branchIds).map
      (fun child => (runChild engine child.1 child.2).2) = replies.map some)
    {index : Nat} {branchId : String} {reply : Except String String}
    (hbranch : (branchIds.zip replies)[index]? = some (branchId, reply)) :
    (runChild engine (childContext ctx branchId (ctx.path ++ [.branch index]))
      (buildSubtreeInput graph branchId results execCtx)).2 = some reply := by
  obtain ⟨hid, hreply⟩ := List.getElem?_zip_eq_some.1 hbranch
  have hsame := congrArg (·[index]?) h
  simpa [branchChildren, hid, hreply] using hsame

/-- The run of the branch that wins a race. -/
def winnerRun (left right : OrchestrationContext) (leftInput rightInput : String) :
    List Event × Option (Except String String) :=
  if ctx.world.leftWins ctx.path then runChild engine left leftInput
  else runChild engine right rightInput

/-- The run of the branch that loses a race. -/
def loserRun (left right : OrchestrationContext) (leftInput rightInput : String) :
    List Event × Option (Except String String) :=
  if ctx.world.leftWins ctx.path then runChild engine right rightInput
  else runChild engine left leftInput

/-- The events of a race's children. -/
def selectEvents (left right : OrchestrationContext) (leftInput rightInput : String) :
    List Event :=
  [.spawned ctx.site left.instanceId leftInput, .spawned ctx.site right.instanceId rightInput] ++
    ((winnerRun engine ctx left right leftInput rightInput).1 ++
      (loserRun engine ctx left right leftInput rightInput).1.take
        (ctx.world.loserProgress ctx.path))

/-- Awaiting the first child logs all events of the winner and some of the loser. -/
theorem select_children_apply (left right : OrchestrationContext)
    (leftInput rightInput : String) :
    selectChildren engine ctx left right leftInput rightInput machine =
      match (winnerRun engine ctx left right leftInput rightInput).2 with
      | some reply =>
          (.ok (ctx.world.leftWins ctx.path, reply),
            machine.logged (selectEvents engine ctx left right leftInput rightInput ++
              [.decided ctx.site (if ctx.world.leftWins ctx.path then 0 else 1)]))
      | none =>
          (.error .unresolved,
            machine.logged (selectEvents engine ctx left right leftInput rightInput)) := by
  unfold selectChildren selectEvents winnerRun loserRun
  cases ctx.world.leftWins ctx.path <;>
    simp only [Program.bind_apply, emit_apply, logged_logged, if_true, Bool.false_eq_true, if_false]
  · cases (runChild engine right rightInput).2 <;> simp [Program.bind_apply]
  · cases (runChild engine left leftInput).2 <;> simp [Program.bind_apply]

end Awaiting

end PgDurable.Orchestration
