import PgDurable.Dsl.Decoding

/-!
# The interpreter performs effects

`Performs` says that an orchestration program ends as an effect and leaves the same named results;
what it logs is not seen. There is one lemma for each kind of call, one for each way to take the
replies of children, and one for each step that executes others in its own orchestration.
`Evaluates` is what these assume of the interpreter for the steps below.
-/

namespace PgDurable.Dsl

open Json Text InsertNodes Orchestration Program

/-- The stop of an orchestration for a step that ends without a value. -/
def Halt.stop : Halt → Stop
  | .raised error => .raised error
  | .never => .unresolved

/-- An orchestration program does what an effect does, besides what it logs. -/
abbrev Performs {α β : Type} (value : β → α) (program : Orch α) (effect : Effect β) : Prop :=
  Simulates Machine.results Halt.stop value program effect

section Basic

variable {α β γ : Type}

theorem performs_pure (result : α) : Performs id (pure result) (pure result) :=
  simulates_pure result

theorem performs_raise {value : β → α} (error : NodeError) :
    Performs value (raise error) (refuse error) := simulates_exit (Halt.raised error)

theorem performs_fail {value : β → α} (message : String) :
    Performs value (fail message) (refuse (.failure message)) := performs_raise _

theorem performs_or_fail (outcome : Except String α) :
    Performs id (orFail outcome) (orRefuse outcome) := by
  cases outcome with
  | ok result => exact performs_pure result
  | error message => exact performs_fail message

/-- A log is not visible. -/
theorem performs_emit {value : β → α} {events : List Event} {next : Unit → Orch α}
    {effect : Effect β} (h : Performs value (next ()) effect) :
    Performs value (emit events >>= next) effect :=
  simulates_silent (fun machine => ⟨machine.logged events, rfl, rfl⟩) h

theorem performs_timer {value : β → α} {ctx : OrchestrationContext} {nanoseconds : Nat}
    {next : Unit → Orch α} {effect : Effect β} (h : Performs value (next ()) effect) :
    Performs value (scheduleTimer ctx nanoseconds >>= next) effect := performs_emit h

theorem performs_read {value : β → α} {next : StringMap → Orch α} {next' : StringMap → Effect β}
    (h : ∀ results, Performs value (next results) (next' results)) :
    Performs value (readResults >>= next) (Program.get >>= next') :=
  simulates_read (fun _ => rfl) h

theorem performs_store (node : FunctionNode) (result : String) :
    Performs id (storeNamedResult node result) (store node.resultName result) := by
  unfold storeNamedResult store
  cases node.resultName with
  | none => exact simulates_pure ()
  | some name => exact simulates_modify fun _ => rfl

/-- The result of a node is stored and returned. -/
theorem performs_result {node : FunctionNode} {name : Option String}
    (hname : node.resultName = name) (result : String) :
    Performs id (do
      storeNamedResult node result
      pure result) (do
      store name result
      pure result) := by
  subst hname
  exact simulates_bind (performs_store node result) fun _ => simulates_pure result

theorem performs_activity {surroundings : Surroundings} {ctx : OrchestrationContext}
    (hworld : ctx.world = surroundings.world) (name input : String) :
    Performs id (runActivity ctx name input) (ask surroundings ctx.path name input) := by
  have hanswer : scheduleActivity ctx name input 0 =
      emit [.activity ctx.site name input (ctx.world.activity ctx.path name input 0)] >>= fun _ =>
        pure (ctx.world.activity ctx.path name input 0) := rfl
  rw [runActivity, hanswer, bind_assoc]
  refine performs_emit ?_
  rw [pure_bind, ask, ← hworld]
  cases ctx.world.activity ctx.path name input 0 with
  | ok result => exact performs_pure result
  | error message => exact performs_raise (.application message)

end Basic

/-! ## Calls -/

/-- A node is that of a row of the instance. -/
structure IsNode (surroundings : Surroundings) (name : Option String) (query : String)
    (node : FunctionNode) : Prop where
  query : node.query = some query
  result_name : node.resultName = name
  submitted_by : node.submittedBy = surroundings.submittedBy
  database : node.database = surroundings.database

section Calls

variable {surroundings : Surroundings} {ctx : OrchestrationContext} {execCtx : ExecutionContext}
variable {node : FunctionNode} {name : Option String} {query : String}
variable (hworld : ctx.world = surroundings.world) (hvars : execCtx.vars = surroundings.vars)
variable (hnode : IsNode surroundings name query node) (nodeId : String)

include hworld hvars hnode in
theorem sql_performs : Performs id
    (executeSqlNode ctx node nodeId execCtx ⟨surroundings.instanceId, surroundings.label⟩
      surroundings.version) ((Call.sql query).effect surroundings ctx.path name) := by
  rw [executeSqlNode, hnode.query, or_missing_some, pure_bind, Call.effect, hvars,
    hnode.submitted_by, hnode.database]
  refine performs_read fun results => simulates_bind (performs_or_fail _) fun text => ?_
  exact simulates_bind (performs_activity hworld _ _) fun result =>
    performs_result hnode.result_name result

theorem parse_seconds (seconds : Int64) : parseU64 (toString seconds.toInt).toList =
    if seconds.toInt < 0 then none else some seconds.toInt.toNat := by
  have hbound : seconds.toInt < 2 ^ 63 := Int64.toInt_lt seconds
  cases hvalue : seconds.toInt with
  | ofNat n =>
      rw [hvalue] at hbound
      have hfits : n < 2 ^ 64 := by
        have hless : (n : Int) < 2 ^ 63 := hbound
        omega
      rw [if_neg (Int.not_lt.2 (Int.natCast_nonneg n) : ¬ Int.ofNat n < 0)]
      exact parse_u64_to_string hfits
  | negSucc n =>
      -- A sign is no digit of an unsigned number.
      have htext : (toString (Int.negSucc n)).toList = '-' :: Nat.toDigits 10 (n + 1) := by
        show ("-" ++ Nat.repr (n + 1)).toList = _
        rw [String.toList_append, Nat.toList_repr]
        rfl
      rw [htext, if_pos (Int.negSucc_lt_zero n), parse_u64_negative]

include hnode in
theorem sleep_performs {seconds : Int64} (hquery : query = toString seconds.toInt) :
    Performs id (executeSleepNode ctx node nodeId)
      ((Call.sleep seconds).effect surroundings ctx.path name) := by
  rw [executeSleepNode, hnode.query, or_missing_some, pure_bind, Call.effect, hquery,
    parse_seconds]
  split_ifs with hnegative
  · exact performs_fail _
  · rw [or_missing_some, pure_bind]
    exact performs_timer (performs_pure (sleepResult seconds.toInt.toNat))

theorem from_str_flat {members : List (String × Value)} (hwf : (Value.object members).WellFormed)
    (hdepth : Value.depthMembers members = 0) :
    fromStr (print (.object members)) = .ok (.object members) := by
  refine (from_str_print_iff hwf).2 ⟨rfl, ?_⟩
  rw [Value.depth, hdepth]
  decide

include hworld hnode in
theorem wait_schedule_performs {cronExpr : String}
    (hquery : query = print (.object [("cron_expr", .string cronExpr)])) :
    Performs id (executeWaitScheduleNode ctx node nodeId)
      ((Call.waitForSchedule cronExpr).effect surroundings ctx.path name) := by
  have hread := @from_str_flat [("cron_expr", .string cronExpr)]
    ⟨List.nodup_singleton _, trivial, trivial⟩ rfl
  have hexpr : (Value.index (.object [("cron_expr", .string cronExpr)]) "cron_expr").asStr =
      some cronExpr := rfl
  rw [executeWaitScheduleNode, hnode.query, or_missing_some, pure_bind, Call.effect, hquery,
    hread, hworld]
  simp only [Except.mapError, or_fail_ok, pure_bind, hexpr, or_missing_some]
  refine simulates_bind (performs_or_fail _) fun now => ?_
  refine simulates_bind (performs_or_fail _) fun schedule => ?_
  dsimp only [id]
  cases schedule now with
  | none => exact performs_fail _
  | some next =>
      rw [or_missing_some, pure_bind]
      exact performs_timer (performs_pure scheduledResult)

include hnode in
theorem break_performs {value : Option String}
    (hquery : query = print (.object [("break_value", encodeOptionString value)])) :
    Performs id (executeBreakNode ctx node)
      ((Call.breakFn value).effect surroundings ctx.path name) := by
  have hparse : parse query = some (.object [("break_value", encodeOptionString value)]) := by
    rw [hquery]
    cases value with
    | none => exact parse_print ⟨List.nodup_singleton _, trivial, trivial⟩ (by decide)
    | some text =>
        exact parse_print ⟨List.nodup_singleton _, trivial, trivial⟩ (by decide : (1 : Nat) < 128)
  have hvalue : breakValue node.query =
      value.elim "null" fun text => print ((parse text).getD (.string text)) := by
    rw [breakValue, hnode.query, Option.bind_some, hparse]
    cases value <;> rfl
  refine performs_emit ?_
  rw [hvalue, Call.effect]
  exact performs_raise _

theorem number_as_i64 {n : Nat} (h : n < 2 ^ 63) :
    (Value.number (Number.ofNat n)).asI64 = some (n : Int) := if_pos h

include hworld hnode in
theorem signal_performs {signalName : String} {timeoutSeconds : Option Int32}
    (hquery : some query = (signalNode signalName (timeoutSeconds.map Int32.toInt)).query) :
    Performs id (executeSignalNode ctx node nodeId)
      ((Call.waitForSignal signalName timeoutSeconds).effect surroundings ctx.path name) := by
  have hkeys : ["signal_name", "timeout_seconds"].Nodup := by decide
  have htimeout : ∃ timeout : Value, timeout.WellFormed ∧ timeout.depth = 0 ∧
      query = print (.object [("signal_name", .string signalName), ("timeout_seconds", timeout)]) ∧
      timeout.asI64.isNone = timeoutSeconds.isNone := by
    cases timeoutSeconds with
    | none => exact ⟨.null, trivial, rfl, Option.some.inj hquery, rfl⟩
    | some seconds =>
        have hbound : seconds.toInt < 2 ^ 31 := Int32.toInt_lt seconds
        refine ⟨.number (Number.ofNat seconds.toInt.toNat), trivial, rfl, Option.some.inj hquery,
          ?_⟩
        rw [number_as_i64 (by omega : seconds.toInt.toNat < 2 ^ 63)]
        rfl
  obtain ⟨timeout, hwf, hdepth, htext, hnone⟩ := htimeout
  have hread := @from_str_flat [("signal_name", .string signalName), ("timeout_seconds", timeout)]
    ⟨hkeys, trivial, hwf, trivial⟩ (by rw [Value.depthMembers, Value.depthMembers, hdepth]; rfl)
  have hname : (Value.index (.object [("signal_name", .string signalName),
    ("timeout_seconds", timeout)]) "signal_name").asStr = some signalName := rfl
  have hindex : Value.index (.object [("signal_name", .string signalName),
    ("timeout_seconds", timeout)]) "timeout_seconds" = timeout := rfl
  rw [executeSignalNode, hnode.query, or_missing_some, pure_bind, Call.effect, htext, hread]
  simp only [Except.mapError, or_fail_ok, pure_bind, hname, or_missing_some, hindex, hworld]
  rw [← hnone]
  -- With a timeout the wait ends either way, and without one the signal has to come.
  cases timeout.asI64 with
  | some seconds => exact performs_timer (performs_result hnode.result_name _)
  | none =>
      cases surroundings.world.signal ctx.path signalName with
      | none => exact simulates_exit Halt.never
      | some data => exact performs_result hnode.result_name _

include hworld hnode in
/-- A request is checked, sent and stored. -/
theorem send_performs (activity : String) (config : Value) :
    Performs id (sendRequest ctx node activity config)
      (send surroundings ctx.path name activity config) := by
  rw [sendRequest, send, hnode.submitted_by, hnode.database]
  cases checkHttpRequestSize config false with
  | error message => exact performs_raise _
  | ok checked =>
      dsimp only
      cases setExecutionContext config surroundings.submittedBy surroundings.database with
      | none => exact simulates_exit Halt.never
      | some config =>
          rw [settled, pure_bind]
          exact simulates_bind (performs_activity hworld _ _) fun result =>
            performs_result hnode.result_name result

include hworld hvars hnode in
theorem http_performs {request : HttpArguments} {body : Option String}
    (hquery : query = print (httpConfig request ("body", encodeOptionString body))) :
    Performs id
      (executeHttpNode ctx node nodeId execCtx ⟨surroundings.instanceId, surroundings.label⟩)
      ((Call.http request body).effect surroundings ctx.path name) := by
  rw [executeHttpNode, hnode.query, or_missing_some, pure_bind, Call.effect, hquery, hvars]
  refine simulates_bind (performs_or_fail _) fun config => performs_read fun results => ?_
  refine simulates_bind (performs_or_fail _) fun config => ?_
  refine simulates_bind (performs_or_fail _) fun config => ?_
  refine simulates_bind (performs_or_fail _) fun config => ?_
  exact send_performs hworld hnode executeHttpName config

include hworld hvars hnode in
theorem http_multipart_performs {request : HttpArguments} {parts : JsonB}
    (hquery : query = print (httpConfig request ("parts", parts.value)))
    (hid : surroundings.stepId ctx.path = nodeId) :
    Performs id (executeHttpMultipartNode ctx node nodeId execCtx
        ⟨surroundings.instanceId, surroundings.label⟩)
      ((Call.httpMultipart request parts).effect surroundings ctx.path name) := by
  rw [executeHttpMultipartNode, hnode.query, or_missing_some, pure_bind, Call.effect, hquery,
    hvars, hid]
  refine simulates_bind (performs_or_fail _) fun config => performs_read fun results => ?_
  refine simulates_bind (performs_or_fail _) fun config => ?_
  refine simulates_bind (performs_or_fail _) fun config => ?_
  refine simulates_bind (performs_or_fail _) fun config => ?_
  exact send_performs hworld hnode executeMultipartName config

end Calls

/-! ## Replies -/

section Replies

variable {ctx : OrchestrationContext} {graph : FunctionGraph} {execCtx : ExecutionContext}
variable {context : String}

theorem performs_envelope (control : SubtreeControl) (result : String) (entries : StringMap)
    (other : String) :
    Performs id (parseSubtreeEnvelope (SubtreeEnvelope.toJson ⟨some control, result, entries⟩)
      context) (receive other (.envelope control result entries)) := by
  intro machine
  rw [parse_envelope_apply]
  cases control <;> exact ⟨rfl, rfl⟩

/-- The failure stamp of a loop child is not visible. -/
theorem performs_loop_failure (loopNodeId : String) (error : NodeError) :
    Performs id (failLoopChildFuture ctx graph loopNodeId error) (refuse error) :=
  simulates_silent (fun _ => ⟨_, rfl, rfl⟩) (performs_raise error)

theorem performs_cancel {α β : Type} {value : β → α} {branchNodeId : String}
    {next : Unit → Orch α} {effect : Effect β} (h : Performs value (next ()) effect) :
    Performs value (cancelLosingLoopBranch ctx graph branchNodeId >>= next) effect := by
  unfold cancelLosingLoopBranch
  split
  · exact simulates_silent (fun _ => ⟨_, rfl, rfl⟩) h
  · exact h

/-- A failure-isolated body whose envelope has a value. -/
theorem isolated_succeeds (value : String) (entries : StringMap) :
    Performs (fun _ : Unit => FailureIsolatedBodyOutcome.succeeded value)
      (classifyIsolatedBodyResult (ChildReply.envelope .normal value entries).text)
      (Program.modify (ChildReply.envelope .normal value entries).merge) := by
  intro machine
  have hattempt : attempt (parseSubtreeEnvelope
      (SubtreeEnvelope.toJson ⟨some .normal, value, entries⟩) "LOOP iteration") machine =
      (.ok (.ok value), { machine with results := overlay machine.results entries }) := by
    rw [attempt_apply, parse_envelope_apply]
    rfl
  rw [ChildReply.text, classifyIsolatedBodyResult, bind_ok hattempt]
  exact ⟨rfl, rfl⟩

/-- A failure-isolated body that breaks its loop. -/
theorem isolated_breaks (value : String) (entries : StringMap) :
    Performs (fun _ : Unit => FailureIsolatedBodyOutcome.breakWith value)
      (classifyIsolatedBodyResult (ChildReply.envelope .breakLoop value entries).text)
      (Program.modify (ChildReply.envelope .breakLoop value entries).merge) := by
  intro machine
  have hattempt : attempt (parseSubtreeEnvelope
      (SubtreeEnvelope.toJson ⟨some .breakLoop, value, entries⟩) "LOOP iteration") machine =
      (.ok (.error (.raised (.breakWith value))),
        { machine with results := overlay machine.results entries }) := by
    rw [attempt_apply, parse_envelope_apply]
    rfl
  rw [ChildReply.text, classifyIsolatedBodyResult, bind_ok hattempt]
  exact ⟨rfl, rfl⟩

/-- A failure-isolated body that fails with an error of its own, or of the runtime. -/
theorem isolated_error (text : String) :
    classifyIsolatedBodyResult (ChildReply.error text).text =
      if (decodeSubtreeApplicationFailure text).isSome then
        pure FailureIsolatedBodyOutcome.applicationFailed
      else fail text := by
  rw [ChildReply.text, classifyIsolatedBodyResult]
  cases decodeSubtreeApplicationFailure text <;> rfl

/-- A child that is scheduled replies what its run does. -/
theorem performs_scheduled {α β : Type} {value : β → α} {engine : Engine}
    {child : OrchestrationContext} {input : String} {reply : Option ChildReply}
    (h : (runChild engine child input).2 = reply.map ChildReply.text)
    {next : Except String String → Orch α} {next' : ChildReply → Effect β}
    (hnext : ∀ reply : ChildReply, Performs value (next reply.text) (next' reply)) :
    Performs value (scheduleSubOrchestration engine ctx child input >>= next)
      (settled reply >>= next') := by
  cases reply with
  | none =>
      refine simulates_stopped fun machine => ⟨machine.logged (.spawned ctx.site child.instanceId
        input :: (runChild engine child input).1), ?_, rfl⟩
      rw [schedule_sub_apply, h]
      rfl
  | some reply =>
      refine simulates_silent (fun machine => ⟨machine.logged (.spawned ctx.site child.instanceId
        input :: (runChild engine child input).1), ?_, rfl⟩) (hnext reply)
      rw [schedule_sub_apply, h]
      rfl

/-- The winner of a race replies what its run does. -/
theorem performs_selected {α β : Type} {value : β → α} {engine : Engine}
    {left right : OrchestrationContext} {leftInput rightInput : String} {reply : Option ChildReply}
    (h : (winnerRun engine ctx left right leftInput rightInput).2 = reply.map ChildReply.text)
    {next : Bool × Except String String → Orch α} {next' : ChildReply → Effect β}
    (hnext : ∀ reply : ChildReply,
      Performs value (next (ctx.world.leftWins ctx.path, reply.text)) (next' reply)) :
    Performs value (selectChildren engine ctx left right leftInput rightInput >>= next)
      (settled reply >>= next') := by
  cases reply with
  | none =>
      refine simulates_stopped fun machine =>
        ⟨machine.logged (selectEvents engine ctx left right leftInput rightInput), ?_, rfl⟩
      rw [select_children_apply, h]
      rfl
  | some reply =>
      refine simulates_silent (fun machine =>
        ⟨machine.logged (selectEvents engine ctx left right leftInput rightInput ++
          [.decided ctx.site (if ctx.world.leftWins ctx.path then 0 else 1)]), ?_, rfl⟩)
        (hnext reply)
      rw [select_children_apply, h]
      rfl

theorem performs_finish_race {node : FunctionNode} {name : Option String}
    (hname : node.resultName = name) (leftId rightId : String) (leftWins : Bool)
    (reply : ChildReply) :
    Performs id (finishRace ctx graph node leftId rightId leftWins reply.text) (do
      let result ←
        receive (if leftWins then "RACE left branch failed" else "RACE right branch failed") reply
      store name result
      pure result) := by
  unfold finishRace
  refine performs_cancel ?_
  cases reply with
  | envelope control value entries =>
      dsimp only [ChildReply.text]
      rw [pure_bind]
      exact simulates_bind (performs_envelope control value entries _) fun result =>
        performs_result hname result
  | error text =>
      intro machine
      dsimp only [ChildReply.text]
      cases isLoopNode graph (if leftWins then leftId else rightId) <;>
        cases leftWins <;> exact ⟨rfl, rfl⟩

/-! ### Joins -/

theorem contribution_eq (index : Nat) (branchId : String) (reply : ChildReply) :
    contribution index reply =
      (joinContribution graph index branchId reply).mapError (·.error) := by
  cases reply with
  | error text => rfl
  | envelope control value entries =>
      cases control with
      | breakLoop => rfl
      | normal =>
          rw [contribution, joinContribution]
          cases fromStr value <;> rfl

theorem heavier_eq (selected : Option JoinError) (candidate : JoinError) :
    (retainHigherPriorityJoinError selected candidate).map (·.error) =
      some (heavier (selected.map (·.error)) candidate.error) := by
  cases selected with
  | none => rfl
  | some current =>
      rw [retainHigherPriorityJoinError, Option.map_some, heavier]
      split_ifs <;> rfl

theorem performs_join_error {α β : Type} {value : β → α} (selected : JoinError)
    {next : String → Orch α} :
    Performs value (raiseJoinError ctx graph selected >>= next) (refuse selected.error) := by
  intro machine
  rw [bind_error (raise_join_error_apply ctx graph selected machine)]
  exact ⟨rfl, rfl⟩

/-- A join takes the replies of its branches in their order. -/
theorem performs_join_outcomes (replies : List (String × ChildReply)) (index : Nat)
    (values : List Value) (selected : Option JoinError) :
    Performs id (joinOutcomes ctx graph execCtx index
        (replies.map fun reply => (reply.1, reply.2.text)) values selected)
      (joinValues execCtx.failureIsolated index (replies.map (·.2)) values
        (selected.map (·.error))) := by
  -- The interpreter keeps which branch failed, the evaluator what it raises; the same one is kept.
  induction replies generalizing index values selected with
  | nil =>
      cases selected with
      | none => exact performs_pure values
      | some error => exact performs_join_error error
  | cons reply replies ih =>
      obtain ⟨branchId, reply⟩ := reply
      have hbranch : Performs (fun _ : Unit => joinContribution graph index branchId reply)
          (joinBranch graph index branchId reply.text) (Program.modify reply.merge) := by
        intro machine
        rw [join_branch_apply]
        exact ⟨rfl, rfl⟩
      rw [List.map_cons, List.map_cons, joinOutcomes, joinValues]
      refine simulates_bind hbranch fun _ => ?_
      rw [@contribution_eq graph index branchId reply]
      cases joinContribution graph index branchId reply with
      | ok value => exact ih _ _ _
      | error error =>
          dsimp only [Except.mapError]
          split_ifs with hisolated
          · have hrest := ih (index + 1) values (retainHigherPriorityJoinError selected error)
            rw [heavier_eq] at hrest
            exact hrest
          · exact performs_join_error error

theorem all_is_some {α : Type} {values : List (Option α)}
    (h : values.all Option.isSome = true) : values = (values.filterMap id).map some := by
  induction values with
  | nil => rfl
  | cons value values ih =>
      rw [List.all_cons, Bool.and_eq_true] at h
      obtain ⟨found, rfl⟩ := Option.isSome_iff_exists.1 h.1
      rw [List.filterMap_cons_some (rfl : id (some found) = some found), List.map_cons, ← ih h.2]

/-- All branches reply, or the join never ends. -/
theorem performs_joined {α β : Type} {value : β → α} {engine : Engine}
    {children : List (OrchestrationContext × String)} {replies : List (Option ChildReply)}
    (h : children.map (fun child => (runChild engine child.1 child.2).2) =
      replies.map (Option.map ChildReply.text))
    {next : List (Except String String) → Orch α} {next' : List ChildReply → Effect β}
    (hnext : ∀ found : List ChildReply, replies = found.map some →
      Performs value (next (found.map ChildReply.text)) (next' found)) :
    Performs value (joinChildren engine ctx children >>= next) (allSettled replies >>= next') := by
  unfold allSettled
  have hsome : (children.map fun child => runChild engine child.1 child.2).all (·.2.isSome) =
      replies.all Option.isSome := by
    have hall := congrArg (List.all · Option.isSome) h
    simp only [List.all_map, Function.comp_def, Option.isSome_map] at hall ⊢
    exact hall
  by_cases hall : replies.all Option.isSome = true
  · rw [if_pos hall]
    have hfound := all_is_some hall
    refine simulates_silent (fun machine => ⟨_, join_children_reply engine ctx machine ?_, rfl⟩)
      (hnext _ hfound)
    rw [h, List.map_map]
    conv_lhs => rw [hfound]
    rw [List.map_map]
    rfl
  · rw [if_neg hall]
    refine simulates_stopped fun machine =>
      ⟨machine.logged (joinEvents engine ctx children), ?_, rfl⟩
    rw [join_children_log, hsome, if_neg hall]
    rfl

end Replies

/-! ## Orchestrations -/

/-- A visit belongs to an instance in the surroundings. -/
structure Belongs (surroundings : Surroundings) (ctx : OrchestrationContext)
    (execCtx : ExecutionContext) : Prop where
  world : ctx.world = surroundings.world
  vars : execCtx.vars = surroundings.vars
  label : execCtx.label = surroundings.label

def placeOf (ctx : OrchestrationContext) (execCtx : ExecutionContext) : Place :=
  ⟨ctx.path, execCtx.failureIsolated⟩

/-- How an orchestration generation ends for what its turn does. -/
def turnEnd (graph : FunctionGraph) (nodeId : String) (execCtx : ExecutionContext) :
    Except Halt Turn × StringMap → Except Stop String
  | (.ok (.done result), _) => .ok result
  | (.ok (.again iteration), results) =>
      .error (.continuedAsNew (continuationInput graph nodeId execCtx results iteration))
  | (.error halt, _) => .error halt.stop

/-- A generation ends as its turn does and leaves the same named results. -/
def EndsAs (graph : FunctionGraph) (nodeId : String) (execCtx : ExecutionContext)
    (run : Except Stop String × Machine) (turn : Except Halt Turn × StringMap) : Prop :=
  run.1 = turnEnd graph nodeId execCtx turn ∧ run.2.results = turn.2

/-- The interpreter does on installed workflows what the evaluator does on workflows: for a step
below the root of an orchestration, for a turn of its root, and for a child. -/
structure Evaluates (surroundings : Surroundings) (graph : FunctionGraph) (engine : Engine)
    (evaluator : Evaluator) : Prop where
  step : ∀ {ctx : OrchestrationContext} {execCtx : ExecutionContext} {w : Workflow}
    {tree : StoredNode} {below : Forest StoredNode}, Belongs surroundings ctx execCtx →
    Installed surroundings graph.nodes (ctx.path.map slot) w tree below →
    execCtx.subtreeRoot ∉ (tree :: below.preorder).map (·.row.id) →
    Performs id (engine.node ctx graph tree.row.id execCtx)
      (evaluator.step (placeOf ctx execCtx) w)
  turn : ∀ {ctx : OrchestrationContext} {execCtx : ExecutionContext} {w : Workflow}
    {tree : StoredNode} {below : Forest StoredNode}, Belongs surroundings ctx execCtx →
    Installed surroundings graph.nodes (ctx.path.map slot) w tree below →
    execCtx.subtreeRoot = tree.row.id → ∀ machine,
    EndsAs graph tree.row.id execCtx (engine.node ctx graph tree.row.id execCtx machine)
      (evaluator.turn (placeOf ctx execCtx) w execCtx.loopIteration machine.results)
  child : ∀ {ctx : OrchestrationContext} {execCtx : ExecutionContext} {w : Workflow}
    {tree : StoredNode} {below : Forest StoredNode}, Belongs surroundings ctx execCtx →
    Installed surroundings graph.nodes (ctx.path.map slot) w tree below →
    ∀ (results : StringMap) {iteration : Nat}, iteration < maxLoopIterations →
    (engine.subtree ctx (subtreeText graph tree.row.id results execCtx iteration)).2 =
      (evaluator.child (placeOf ctx execCtx) w iteration results).map ChildReply.text
  bounded : ∀ {place : Place} {w : Workflow} {iteration next : Nat} {before after : StringMap},
    evaluator.turn place w iteration before = (.ok (.again next), after) → next < maxLoopIterations

section Composite

variable {surroundings : Surroundings} {graph : FunctionGraph} {engine : Engine}
variable {evaluator : Evaluator} {ctx : OrchestrationContext} {execCtx : ExecutionContext}
variable {w : Workflow} {tree : StoredNode} {below : Forest StoredNode}
variable (hfault : ∀ path id, surroundings.world.runtimeFault path id = surroundings.fault path)
variable (heval : Evaluates surroundings graph engine evaluator)
variable (hin : Belongs surroundings ctx execCtx)

theorem Belongs.down (hin : Belongs surroundings ctx execCtx) (step : Orchestration.Step) :
    Belongs surroundings (ctx.down step) execCtx := ⟨hin.world, hin.vars, hin.label⟩

theorem Belongs.child (hin : Belongs surroundings ctx execCtx) (nodeId : String) (path : Path)
    (isolated : Bool) :
    Belongs surroundings (childContext ctx nodeId path)
      { execCtx with failureIsolated := isolated } :=
  ⟨hin.world, hin.vars, hin.label⟩

theorem down_slots (step : Orchestration.Step) :
    (ctx.down step).path.map slot = ctx.path.map slot ++ [slot step] := by
  rw [OrchestrationContext.down, List.map_append, List.map_singleton]

include hfault heval hin

/-- A child replies what the evaluator of its workflow replies. -/
theorem child_spawned {path : Path} (isolated : Bool)
    (hinstalled : Installed surroundings graph.nodes (path.map slot) w tree below)
    (results : StringMap) :
    (runChild engine (childContext ctx tree.row.id path)
        (buildSubtreeInput graph tree.row.id results
          { execCtx with failureIsolated := isolated })).2 =
      (spawn surroundings evaluator ⟨path, isolated⟩ w results).map ChildReply.text := by
  have hrun := heval.child (hin.child tree.row.id path isolated) hinstalled results
    (by decide : 0 < maxLoopIterations)
  have hworld : (childContext ctx tree.row.id path).world.runtimeFault
      (childContext ctx tree.row.id path).path (childContext ctx tree.row.id path).instanceId =
      surroundings.fault path := by
    rw [← hfault, ← hin.world]
    rfl
  rw [runChild, hworld, spawn]
  cases surroundings.fault path with
  | some error => rfl
  | none => exact hrun

omit hfault heval hin in
theorem not_in_first {forest : Forest StoredNode} {root : String}
    (h : root ∉ (Forest.cons tree below forest).preorder.map (·.row.id)) :
    root ∉ (tree :: below.preorder).map (·.row.id) ∧ root ∉ forest.preorder.map (·.row.id) := by
  rw [Forest.preorder, ← List.cons_append, List.map_append, List.mem_append, not_or] at h
  exact h

/-- The node of a tree in the graph. -/
abbrev nodeOf (surroundings : Surroundings) (tree : StoredNode) : FunctionNode :=
  loadedNode surroundings.submittedBy surroundings.database tree.row

omit hfault in
/-- The branch that a conditional chooses. -/
theorem branch_performs {name : Option String} {node : FunctionNode}
    (hname : node.resultName = name) {thenBranch elseBranch : Workflow}
    {first second : StoredNode} {inner inner' : Forest StoredNode}
    (hfirst : Installed surroundings graph.nodes (ctx.path.map slot ++ [0]) thenBranch first inner)
    (hsecond : Installed surroundings graph.nodes (ctx.path.map slot ++ [1]) elseBranch second
      inner')
    (houtFirst : execCtx.subtreeRoot ∉ (first :: inner.preorder).map (·.row.id))
    (houtSecond : execCtx.subtreeRoot ∉ (second :: inner'.preorder).map (·.row.id))
    (isTrue : Bool) :
    Performs id (do
      let result ←
        if isTrue then engine.node (ctx.down .ifThen) graph first.row.id execCtx
        else engine.node (ctx.down .ifElse) graph second.row.id execCtx
      storeNamedResult node result
      pure result) (branch evaluator (placeOf ctx execCtx) name isTrue thenBranch elseBranch) := by
  cases isTrue with
  | true =>
      exact simulates_bind (heval.step (hin.down .ifThen) (down_slots _ ▸ hfirst) houtFirst)
        fun result => performs_result hname result
  | false =>
      exact simulates_bind (heval.step (hin.down .ifElse) (down_slots _ ▸ hsecond) houtSecond)
        fun result => performs_result hname result

section Handlers

variable (hinstalled : Installed surroundings graph.nodes (ctx.path.map slot) w tree below)
variable (hout : execCtx.subtreeRoot ∉ below.preorder.map (·.row.id))
include hinstalled hout

omit hfault in
theorem then_performs {a b : Workflow} (hshape : w.shape = .thenFn a b) :
    Performs id (executeThenNode engine ctx graph (nodeOf surroundings tree) tree.row.id execCtx)
      (stepEffect surroundings evaluator (placeOf ctx execCtx) w) := by
  have hchildren := hinstalled.children
  have hstored := hinstalled.stored_as
  have hname : (nodeOf surroundings tree).resultName = w.name := hstored.result_name
  rw [hshape] at hchildren hstored
  obtain ⟨first, inner, rest, rfl, hfirst, hrest, hnames⟩ := hchildren.cons hinstalled.names
  obtain ⟨second, inner', rest, rfl, hsecond, hrest, -⟩ := hrest.cons hnames
  obtain rfl := hrest.nil
  obtain ⟨hleft, hright⟩ := then_decoded hstored hinstalled.references_eq
  obtain ⟨hout, hout'⟩ := not_in_first hout
  have hleft : (nodeOf surroundings tree).leftNode = some first.row.id := hleft
  have hright : (nodeOf surroundings tree).rightNode = some second.row.id := hright
  rw [executeThenNode, hleft, or_missing_some, pure_bind, hright, or_missing_some, pure_bind,
    stepEffect, hshape]
  refine simulates_bind (heval.step (hin.down .thenLeft) (down_slots _ ▸ hfirst) hout) fun _ => ?_
  refine simulates_bind (heval.step (hin.down .thenRight) (down_slots _ ▸ hsecond)
    (not_in_first hout').1) fun result => ?_
  exact performs_result hname result

omit hfault in
theorem if_performs {condition thenBranch elseBranch : Workflow}
    (hshape : w.shape = .ifFn condition thenBranch elseBranch) :
    Performs id (executeIfNode engine ctx graph (nodeOf surroundings tree) tree.row.id execCtx)
      (stepEffect surroundings evaluator (placeOf ctx execCtx) w) := by
  have hchildren := hinstalled.children
  have hstored := hinstalled.stored_as
  have hname : (nodeOf surroundings tree).resultName = w.name := hstored.result_name
  rw [hshape] at hchildren hstored
  obtain ⟨first, inner, rest, rfl, hfirst, hrest, hnames⟩ := hchildren.cons hinstalled.names
  obtain ⟨second, inner', rest, rfl, hsecond, hrest, hnames⟩ := hrest.cons hnames
  obtain ⟨third, inner'', rest, rfl, hthird, hrest, -⟩ := hrest.cons hnames
  obtain rfl := hrest.nil
  obtain ⟨hleft, hright, hquery⟩ := if_decoded hstored hinstalled.references_eq
  obtain ⟨hout, hout'⟩ := not_in_first hout
  obtain ⟨hout', hout''⟩ := not_in_first hout'
  have hleft : (nodeOf surroundings tree).leftNode = some first.row.id := hleft
  have hright : (nodeOf surroundings tree).rightNode = some second.row.id := hright
  have hquery : (nodeOf surroundings tree).query =
    some (print (.object [("condition_node", .string third.row.id)])) := hquery
  have hread := @from_str_flat [("condition_node", .string third.row.id)]
    ⟨List.nodup_singleton _, trivial, trivial⟩ rfl
  have hdecide : decideIf engine ctx graph execCtx (.object [("condition_node",
      .string third.row.id)]) = (do
        let conditionResult ← engine.node (ctx.down .ifCondition) graph third.row.id execCtx
        orFail (evaluateCondition conditionResult)) := rfl
  rw [executeIfNode, hquery, or_missing_some, pure_bind, hread, hleft, hright, stepEffect, hshape]
  simp only [Except.mapError, or_fail_ok, pure_bind, or_missing_some, hdecide, bind_assoc]
  refine simulates_bind (heval.step (hin.down .ifCondition) (down_slots _ ▸ hthird)
    (not_in_first hout'').1) fun result => ?_
  refine simulates_bind (performs_or_fail _) fun isTrue => ?_
  exact branch_performs heval hin hname hfirst hsecond hout hout' isTrue

omit hfault in
theorem if_rows_performs {resultName : String} {thenBranch elseBranch : Workflow}
    (hshape : w.shape = .ifRowsFn resultName thenBranch elseBranch) :
    Performs id (executeIfNode engine ctx graph (nodeOf surroundings tree) tree.row.id execCtx)
      (stepEffect surroundings evaluator (placeOf ctx execCtx) w) := by
  have hchildren := hinstalled.children
  have hstored := hinstalled.stored_as
  have hname : (nodeOf surroundings tree).resultName = w.name := hstored.result_name
  rw [hshape] at hchildren hstored
  obtain ⟨first, inner, rest, rfl, hfirst, hrest, hnames⟩ := hchildren.cons hinstalled.names
  obtain ⟨second, inner', rest, rfl, hsecond, hrest, -⟩ := hrest.cons hnames
  obtain rfl := hrest.nil
  obtain ⟨hleft, hright, hquery⟩ := if_rows_decoded hstored hinstalled.references_eq
  obtain ⟨hout, hout'⟩ := not_in_first hout
  have hleft : (nodeOf surroundings tree).leftNode = some first.row.id := hleft
  have hright : (nodeOf surroundings tree).rightNode = some second.row.id := hright
  have hquery : (nodeOf surroundings tree).query = some (print (ifRowsConfig resultName)) := hquery
  have hread : fromStr (print (ifRowsConfig resultName)) = .ok (ifRowsConfig resultName) :=
    from_str_flat ⟨(by decide : ["condition_type", "result_name"].Nodup), trivial, trivial, trivial⟩
      rfl
  have hdecide : decideIf engine ctx graph execCtx (ifRowsConfig resultName) = (do
      let results ← readResults
      orFail (resultHasRows (ifRowsConfig resultName) results)) := rfl
  rw [executeIfNode, hquery, or_missing_some, pure_bind, hread, hleft, hright, stepEffect, hshape]
  simp only [Except.mapError, or_fail_ok, pure_bind, or_missing_some, hdecide, bind_assoc]
  refine performs_read fun results => ?_
  refine simulates_bind (performs_or_fail _) fun isTrue => ?_
  exact branch_performs heval hin hname hfirst hsecond hout (not_in_first hout').1 isTrue

end Handlers

end Composite

end PgDurable.Dsl
