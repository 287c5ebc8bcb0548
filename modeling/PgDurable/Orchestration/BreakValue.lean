import PgDurable.Library.Json.Reading
import PgDurable.Orchestration.Bindings

/-!
# The value with which a break ends its loop

A break unwinds through sequences, conditionals, joins, races and child orchestrations to the
nearest loop around it, which completes with its value. `Breaks` derives, for a node that ends with
a break, the BREAK node that was executed and what it could read at that moment: its `BreakSite`.
`loop_break_sites` finds the site of every loop that completes through a break.

The documented value of a break is its text with the references substituted; the handler never
reads the named results or the variables. `break_value_documented_iff` says when the loop completes
with the documented value all the same.
-/

namespace PgDurable.Orchestration

open Json Program

/-! ## Values -/

/-- The JSON value of a text: JSON as it is, other text as a string. -/
def jsonOrString (text : String) : Value := (parse text).getD (.string text)

/-- The value text of a BREAK node. -/
def breakText (query : Option String) : Option String :=
  ((query.bind parse).bind (Value.get? "break_value")).bind Value.asStr

/-- The value that the handler raises, by the value text. -/
theorem break_value_eq (query : Option String) :
    breakValue query = ((breakText query).map fun text => print (jsonOrString text)).getD "null" := by
  unfold breakValue breakText jsonOrString
  cases ((query.bind parse).bind (Value.get? "break_value")).bind Value.asStr <;> rfl

/-- Texts with one compact JSON text denote one JSON value. -/
theorem print_json_or_string_injective {first second : String}
    (h : print (jsonOrString first) = print (jsonOrString second)) :
    jsonOrString first = jsonOrString second := by
  have hread : ∀ text, parse (print (jsonOrString text)) = some (jsonOrString text) := by
    intro text
    unfold jsonOrString
    cases hparse : parse text with
    | none => exact parse_print trivial (show 0 < recursionLimit by decide)
    | some value => exact parse_print_parsed hparse
  have hboth := congrArg parse h
  rwa [hread, hread, Option.some.injEq] at hboth

/-- An executed BREAK node with what it could read: the named results, the workflow variables and
the system variables of that moment. -/
structure BreakSite where
  node : FunctionNode
  results : StringMap
  vars : StringMap
  sysVars : SystemVars

/-- The documented value of a break: its text with the references substituted, as JSON. -/
def BreakSite.documented (site : BreakSite) : Except String String :=
  match breakText site.node.query with
  | none => .ok "null"
  | some text =>
      (substituteAllRaw text site.results site.vars site.sysVars).map fun text =>
        print (jsonOrString text)

/-- There is no value text, or substituting its references leaves the JSON value that it denotes. -/
def BreakSite.Literal (site : BreakSite) : Prop :=
  ∀ text, breakText site.node.query = some text →
    ∃ substituted, substituteAllRaw text site.results site.vars site.sysVars = .ok substituted ∧
      jsonOrString substituted = jsonOrString text

/-- The handler raises the documented value exactly for literal value texts. -/
theorem documented_iff_literal (site : BreakSite) :
    site.documented = .ok (breakValue site.node.query) ↔ site.Literal := by
  rw [break_value_eq]
  unfold BreakSite.documented BreakSite.Literal
  cases breakText site.node.query with
  | none => simp
  | some text =>
      simp only [Option.some.injEq, forall_eq', Option.map_some, Option.getD_some]
      cases substituteAllRaw text site.results site.vars site.sysVars with
      | error message => simp [Except.map]
      | ok substituted =>
          simp only [Except.map, Except.ok.injEq, exists_eq_left']
          exact ⟨print_json_or_string_injective, fun h => by rw [h]⟩

/-! ## From a loop down to the break -/

/-- The handler of a sequence or a conditional executes the child `id` at a step, on a machine. -/
inductive Executes (engine : Engine) (ctx : OrchestrationContext) (graph : FunctionGraph)
    (node : FunctionNode) (execCtx : ExecutionContext) (machine : Machine) :
    Step → String → Machine → Prop
  | thenLeft {leftId rightId : String} (hkind : nodeKind node.nodeType = some .thenNode)
      (hleft : node.leftNode = some leftId) (hright : node.rightNode = some rightId) :
      Executes engine ctx graph node execCtx machine .thenLeft leftId machine
  | thenRight {leftId rightId first : String} {middle : Machine}
      (hkind : nodeKind node.nodeType = some .thenNode)
      (hleft : node.leftNode = some leftId) (hright : node.rightNode = some rightId)
      (hfirst : engine.node (ctx.down .thenLeft) graph leftId execCtx machine =
        (.ok first, middle)) :
      Executes engine ctx graph node execCtx machine .thenRight rightId middle
  | ifCondition {config : Value} {id thenId elseId : String}
      (hkind : nodeKind node.nodeType = some .ifNode)
      (hconfig : node.query.bind parse = some config) (hthen : node.leftNode = some thenId)
      (helse : node.rightNode = some elseId)
      (hnodes : (config.get? "condition_type").bind Value.asStr ≠ some "result_has_rows")
      (hid : (config.index "condition_node").asStr = some id) :
      Executes engine ctx graph node execCtx machine .ifCondition id machine
  | ifThen {config : Value} {thenId elseId : String} {middle : Machine}
      (hkind : nodeKind node.nodeType = some .ifNode)
      (hconfig : node.query.bind parse = some config) (hthen : node.leftNode = some thenId)
      (helse : node.rightNode = some elseId)
      (hdecide : decideIf engine ctx graph execCtx config machine = (.ok true, middle)) :
      Executes engine ctx graph node execCtx machine .ifThen thenId middle
  | ifElse {config : Value} {thenId elseId : String} {middle : Machine}
      (hkind : nodeKind node.nodeType = some .ifNode)
      (hconfig : node.query.bind parse = some config) (hthen : node.leftNode = some thenId)
      (helse : node.rightNode = some elseId)
      (hdecide : decideIf engine ctx graph execCtx config machine = (.ok false, middle)) :
      Executes engine ctx graph node execCtx machine .ifElse elseId middle

/-- The handler of a join or a race takes the break of a branch: of the branch whose error the join
selects, or of the winner of the race. -/
inductive TakesBreak (engine : Engine) (ctx : OrchestrationContext) (graph : FunctionGraph)
    (node : FunctionNode) (execCtx : ExecutionContext) (results : StringMap) (value : String) :
    (index : Nat) → (branchId : String) → Prop
  | join {leftId rightId branchId : String} {replies : List (String × ChildReply)}
      {error : JoinError} {merged map : StringMap} (hkind : nodeKind node.nodeType = some .join)
      (hleft : node.leftNode = some leftId) (hright : node.rightNode = some rightId)
      (hbranches : replies.map (·.1) = joinBranchIds node leftId rightId)
      (hreplies : ∀ {index branchId reply}, replies[index]? = some (branchId, reply) →
        (branchRun engine ctx graph execCtx results index branchId).2 = some reply.text)
      (hjoin : joinReplies graph execCtx.failureIsolated 0 replies [] none results =
        (.error error, merged))
      (hselected : replies[error.index]? = some (branchId, .envelope .breakLoop value map)) :
      TakesBreak engine ctx graph node execCtx results value error.index branchId
  | race {leftId rightId : String} {map : StringMap} (hkind : nodeKind node.nodeType = some .race)
      (hleft : node.leftNode = some leftId) (hright : node.rightNode = some rightId)
      (hreply : (branchRun engine ctx graph execCtx results
        (if ctx.world.leftWins ctx.path then 0 else 1)
        (if ctx.world.leftWins ctx.path then leftId else rightId)).2 =
          some (ChildReply.envelope .breakLoop value map).text) :
      TakesBreak engine ctx graph node execCtx results value
        (if ctx.world.leftWins ctx.path then 0 else 1)
        (if ctx.world.leftWins ctx.path then leftId else rightId)

mutual
/-- Executing the node ends with the break that the BREAK node of the site raises. -/
inductive Breaks (site : BreakSite) (value : String) :
    Nat → OrchestrationContext → FunctionGraph → String → ExecutionContext → Machine → Prop
  | here {fuel : Nat} {ctx : OrchestrationContext} {graph : FunctionGraph} {nodeId : String}
      {execCtx : ExecutionContext} {machine : Machine}
      (hnode : graph.nodes[nodeId]? = some site.node)
      (hkind : nodeKind site.node.nodeType = some .breakNode)
      (hresults : site.results = machine.results) (hvars : site.vars = execCtx.vars)
      (hsysVars : site.sysVars = ⟨graph.instanceId, execCtx.label⟩)
      (hvalue : value = breakValue site.node.query) :
      Breaks site value (fuel + 1) ctx graph nodeId execCtx machine
  | sequence {fuel : Nat} {ctx : OrchestrationContext} {graph : FunctionGraph} {nodeId : String}
      {execCtx : ExecutionContext} {machine middle : Machine} {node : FunctionNode} {step : Step}
      {id : String} (hnode : graph.nodes[nodeId]? = some node)
      (hexecutes : Executes (engine fuel) ctx graph node execCtx
        (started ctx graph nodeId machine) step id middle)
      (hbreaks : Breaks site value fuel (ctx.down step) graph id execCtx middle) :
      Breaks site value (fuel + 1) ctx graph nodeId execCtx machine
  | branch {fuel : Nat} {ctx : OrchestrationContext} {graph : FunctionGraph} {nodeId : String}
      {execCtx : ExecutionContext} {machine : Machine} {node : FunctionNode} {index : Nat}
      {branchId : String} (hnode : graph.nodes[nodeId]? = some node)
      (htakes : TakesBreak (engine fuel) ctx graph node execCtx machine.results value index
        branchId)
      (hbreaks : ChildBreaks site value fuel
        (childContext ctx branchId (ctx.path ++ [.branch index])) graph branchId execCtx
        machine.results 0) :
      Breaks site value (fuel + 1) ctx graph nodeId execCtx machine

/-- The child, from one of its generations on, ends with the break of the site. -/
inductive ChildBreaks (site : BreakSite) (value : String) :
    Nat → OrchestrationContext → FunctionGraph → String → ExecutionContext → StringMap → Nat → Prop
  | now {fuel : Nat} {ctx : OrchestrationContext} {graph : FunctionGraph} {nodeId : String}
      {execCtx : ExecutionContext} {results : StringMap} {iteration : Nat}
      (hbreaks : Breaks site value fuel ctx graph nodeId (execCtx.enter nodeId iteration)
        ⟨results, []⟩) :
      ChildBreaks site value (fuel + 1) ctx graph nodeId execCtx results iteration
  | later {fuel : Nat} {ctx : OrchestrationContext} {graph : FunctionGraph} {nodeId : String}
      {execCtx : ExecutionContext} {results : StringMap} {iteration next : Nat} {after : Machine}
      (hrun : (engine fuel).node ctx graph nodeId (execCtx.enter nodeId iteration) ⟨results, []⟩ =
        (.error (.continuedAsNew (subtreeText graph nodeId after.results execCtx next)), after))
      (hbreaks : ChildBreaks site value fuel { ctx with executionId := ctx.executionId + 1 } graph
        nodeId execCtx after.results next) :
      ChildBreaks site value (fuel + 1) ctx graph nodeId execCtx results iteration
end

/-! ## Finding the break -/

section Handlers

variable {engine : Engine} {ctx : OrchestrationContext} {graph : FunctionGraph}
  {node : FunctionNode} {nodeId : String} {execCtx : ExecutionContext} {machine after : Machine}
  {value : String}

/-- The last step of a sequence stops only where its node stops. -/
theorem stored_stop {step : Step} {id : String} {stop : Stop}
    (hrun : (do
      let result ← engine.node (ctx.down step) graph id execCtx
      storeNamedResult node result
      pure result : Orch String) machine = (.error stop, after)) :
    engine.node (ctx.down step) graph id execCtx machine = (.error stop, after) := by
  rcases hnode : engine.node (ctx.down step) graph id execCtx machine with ⟨other | result, middle⟩
  · rw [bind_error hnode] at hrun
    exact hrun
  · rw [bind_ok hnode, bind_ok (store_named_result_apply node result middle)] at hrun
    cases hrun

theorem then_breaks (hkind : nodeKind node.nodeType = some .thenNode)
    (hrun : executeThenNode engine ctx graph node nodeId execCtx machine =
      (.error (.raised (.breakWith value)), after)) :
    ∃ step id middle, Executes engine ctx graph node execCtx machine step id middle ∧
      engine.node (ctx.down step) graph id execCtx middle =
        (.error (.raised (.breakWith value)), after) := by
  unfold executeThenNode at hrun
  cases hleft : node.leftNode with
  | none => rw [hleft] at hrun; cases hrun
  | some leftId =>
      cases hright : node.rightNode with
      | none => rw [hleft, hright] at hrun; cases hrun
      | some rightId =>
          simp only [hleft, hright, or_missing_some, pure_bind] at hrun
          rcases hfirst : engine.node (ctx.down .thenLeft) graph leftId execCtx machine with
            ⟨stop | first, middle⟩
          · rw [bind_error hfirst] at hrun
            cases hrun
            exact ⟨_, _, _, .thenLeft hkind hleft hright, hfirst⟩
          · rw [bind_ok hfirst] at hrun
            exact ⟨_, _, _, .thenRight hkind hleft hright hfirst, stored_stop hrun⟩

/-- The decision of a conditional breaks only with its condition node. -/
theorem decide_if_breaks {config : Value}
    (hrun : decideIf engine ctx graph execCtx config machine =
      (.error (.raised (.breakWith value)), after)) :
    (config.get? "condition_type").bind Value.asStr ≠ some "result_has_rows" ∧
      ∃ id, (config.index "condition_node").asStr = some id ∧
        engine.node (ctx.down .ifCondition) graph id execCtx machine =
          (.error (.raised (.breakWith value)), after) := by
  unfold decideIf at hrun
  split_ifs at hrun with hrows
  · rw [bind_ok (read_results_apply machine)] at hrun
    cases hhas : resultHasRows config machine.results with
    | error message => rw [hhas] at hrun; cases hrun
    | ok isTrue => rw [hhas] at hrun; cases hrun
  · refine ⟨hrows, ?_⟩
    cases hid : (config.index "condition_node").asStr with
    | none => rw [hid] at hrun; cases hrun
    | some id =>
        rw [hid, or_missing_some, pure_bind] at hrun
        rcases hcondition : engine.node (ctx.down .ifCondition) graph id execCtx machine with
          ⟨stop | conditionResult, middle⟩
        · rw [bind_error hcondition] at hrun
          cases hrun
          exact ⟨id, rfl, hcondition⟩
        · obtain ⟨isTrue, hevaluate⟩ := evaluate_condition_ok conditionResult
          rw [bind_ok hcondition, hevaluate] at hrun
          cases hrun

theorem if_breaks (hkind : nodeKind node.nodeType = some .ifNode)
    (hrun : executeIfNode engine ctx graph node nodeId execCtx machine =
      (.error (.raised (.breakWith value)), after)) :
    ∃ step id middle, Executes engine ctx graph node execCtx machine step id middle ∧
      engine.node (ctx.down step) graph id execCtx middle =
        (.error (.raised (.breakWith value)), after) := by
  unfold executeIfNode at hrun
  cases hquery : node.query with
  | none => rw [hquery] at hrun; cases hrun
  | some configText =>
      rw [hquery, or_missing_some, pure_bind] at hrun
      cases hread : (fromStr configText).mapError ("Invalid IF config: " ++ ·) with
      | error message => rw [hread] at hrun; cases hrun
      | ok config =>
          have hconfig : node.query.bind parse = some config := by
            rw [hquery]
            exact parse_of_from_str hread
          rw [hread, or_fail_ok, pure_bind] at hrun
          cases hthen : node.leftNode with
          | none => rw [hthen] at hrun; cases hrun
          | some thenId =>
              cases helse : node.rightNode with
              | none => rw [hthen, helse] at hrun; cases hrun
              | some elseId =>
                  simp only [hthen, helse, or_missing_some, pure_bind] at hrun
                  rcases hdecide : decideIf engine ctx graph execCtx config machine with
                    ⟨stop | isTrue, middle⟩
                  · rw [bind_error hdecide] at hrun
                    cases hrun
                    obtain ⟨hnodes, id, hid, hcondition⟩ := decide_if_breaks hdecide
                    exact ⟨_, _, _, .ifCondition hkind hconfig hthen helse hnodes hid, hcondition⟩
                  · rw [bind_ok hdecide] at hrun
                    cases isTrue with
                    | true =>
                        exact ⟨_, _, _, .ifThen hkind hconfig hthen helse hdecide, stored_stop hrun⟩
                    | false =>
                        exact ⟨_, _, _, .ifElse hkind hconfig hthen helse hdecide, stored_stop hrun⟩

/-- Only an envelope with the break signal is taken for a break. -/
theorem reply_breaks {reply : ChildReply} {context : String}
    (h : reply.outcome context = .error (.raised (.breakWith value))) :
    ∃ map, reply = .envelope .breakLoop value map := by
  cases reply with
  | error text =>
      have herror := Stop.raised.inj (Except.error.inj h)
      exact absurd herror (contextualized_ne_break context text value)
  | envelope control result map =>
      cases control with
      | normal => cases h
      | breakLoop =>
          cases h
          exact ⟨map, rfl⟩

/-- The error of a join was selected before, or is what the branch with its index contributes. -/
theorem join_error_source {isolated : Bool} {index : Nat}
    {replies : List (String × ChildReply)} {joined : List Value} {selected : Option JoinError}
    {results merged : StringMap} {error : JoinError}
    (h : joinReplies graph isolated index replies joined selected results = (.error error, merged)) :
    selected = some error ∨ ∃ offset branchId reply, replies[offset]? = some (branchId, reply) ∧
      joinContribution graph (index + offset) branchId reply = .error error := by
  induction replies generalizing index joined selected results with
  | nil =>
      cases selected with
      | none => cases h
      | some other =>
          cases h
          exact Or.inl rfl
  | cons entry replies ih =>
      obtain ⟨branchId, reply⟩ := entry
      have hlater : ∀ {selected'}, (selected' = some error ∨ ∃ offset branchId reply,
          replies[offset]? = some (branchId, reply) ∧
            joinContribution graph (index + 1 + offset) branchId reply = .error error) →
          selected' = some error ∨ ∃ offset branchId' reply',
            ((branchId, reply) :: replies)[offset]? = some (branchId', reply') ∧
              joinContribution graph (index + offset) branchId' reply' = .error error := by
        intro selected' hrest
        refine hrest.imp_right ?_
        rintro ⟨offset, other, otherReply, hget, hcontribution⟩
        refine ⟨offset + 1, other, otherReply, hget, ?_⟩
        rwa [show index + (offset + 1) = index + 1 + offset by omega]
      unfold joinReplies at h
      cases hcontribution : joinContribution graph index branchId reply with
      | ok parsed =>
          rw [hcontribution] at h
          exact hlater (ih h)
      | error own =>
          rw [hcontribution] at h
          cases isolated with
          | false =>
              cases h
              exact Or.inr ⟨0, branchId, reply, rfl, hcontribution⟩
          | true =>
              rcases hlater (ih h) with hretained | hsource
              · unfold retainHigherPriorityJoinError at hretained
                cases selected with
                | none =>
                    cases hretained
                    exact Or.inr ⟨0, branchId, reply, rfl, hcontribution⟩
                | some current =>
                    dsimp only at hretained
                    split at hretained
                    · cases hretained
                      exact Or.inr ⟨0, branchId, reply, rfl, hcontribution⟩
                    · exact Or.inl hretained
              · exact Or.inr hsource

/-- A branch contributes a break only with the break signal, under its own index. -/
theorem contribution_breaks {index : Nat} {branchId : String} {reply : ChildReply}
    {error : JoinError} (h : joinContribution graph index branchId reply = .error error)
    (hbreak : error.error = .breakWith value) :
    error.index = index ∧ ∃ map, reply = .envelope .breakLoop value map := by
  cases reply with
  | error text =>
      cases h
      exact absurd hbreak (contextualized_ne_break _ text value)
  | envelope control result map =>
      cases control with
      | breakLoop =>
          cases h
          cases hbreak
          exact ⟨rfl, map, rfl⟩
      | normal =>
          simp only [joinContribution] at h
          cases hread : fromStr result with
          | ok parsed => rw [hread] at h; cases h
          | error message =>
              rw [hread] at h
              cases h
              cases hbreak

theorem join_breaks (htyped : engine.Typed) (hkind : nodeKind node.nodeType = some .join)
    (hrun : executeJoinNode engine ctx graph node nodeId execCtx machine =
      (.error (.raised (.breakWith value)), after)) :
    ∃ index branchId map,
      TakesBreak engine ctx graph node execCtx machine.results value index branchId ∧
      (branchRun engine ctx graph execCtx machine.results index branchId).2 =
        some (ChildReply.envelope .breakLoop value map).text := by
  cases hleft : node.leftNode with
  | none =>
      unfold executeJoinNode mergeJoinBranches at hrun
      rw [hleft] at hrun
      cases hrun
  | some leftId =>
      cases hright : node.rightNode with
      | none =>
          unfold executeJoinNode mergeJoinBranches at hrun
          rw [hleft, hright] at hrun
          cases hrun
      | some rightId =>
          rcases join_executes htyped ctx graph nodeId execCtx hleft hright machine with
            ⟨replies, hbranches, hreplies, hjoin⟩ | hstuck
          · rw [hjoin] at hrun
            rcases hselected : joinReplies graph execCtx.failureIsolated 0 replies [] none
              machine.results with ⟨error | values, merged⟩
            · rw [hselected] at hrun
              obtain ⟨hoffset, branchId, reply, hget, hcontribution⟩ :=
                (join_error_source hselected).resolve_left (by simp)
              simp only [Prod.mk.injEq, Except.error.injEq, Stop.raised.injEq] at hrun
              obtain ⟨hindex, map, rfl⟩ := contribution_breaks hcontribution hrun.1
              rw [Nat.zero_add] at hindex
              subst hindex
              exact ⟨_, branchId, map,
                .join hkind hleft hright hbranches hreplies hselected hget, hreplies hget⟩
            · rw [hselected] at hrun
              cases hrun
          · rw [hstuck] at hrun
            cases hrun

theorem race_breaks (htyped : engine.Typed) (hkind : nodeKind node.nodeType = some .race)
    (hrun : executeRaceNode engine ctx graph node nodeId execCtx machine =
      (.error (.raised (.breakWith value)), after)) :
    ∃ index branchId map,
      TakesBreak engine ctx graph node execCtx machine.results value index branchId ∧
      (branchRun engine ctx graph execCtx machine.results index branchId).2 =
        some (ChildReply.envelope .breakLoop value map).text := by
  unfold executeRaceNode at hrun
  cases hleft : node.leftNode with
  | none => rw [hleft] at hrun; cases hrun
  | some leftId =>
      cases hright : node.rightNode with
      | none => rw [hleft, hright] at hrun; cases hrun
      | some rightId =>
          simp only [hleft, hright, or_missing_some, pure_bind] at hrun
          rw [bind_ok (read_results_apply machine)] at hrun
          have hselect := select_children_apply engine ctx machine
            (childContext ctx leftId (ctx.path ++ [.branch 0]))
            (childContext ctx rightId (ctx.path ++ [.branch 1]))
            (buildSubtreeInput graph leftId machine.results execCtx)
            (buildSubtreeInput graph rightId machine.results execCtx)
          have hwinner : winnerRun engine ctx
              (childContext ctx leftId (ctx.path ++ [.branch 0]))
              (childContext ctx rightId (ctx.path ++ [.branch 1]))
              (buildSubtreeInput graph leftId machine.results execCtx)
              (buildSubtreeInput graph rightId machine.results execCtx) =
              branchRun engine ctx graph execCtx machine.results
                (if ctx.world.leftWins ctx.path then 0 else 1)
                (if ctx.world.leftWins ctx.path then leftId else rightId) := by
            unfold winnerRun branchRun
            split <;> rfl
          rw [hwinner] at hselect
          cases hreply : (branchRun engine ctx graph execCtx machine.results
            (if ctx.world.leftWins ctx.path then 0 else 1)
            (if ctx.world.leftWins ctx.path then leftId else rightId)).2 with
          | none =>
              rw [hreply] at hselect
              rw [bind_error hselect] at hrun
              cases hrun
          | some text =>
              obtain ⟨reply, rfl⟩ := htyped.child hreply
              rw [hreply] at hselect
              rw [bind_ok hselect] at hrun
              obtain ⟨context, quiet, -, -, hfinish⟩ := finish_race_apply ctx graph node leftId
                rightId (ctx.world.leftWins ctx.path) reply _
              rw [hfinish] at hrun
              obtain ⟨map, rfl⟩ := reply_breaks (Prod.mk.inj hrun).1
              exact ⟨_, _, map, .race hkind hleft hright hreply, hreply⟩

/-- The handler of a node ends with a break only for a BREAK node, or with the break of a child. -/
theorem inner_breaks (htyped : engine.Typed)
    (hloop : nodeKind node.nodeType ≠ some .loop)
    (hrun : executeNodeInner engine ctx graph node nodeId execCtx machine =
      (.error (.raised (.breakWith value)), after)) :
    (nodeKind node.nodeType = some .breakNode ∧ value = breakValue node.query) ∨
    (∃ step id middle, Executes engine ctx graph node execCtx machine step id middle ∧
      engine.node (ctx.down step) graph id execCtx middle =
        (.error (.raised (.breakWith value)), after)) ∨
    ∃ index branchId map,
      TakesBreak engine ctx graph node execCtx machine.results value index branchId ∧
      (branchRun engine ctx graph execCtx machine.results index branchId).2 =
        some (ChildReply.envelope .breakLoop value map).text := by
  have hleaf : ∀ {program : Orch String}, IsLeaf ctx node program →
      program machine = (.error (.raised (.breakWith value)), after) →
      nodeKind node.nodeType = some .breakNode ∧ value = breakValue node.query := by
    intro program hprogram heq
    have hleafRun := hprogram machine
    rw [heq] at hleafRun
    cases hleafRun with
    | broke hkind => exact ⟨hkind, rfl⟩
  unfold executeNodeInner at hrun
  cases hkind : nodeKind node.nodeType with
  | none => rw [hkind] at hrun; cases hrun
  | some kind =>
      rw [← hkind]
      have hstores : kind ≠ .sleep → kind ≠ .waitSchedule → unstoredResult node = none := by
        intro hsleep hschedule
        unfold unstoredResult
        rw [hkind]
        cases kind <;> first | rfl | contradiction
      rw [hkind] at hrun
      cases kind with
      | loop => exact absurd hkind hloop
      | thenNode => exact Or.inr (Or.inl (then_breaks hkind hrun))
      | ifNode => exact Or.inr (Or.inl (if_breaks hkind hrun))
      | join => exact Or.inr (Or.inr (join_breaks htyped hkind hrun))
      | race => exact Or.inr (Or.inr (race_breaks htyped hkind hrun))
      | sleep => exact Or.inl (hleaf (sleep_is_leaf ctx node nodeId hkind) hrun)
      | waitSchedule => exact Or.inl (hleaf (wait_schedule_is_leaf ctx node nodeId hkind) hrun)
      | breakNode => exact Or.inl (hleaf (break_is_leaf ctx node hkind) hrun)
      | sql =>
          exact Or.inl (hleaf (sql_is_leaf ctx node nodeId execCtx _ _
            (hstores (by simp) (by simp))) hrun)
      | http =>
          exact Or.inl (hleaf (http_is_leaf ctx node nodeId execCtx _
            (hstores (by simp) (by simp))) hrun)
      | httpMultipart =>
          exact Or.inl (hleaf (http_multipart_is_leaf ctx node nodeId execCtx _
            (hstores (by simp) (by simp))) hrun)
      | signal =>
          exact Or.inl (hleaf (signal_is_leaf ctx node nodeId (hstores (by simp) (by simp))) hrun)

/-- A body that stops its loop does not do so with a break. -/
theorem body_result_ne_break {outcome : Except Stop String} :
    inlineBodyResult outcome ≠ .stopped (.raised (.breakWith value)) := by
  rcases outcome with ((other | message | message) | input | _) | other <;> simp [inlineBodyResult]

/-- A failure-isolated body that stops its loop does not do so with a break. -/
theorem isolated_result_ne_break {reply : ChildReply} :
    isolatedBodyResult reply ≠ .stopped (.raised (.breakWith value)) := by
  rcases reply with ⟨_ | _, other, map⟩ | text
  · simp [isolatedBodyResult]
  · simp [isolatedBodyResult]
  · cases hdecode : decodeSubtreeApplicationFailure text <;> simp [isolatedBodyResult, hdecode]

/-- A condition that stops its loop does not do so with a break. -/
theorem condition_end_ne_break {result : String} {outcome : Except Stop String} :
    conditionEnd result outcome ≠ .error (.raised (.breakWith value)) := by
  rcases outcome with ((other | message | message) | input | _) | other <;> simp [conditionEnd]

/-- A loop never ends with a break: it catches those of its body and of its condition. -/
theorem loop_catches
    (hrun : LoopRun engine ctx graph node nodeId execCtx machine
      (.error (.raised (.breakWith value))) after) : False := by
  cases hrun with
  | stopped hbody hconfig hiteration =>
      generalize hend : Except.error (Stop.raised (.breakWith value)) = outcome at hiteration
      cases hiteration with
      | consumed | broke | unconditional => cases hend
      | conditional => exact condition_end_ne_break hend.symm
      | stopped hrun =>
          cases hend
          generalize hresult : BodyResult.stopped (.raised (.breakWith value)) = result at hrun
          cases hrun with
          | stuck => cases hresult
          | inline => exact body_result_ne_break hresult.symm
          | isolated => exact isolated_result_ne_break hresult.symm

end Handlers

/-! ## Loops catch breaks -/

/-- Loops of the interpreter and of its children never end with a break. -/
structure Catches (engine : Engine) : Prop where
  node : ∀ {ctx graph node nodeId execCtx machine value after},
    graph.nodes[nodeId]? = some node → nodeKind node.nodeType = some .loop →
    engine.node ctx graph nodeId execCtx machine ≠ (.error (.raised (.breakWith value)), after)
  reply : ∀ {ctx graph node nodeId execCtx results iteration value map},
    graph.nodes[nodeId]? = some node → nodeKind node.nodeType = some .loop → iteration < 2 ^ 64 →
    (engine.subtree ctx (subtreeText graph nodeId results execCtx iteration)).2 ≠
      some (ChildReply.envelope .breakLoop value map).text

/-- A scheduled child replies with a break only where the interpreter does. -/
theorem run_child_reply {engine : Engine} {child : OrchestrationContext} {input value : String}
    {map : StringMap}
    (h : (runChild engine child input).2 = some (ChildReply.envelope .breakLoop value map).text) :
    (engine.subtree child input).2 = some (ChildReply.envelope .breakLoop value map).text := by
  unfold runChild at h
  cases hfault : child.world.runtimeFault child.path child.instanceId with
  | some error => rw [hfault] at h; cases h
  | none => rwa [hfault] at h

/-- A generation of a child replies with a break because its root node breaks, or its next
generation replies so. -/
theorem subtree_breaks {engine : Engine} (hengine : Sound engine) {ctx : OrchestrationContext}
    {graph : FunctionGraph} {nodeId : String} {execCtx : ExecutionContext} {results : StringMap}
    {iteration : Nat} {value : String} {map : StringMap} (hiteration : iteration < 2 ^ 64)
    (h : (runSubtree engine ctx (subtreeText graph nodeId results execCtx iteration)).2 =
      some (ChildReply.envelope .breakLoop value map).text) :
    (∃ after, engine.node ctx graph nodeId (execCtx.enter nodeId iteration) ⟨results, []⟩ =
      (.error (.raised (.breakWith value)), after)) ∨
    ∃ after next, next < 2 ^ 64 ∧
      engine.node ctx graph nodeId (execCtx.enter nodeId iteration) ⟨results, []⟩ =
        (.error (.continuedAsNew (subtreeText graph nodeId after.results execCtx next)), after) ∧
      (engine.subtree { ctx with executionId := ctx.executionId + 1 }
        (subtreeText graph nodeId after.results execCtx next)).2 =
          some (ChildReply.envelope .breakLoop value map).text := by
  have hgood := hengine.node ctx graph nodeId (execCtx.enter nodeId iteration) ⟨results, []⟩
  rw [run_subtree_reads _ _ _ _ _ _ hiteration] at h
  rcases hrun : engine.node ctx graph nodeId (execCtx.enter nodeId iteration) ⟨results, []⟩ with
    ⟨outcome, after⟩
  rw [hrun] at hgood h
  rcases outcome with ((other | message | message) | input | _) | other
  · cases @child_reply_text_injective (.envelope .breakLoop other after.results) _
      (Option.some.inj h)
    exact Or.inl ⟨after, rfl⟩
  · cases @child_reply_text_injective (.error _) _ (Option.some.inj h)
  · cases @child_reply_text_injective (.error _) _ (Option.some.inj h)
  · obtain ⟨next, hnext, hinput⟩ := hgood.continues rfl
    rw [continuation_input_eq _ _ _ _ rfl] at hinput
    rw [hinput] at h ⊢
    exact Or.inr ⟨after, next, hnext, rfl, h⟩
  · cases h
  · cases @child_reply_text_injective (.envelope .normal other after.results) _
      (Option.some.inj h)

/-- A node ends with a break only if its handler does, or the child of a loop replies with one. -/
theorem node_breaks {engine : Engine} (htyped : engine.Typed) {ctx : OrchestrationContext}
    {graph : FunctionGraph} {nodeId : String} {execCtx : ExecutionContext}
    {machine after : Machine} {value : String}
    (hrun : executeFunctionNodeWithVars engine ctx graph nodeId execCtx machine =
      (.error (.raised (.breakWith value)), after)) :
    ∃ node, graph.nodes[nodeId]? = some node ∧
      ((∃ inner, executeNodeInner engine ctx graph node nodeId execCtx
          (started ctx graph nodeId machine) = (.error (.raised (.breakWith value)), inner)) ∨
        nodeKind node.nodeType = some .loop ∧ ∃ map,
          (engine.subtree (childContext ctx nodeId ctx.path)
            (subtreeText graph nodeId machine.results execCtx 0)).2 =
              some (ChildReply.envelope .breakLoop value map).text) := by
  cases hnode : graph.nodes[nodeId]? with
  | none =>
      unfold executeFunctionNodeWithVars at hrun
      rw [hnode] at hrun
      cases hrun
  | some node =>
      refine ⟨node, rfl, ?_⟩
      by_cases hchild : nodeKind node.nodeType = some .loop ∧ nodeId ≠ execCtx.subtreeRoot
      · right
        obtain ⟨hkind, hroot⟩ := hchild
        rw [loop_child_applies hnode hkind hroot] at hrun
        refine ⟨hkind, ?_⟩
        have hruns := @loop_child_runs _ htyped ctx graph node nodeId execCtx
          (machine.logged [.visited ctx.site nodeId])
        rw [hrun] at hruns
        generalize hend : Except.error (Stop.raised (.breakWith value)) = outcome at hruns
        cases hruns with
        | failed => cases hend
        | stuck => cases hend
        | replied _ _ hreply =>
            obtain ⟨map, rfl⟩ := reply_breaks hend.symm
            exact ⟨map, run_child_reply hreply⟩
      · left
        have hroot : nodeKind node.nodeType = some .loop → nodeId = execCtx.subtreeRoot :=
          fun hkind => not_not.1 fun hne => hchild ⟨hkind, hne⟩
        rw [node_applies hnode hroot] at hrun
        rcases hinner : executeNodeInner engine ctx graph node nodeId execCtx
          (started ctx graph nodeId machine) with ⟨outcome, inner⟩
        have houtcome := congrArg Prod.fst hrun
        rw [closed_outcome, hinner] at houtcome
        exact ⟨inner, congrArg (·, inner) houtcome⟩

theorem node_catches {engine : Engine} (htyped : engine.Typed) (hcatches : Catches engine)
    {ctx : OrchestrationContext} {graph : FunctionGraph} {node : FunctionNode} {nodeId : String}
    {execCtx : ExecutionContext} {machine after : Machine} {value : String}
    (hnode : graph.nodes[nodeId]? = some node) (hkind : nodeKind node.nodeType = some .loop) :
    executeFunctionNodeWithVars engine ctx graph nodeId execCtx machine ≠
      (.error (.raised (.breakWith value)), after) := by
  intro hrun
  obtain ⟨other, hother, ⟨inner, hinner⟩ | ⟨-, map, hreply⟩⟩ := node_breaks htyped hrun
  · rw [hnode, Option.some.injEq] at hother
    subst hother
    have hloop := @loop_runs engine ctx graph node nodeId execCtx htyped
      (started ctx graph nodeId machine)
    rw [← inner_loop hkind, hinner] at hloop
    exact loop_catches hloop
  · exact hcatches.reply hnode hkind (by decide) hreply

/-- Every interpreter catches breaks at its loops. -/
theorem engine_catches (fuel : Nat) : Catches (engine fuel) := by
  induction fuel with
  | zero => exact ⟨fun _ _ h => (by cases h), fun _ _ _ h => (by cases h)⟩
  | succ fuel ih =>
      refine ⟨fun hnode hkind => node_catches (engine_typed fuel) ih hnode hkind,
        fun hnode hkind hiteration h => ?_⟩
      rcases subtree_breaks (engine_sound fuel) hiteration h with
        ⟨after, hrun⟩ | ⟨after, next, hnext, -, hreply⟩
      · exact ih.node hnode hkind hrun
      · exact ih.reply hnode hkind hnext hreply

/-! ## Every break has a site -/

/-- The breaks of the interpreter and of its children have sites. -/
structure Sited (fuel : Nat) : Prop where
  node : ∀ {ctx graph nodeId execCtx machine value after},
    (engine fuel).node ctx graph nodeId execCtx machine =
      (.error (.raised (.breakWith value)), after) →
    ∃ site, Breaks site value fuel ctx graph nodeId execCtx machine
  reply : ∀ {ctx graph nodeId execCtx results iteration value map}, iteration < 2 ^ 64 →
    ((engine fuel).subtree ctx (subtreeText graph nodeId results execCtx iteration)).2 =
      some (ChildReply.envelope .breakLoop value map).text →
    ∃ site, ChildBreaks site value fuel ctx graph nodeId execCtx results iteration

/-- A node that breaks has a site: its own, or the one of the child whose break it takes. -/
theorem node_sited {fuel : Nat} (hsited : Sited fuel) {ctx : OrchestrationContext}
    {graph : FunctionGraph} {nodeId : String} {execCtx : ExecutionContext}
    {machine after : Machine} {value : String}
    (hrun : executeFunctionNodeWithVars (engine fuel) ctx graph nodeId execCtx machine =
      (.error (.raised (.breakWith value)), after)) :
    ∃ site, Breaks site value (fuel + 1) ctx graph nodeId execCtx machine := by
  obtain ⟨node, hnode, ⟨inner, hinner⟩ | ⟨hkind, -⟩⟩ := node_breaks (engine_typed fuel) hrun
  swap
  · exact absurd hrun (node_catches (engine_typed fuel) (engine_catches fuel) hnode hkind)
  have hloop : nodeKind node.nodeType ≠ some .loop := fun hkind =>
    node_catches (engine_typed fuel) (engine_catches fuel) hnode hkind hrun
  rcases inner_breaks (engine_typed fuel) hloop hinner with
    ⟨hkind, hvalue⟩ | ⟨step, id, middle, hexecutes, hchild⟩ |
    ⟨index, branchId, map, htakes, hreply⟩
  · exact ⟨⟨node, machine.results, execCtx.vars, ⟨graph.instanceId, execCtx.label⟩⟩,
      .here hnode hkind rfl rfl rfl hvalue⟩
  · obtain ⟨site, hbreaks⟩ := hsited.node hchild
    exact ⟨site, .sequence hnode hexecutes hbreaks⟩
  · obtain ⟨site, hbreaks⟩ := hsited.reply (by decide) (run_child_reply hreply)
    exact ⟨site, .branch hnode htakes hbreaks⟩

/-- All breaks have sites. -/
theorem breaks_sited (fuel : Nat) : Sited fuel := by
  induction fuel with
  | zero => exact ⟨fun h => (by cases h), fun _ h => (by cases h)⟩
  | succ fuel ih =>
      refine ⟨node_sited ih, fun hiteration h => ?_⟩
      rcases subtree_breaks (engine_sound fuel) hiteration h with
        ⟨after, hrun⟩ | ⟨after, next, hnext, hrun, hreply⟩
      · obtain ⟨site, hbreaks⟩ := ih.node hrun
        exact ⟨site, .now hbreaks⟩
      · obtain ⟨site, hbreaks⟩ := ih.reply hnext hreply
        exact ⟨site, .later hrun hbreaks⟩

/-- A break carries the value that its BREAK node raises, through any number of children. -/
theorem breaks_value {site : BreakSite} {value : String} (fuel : Nat) :
    (∀ {ctx graph nodeId execCtx machine},
      Breaks site value fuel ctx graph nodeId execCtx machine →
      value = breakValue site.node.query) ∧
    ∀ {ctx graph nodeId execCtx results iteration},
      ChildBreaks site value fuel ctx graph nodeId execCtx results iteration →
      value = breakValue site.node.query := by
  induction fuel with
  | zero => exact ⟨fun h => (by cases h), fun h => (by cases h)⟩
  | succ fuel ih =>
      refine ⟨fun h => ?_, fun h => ?_⟩
      · cases h with
        | here _ _ _ _ _ hvalue => exact hvalue
        | sequence _ _ hbreaks => exact ih.1 hbreaks
        | branch _ _ hbreaks => exact ih.2 hbreaks
      · cases h with
        | now hbreaks => exact ih.1 hbreaks
        | later _ hbreaks => exact ih.2 hbreaks

/-! ## Loops that complete through a break -/

section LoopBreaks

variable (fuel : Nat) (ctx : OrchestrationContext) (graph : FunctionGraph) (node : FunctionNode)
  (nodeId : String) (execCtx : ExecutionContext) (machine : Machine)

/-- The loop completes through the break of the site, which its body or its condition executes. -/
inductive LoopBreaks (site : BreakSite) (value : String) : Prop
  | body {config : LoopConfig} {bodyId : String} (hbody : node.leftNode = some bodyId)
      (hconfig : parseLoopConfig node nodeId = .ok config)
      (hmode : config.continueOnFailure = false)
      (hbreaks : Breaks site value fuel (ctx.down (.loopBody execCtx.loopIteration)) graph bodyId
        execCtx machine)
  | isolated {config : LoopConfig} {bodyId : String} (hbody : node.leftNode = some bodyId)
      (hconfig : parseLoopConfig node nodeId = .ok config)
      (hmode : config.continueOnFailure = true)
      (hbreaks : ChildBreaks site value fuel
        (childContext ctx bodyId (ctx.path ++ [.loopBody execCtx.loopIteration])) graph bodyId
        { execCtx with failureIsolated := true } machine.results 0)
  | condition {config : LoopConfig} {bodyId conditionId result : String} {middle : Machine}
      (hbody : node.leftNode = some bodyId) (hconfig : parseLoopConfig node nodeId = .ok config)
      (hrun : BodyRun (engine fuel) ctx graph execCtx config bodyId machine (.finished result) middle)
      (hcondition : config.conditionNode = some conditionId)
      (hbreaks : Breaks site value fuel (ctx.down (.loopCondition execCtx.loopIteration)) graph
        conditionId execCtx middle)

/-- The loop completes with the result of its body because its condition is false. -/
def LoopFinishes (value : String) : Prop :=
  ∃ config bodyId conditionId middle conditionResult after,
    node.leftNode = some bodyId ∧ parseLoopConfig node nodeId = .ok config ∧
    BodyRun (engine fuel) ctx graph execCtx config bodyId machine (.finished value) middle ∧
    config.conditionNode = some conditionId ∧
    (engine fuel).node (ctx.down (.loopCondition execCtx.loopIteration)) graph conditionId execCtx
      middle = (.ok conditionResult, after) ∧
    evaluateCondition conditionResult = .ok false

end LoopBreaks

/-- A loop that completes does so because its condition is false or through a break, which has a
site. -/
theorem loop_break_sites {fuel : Nat} {ctx : OrchestrationContext} {graph : FunctionGraph}
    {node : FunctionNode} {nodeId value : String} {execCtx : ExecutionContext}
    {machine after : Machine}
    (hrun : LoopRun (engine fuel) ctx graph node nodeId execCtx machine (.ok value) after) :
    LoopFinishes fuel ctx graph node nodeId execCtx machine value ∨
      ∃ site, LoopBreaks fuel ctx graph node nodeId execCtx machine site value := by
  cases hrun with
  | @ended config bodyId _ _ hbody hconfig hiteration =>
      generalize hend : Except.ok (some value) = outcome at hiteration
      cases hiteration with
      | stopped | consumed | unconditional => cases hend
      | broke hrun =>
          right
          cases hend
          generalize hresult : BodyResult.broke value = result at hrun
          cases hrun with
          | stuck => cases hresult
          | @inline outcome _ hmode hrun =>
              rcases outcome with ((other | message | message) | input | _) | other <;>
                cases hresult
              obtain ⟨site, hbreaks⟩ := (breaks_sited fuel).node hrun
              exact ⟨site, .body hbody hconfig hmode hbreaks⟩
          | @isolated _ reply hmode _ hreply =>
              rcases reply with ⟨_ | _, other, map⟩ | text
              · cases hresult
              · cases hresult
                obtain ⟨site, hbreaks⟩ :=
                  (breaks_sited fuel).reply (by decide) (run_child_reply hreply)
                exact ⟨site, .isolated hbody hconfig hmode hbreaks⟩
              · cases hdecode : decodeSubtreeApplicationFailure text <;>
                  simp [isolatedBodyResult, hdecode] at hresult
      | @conditional result conditionId outcome _ _ _ hrun hcondition hnode _ =>
          rcases outcome with ((other | message | message) | input | _) | conditionResult
          · right
            cases hend
            obtain ⟨site, hbreaks⟩ := (breaks_sited fuel).node hnode
            exact ⟨site, .condition hbody hconfig hrun hcondition hbreaks⟩
          · cases hend
          · cases hend
          · cases hend
          · cases hend
          · left
            obtain ⟨isTrue, hevaluate⟩ := evaluate_condition_ok conditionResult
            simp only [conditionEnd, hevaluate, Except.toOption, Option.getD_some] at hend
            cases isTrue with
            | true => cases hend
            | false =>
                cases hend
                exact ⟨_, _, _, _, _, _, hbody, hconfig, hrun, hcondition, hnode, hevaluate⟩

/-- A loop whose body runs a named query and breaks with a value. -/
def queryThenBreak (breakValue : String) : FunctionGraph where
  instanceId := "aaaaaaaa"
  rootNodeId := "bbbbbbbb"
  nodes :=
    ((((∅ : Std.ExtTreeMap String FunctionNode).insert "bbbbbbbb"
      ⟨"bbbbbbbb", "LOOP", none, none, some "cccccccc", none, "alice", none⟩).insert
      "cccccccc"
      ⟨"cccccccc", "THEN", none, none, some "dddddddd", some "eeeeeeee", "alice", none⟩).insert
      "dddddddd"
      ⟨"dddddddd", "SQL", some "SELECT summary FROM r", some "r", none, none, "alice", none⟩).insert
      "eeeeeeee" ⟨"eeeeeeee", "BREAK", some (print (.object [("break_value", .string breakValue)])),
        none, none, none, "alice", none⟩
  sqlQuotingVersion := .v1

/-- The loop node of that graph. -/
def breakingLoop : FunctionNode :=
  ⟨"bbbbbbbb", "LOOP", none, none, some "cccccccc", none, "alice", none⟩

/-- The result of the query. -/
def summaryRows : String := "\x7b\"rows\":[\x7b\"summary\":\"all done\"\x7d],\"row_count\":1\x7d"

/-- The root orchestration of that graph; its activities answer with the rows. -/
def breakingContext : OrchestrationContext :=
  ⟨{ World.quiet with activity := fun _ _ _ _ => .ok summaryRows }, "aaaaaaaa", 1, []⟩

/-- Its execution context. -/
def breakingExecution : ExecutionContext := ⟨∅, none, false, 0, "bbbbbbbb", .root⟩

/-- The BREAK node of that graph, executed after the query. -/
def breakingSite (breakValue : String) : BreakSite :=
  ⟨⟨"eeeeeeee", "BREAK", some (print (.object [("break_value", .string breakValue)])), none, none,
    none, "alice", none⟩, (∅ : StringMap).insert "r" summaryRows, ∅, ⟨"aaaaaaaa", none⟩⟩

/-- The body of the loop, at its first iteration. -/
def breakingBody : OrchestrationContext := breakingContext.down (.loopBody 0)

/-- The loop completes through its BREAK node, once the query has bound its rows. -/
theorem breaking_loop_breaks {text first : String} {middle : Machine}
    (hfirst : (engine 1).node (breakingBody.down .thenLeft) (queryThenBreak text) "dddddddd"
      breakingExecution (started breakingBody (queryThenBreak text) "cccccccc" ⟨∅, []⟩) =
        (.ok first, middle))
    (hresults : middle.results = (∅ : StringMap).insert "r" summaryRows) :
    LoopBreaks 3 breakingContext (queryThenBreak text) breakingLoop "bbbbbbbb" breakingExecution
      ⟨∅, []⟩ (breakingSite text) (breakValue (breakingSite text).node.query) := by
  have hsequence : (queryThenBreak text).nodes["cccccccc"]? = some
      ⟨"cccccccc", "THEN", none, none, some "dddddddd", some "eeeeeeee", "alice", none⟩ := by
    simp only [queryThenBreak, Std.ExtTreeMap.getElem?_insert]
    rfl
  have hbreak : (queryThenBreak text).nodes["eeeeeeee"]? = some (breakingSite text).node := by
    simp only [queryThenBreak, breakingSite, Std.ExtTreeMap.getElem?_insert]
    rfl
  refine .body rfl rfl rfl (.sequence hsequence (.thenRight (by decide) rfl rfl hfirst) ?_)
  exact .here hbreak (show nodeKind "BREAK" = some .breakNode by decide) hresults.symm rfl rfl rfl

end PgDurable.Orchestration
