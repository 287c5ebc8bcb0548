import PgDurable.Dsl.Execution

/-!
# Joins, races and loops

The steps that run others as children: the branches of joins and races, loops below the root of
their orchestration, and the bodies of loops that go on after failures. A child gets the named
results as a text and its workflow as the id of a row; `child_spawned` says that it replies all the
same what the workflow does with these results.
-/

namespace PgDurable.Dsl

open Json Text InsertNodes Orchestration Program

section Composite

variable {surroundings : Surroundings} {graph : FunctionGraph} {engine : Engine}
variable {evaluator : Evaluator} {ctx : OrchestrationContext} {execCtx : ExecutionContext}
variable {w : Workflow} {tree : StoredNode} {below : Forest StoredNode}
variable (hfault : ∀ path id, surroundings.world.runtimeFault path id = surroundings.fault path)
variable (heval : Evaluates surroundings graph engine evaluator)
variable (hin : Belongs surroundings ctx execCtx)

include hfault heval hin

/-- The branches of a join reply what the evaluator of their workflows replies. -/
theorem branches_spawned {branches : List Workflow} {forest : Forest StoredNode} {start : Nat}
    (hloaded : Loaded surroundings graph.nodes branches forest)
    (hnames : NamesSteps surroundings (ctx.path.map slot) start forest) (results : StringMap) :
    (forest.roots.map (·.row.id)).mapIdx (fun index id =>
        (runChild engine (childContext ctx id (ctx.path ++ [.branch (start + index)]))
          (buildSubtreeInput graph id results execCtx)).2) =
      (branches.mapIdx fun index b => spawn surroundings evaluator
        ((placeOf ctx execCtx).down (.branch (start + index))) b results).map
          (Option.map ChildReply.text) := by
  induction branches generalizing forest start with
  | nil =>
      obtain rfl := hloaded.nil
      rfl
  | cons b branches ih =>
      obtain ⟨tree, below, rest, rfl, hfirst, hrest, hnames⟩ := hloaded.cons hnames
      -- The slot of a branch is its index.
      have hslots : ctx.path.map slot ++ [start] =
          (ctx.path ++ [Orchestration.Step.branch (start + 0)]).map slot := by
        rw [List.map_append]
        rfl
      rw [hslots] at hfirst
      have hspawned := child_spawned hfault heval hin execCtx.failureIsolated hfirst results
      rw [Forest.roots, List.map_cons, List.mapIdx_cons, List.mapIdx_cons, List.map_cons]
      refine congrArg₂ List.cons hspawned ?_
      have hothers := ih hrest hnames
      simp only [Nat.add_right_comm start 1] at hothers
      exact hothers

section Handlers

variable (hinstalled : Installed surroundings graph.nodes (ctx.path.map slot) w tree below)
include hinstalled

omit hfault heval hin hinstalled in
theorem join_shape {branches : List Workflow} (h : w.shape = .join branches) :
    ∃ a b more, branches = a :: b :: more := by
  induction w with
  | asNamed fut name ih => exact ih h
  | leaf call | text | thenFn | loop | loopWhile | ifFn | ifRowsFn | race => cases h
  | join a b => exact ⟨a, b, [], (Shape.join.inj h).symm⟩
  | join3 a b c => exact ⟨a, b, [c], (Shape.join.inj h).symm⟩

theorem join_performs {branches : List Workflow} (hshape : w.shape = .join branches) :
    Performs id (executeJoinNode engine ctx graph (nodeOf surroundings tree) tree.row.id execCtx)
      (stepEffect surroundings evaluator (placeOf ctx execCtx) w) := by
  have hchildren := hinstalled.children
  have hstored := hinstalled.stored_as
  have hname : (nodeOf surroundings tree).resultName = w.name := hstored.result_name
  have hreferences := hinstalled.references_eq
  obtain ⟨a, b, more, rfl⟩ := join_shape hshape
  rw [hshape] at hchildren hstored
  obtain ⟨first, inner, rest, hbelow, -, hrest, hnames⟩ := hchildren.cons hinstalled.names
  obtain ⟨second, inner', rest, rfl, -, -, -⟩ := hrest.cons hnames
  rw [hbelow] at hreferences
  obtain ⟨hleft, hright, hids⟩ := join_decoded hstored hreferences
    (rfl : (nodeOf surroundings tree).query = tree.row.query)
  have hleft : (nodeOf surroundings tree).leftNode = some first.row.id := hleft
  have hright : (nodeOf surroundings tree).rightNode = some second.row.id := hright
  have hids : joinBranchIds (nodeOf surroundings tree) first.row.id second.row.id =
      below.roots.map (·.row.id) := by
    rw [hids, hbelow]
    rfl
  rw [executeJoinNode, mergeJoinBranches, hleft, or_missing_some, pure_bind, hright,
    or_missing_some, pure_bind, hids, stepEffect, hshape]
  simp only [bind_assoc]
  refine performs_read fun results => ?_
  have hspawned := branches_spawned hfault heval hin hchildren hinstalled.names results
  simp only [Nat.zero_add] at hspawned
  refine performs_joined ?_ fun found hfound => ?_
  -- The children of a join are its branches in order.
  · have hruns : (branchChildren ctx graph execCtx results (below.roots.map (·.row.id))).map
        (fun child => (runChild engine child.1 child.2).2) =
        (below.roots.map (·.row.id)).mapIdx fun index id =>
          (runChild engine (childContext ctx id (ctx.path ++ [.branch index]))
            (buildSubtreeInput graph id results execCtx)).2 := by
      refine (List.mapIdx_eq_iff.2 fun index => ?_).symm
      rw [branchChildren, List.getElem?_map, List.getElem?_mapIdx, Option.map_map]
      rfl
    rw [hruns]
    exact hspawned
  · have hchildren : (Shape.join (a :: b :: more)).children = a :: b :: more := rfl
    rw [hchildren, hfound, List.map_map] at hspawned
    -- Each branch replied once, so names and replies are paired without a rest.
    have hlength : found.length ≤ (below.roots.map (·.row.id)).length := by
      have hcount := congrArg List.length hspawned
      rw [List.length_mapIdx, List.length_map, List.length_map] at hcount
      rw [List.length_map]
      exact hcount.ge
    have houtcomes := @performs_join_outcomes ctx graph execCtx
      ((below.roots.map (·.row.id)).zip found) 0 [] none
    rw [List.map_snd_zip hlength] at houtcomes
    rw [List.zip_map_right]
    exact simulates_bind houtcomes fun values => performs_result hname (print (.array values))

theorem race_performs {a b : Workflow} (hshape : w.shape = .race a b) :
    Performs id (executeRaceNode engine ctx graph (nodeOf surroundings tree) tree.row.id execCtx)
      (stepEffect surroundings evaluator (placeOf ctx execCtx) w) := by
  have hchildren := hinstalled.children
  have hstored := hinstalled.stored_as
  have hname : (nodeOf surroundings tree).resultName = w.name := hstored.result_name
  rw [hshape] at hchildren hstored
  obtain ⟨first, inner, rest, rfl, hfirst, hrest, hnames⟩ := hchildren.cons hinstalled.names
  obtain ⟨second, inner', rest, rfl, hsecond, hrest, -⟩ := hrest.cons hnames
  obtain rfl := hrest.nil
  obtain ⟨hleft, hright⟩ := race_decoded hstored hinstalled.references_eq
  have hleft : (nodeOf surroundings tree).leftNode = some first.row.id := hleft
  have hright : (nodeOf surroundings tree).rightNode = some second.row.id := hright
  have hslots : ∀ index, ctx.path.map slot ++ [index] =
      (ctx.path ++ [Orchestration.Step.branch index]).map slot := by
    intro index
    rw [List.map_append]
    rfl
  rw [Nat.zero_add] at hsecond
  rw [hslots] at hfirst hsecond
  rw [executeRaceNode, hleft, or_missing_some, pure_bind, hright, or_missing_some, pure_bind,
    stepEffect, hshape]
  refine performs_read fun results => ?_
  have hleftRun := child_spawned hfault heval hin execCtx.failureIsolated hfirst results
  have hrightRun := child_spawned hfault heval hin execCtx.failureIsolated hsecond results
  have hwinner : (winnerRun engine ctx (childContext ctx first.row.id (ctx.path ++ [.branch 0]))
      (childContext ctx second.row.id (ctx.path ++ [.branch 1]))
      (buildSubtreeInput graph first.row.id results execCtx)
      (buildSubtreeInput graph second.row.id results execCtx)).2 =
      (if surroundings.world.leftWins ctx.path then
        spawn surroundings evaluator ((placeOf ctx execCtx).down (.branch 0)) a results
      else spawn surroundings evaluator ((placeOf ctx execCtx).down (.branch 1)) b results).map
        ChildReply.text := by
    rw [winnerRun, hin.world]
    split_ifs
    · exact hleftRun
    · exact hrightRun
  exact performs_selected hwinner fun reply => hin.world ▸
    performs_finish_race hname first.row.id second.row.id (ctx.world.leftWins ctx.path) reply

/-- A loop below the root of its orchestration runs as a child. -/
theorem loop_child_performs {body : Workflow} {condition : Option Workflow}
    {continueOnFailure : Bool} (hshape : w.shape = .loop body condition continueOnFailure) :
    Performs id
      (executeLoopSuborchestration engine ctx graph (nodeOf surroundings tree) tree.row.id execCtx)
      (stepEffect surroundings evaluator (placeOf ctx execCtx) w) := by
  have hstored := hinstalled.stored_as
  rw [hshape] at hstored
  have hsome : (nodeOf surroundings tree).leftNode.isNone = false :=
    Option.not_isSome _ ▸ congrArg not hstored.left_node
  rw [executeLoopSuborchestration, if_neg (Bool.eq_false_iff.1 hsome), stepEffect, hshape]
  refine performs_read fun results => performs_scheduled
    (child_spawned hfault heval hin execCtx.failureIsolated hinstalled results) fun reply => ?_
  cases reply with
  | envelope control value entries => exact performs_envelope control value entries _
  | error text => exact performs_loop_failure tree.row.id _

end Handlers

/-! ## Loops -/

omit hfault heval hin in
/-- The result that ends a loop is stored. -/
theorem performs_last {node : FunctionNode} {name : Option String} (hname : node.resultName = name)
    (result : String) :
    Performs id (do
      storeNamedResult node result
      pure (some result)) (do
      store name result
      pure (some result)) := by
  subst hname
  exact simulates_bind (performs_store node result) fun _ => simulates_pure (some result)

/-- The condition of a loop is installed where its configuration says. -/
def ConditionAt (surroundings : Surroundings) (graph : FunctionGraph) (ctx : OrchestrationContext)
    (root : String) (conditionId : Option String) : Option Workflow → Prop
  | none => conditionId = none
  | some condition => ∃ tree below, conditionId = some tree.row.id ∧
      Installed surroundings graph.nodes (ctx.path.map slot ++ [1]) condition tree below ∧
      root ∉ (tree :: below.preorder).map (·.row.id)

omit hfault in
theorem after_body_performs {node : FunctionNode} {name : Option String}
    (hname : node.resultName = name) {condition : Option Workflow} {conditionId : Option String}
    (hcondition : ConditionAt surroundings graph ctx execCtx.subtreeRoot conditionId condition)
    (bodyResult : String) :
    Performs id (evaluateLoopCondition engine ctx graph node execCtx conditionId bodyResult)
      (afterBody evaluator (placeOf ctx execCtx) name condition execCtx.loopIteration bodyResult)
      := by
  cases condition with
  | none =>
      obtain rfl : conditionId = none := hcondition
      exact performs_pure none
  | some condition =>
      obtain ⟨tree, below, rfl, hinstalled, hout⟩ := hcondition
      refine simulates_bind (simulates_attempt (heval.step
        (hin.down (.loopCondition execCtx.loopIteration)) (down_slots _ ▸ hinstalled) hout))
        fun outcome => ?_
      cases outcome with
      | ok result =>
          dsimp only [reword, id]
          split_ifs
          · exact performs_pure none
          · exact performs_last hname bodyResult
      | error halt =>
          cases halt with
          | never => exact simulates_exit Halt.never
          | raised error =>
              cases error with
              | breakWith value => exact performs_last hname value
              | application message => exact performs_fail message
              | failure message => exact simulates_exit (Halt.raised (.failure message))

/-- An iteration of a loop whose body is installed. -/
theorem iterate_performs {node : FunctionNode} {name : Option String}
    (hname : node.resultName = name) {body : Workflow} {tree : StoredNode}
    {below : Forest StoredNode}
    (hbody : Installed surroundings graph.nodes (ctx.path.map slot ++ [0]) body tree below)
    (hout : execCtx.subtreeRoot ∉ (tree :: below.preorder).map (·.row.id))
    {condition : Option Workflow} {conditionId : Option String}
    (hcondition : ConditionAt surroundings graph ctx execCtx.subtreeRoot conditionId condition)
    (continueOnFailure : Bool) :
    Performs id
      (loopIteration engine ctx graph node execCtx ⟨continueOnFailure, conditionId⟩ tree.row.id)
      (iterate surroundings evaluator (placeOf ctx execCtx) name body condition continueOnFailure
        execCtx.loopIteration) := by
  have hafter := fun bodyResult =>
    after_body_performs heval hin hname hcondition bodyResult
  cases continueOnFailure with
  | false =>
      refine simulates_bind (simulates_attempt (heval.step
        (hin.down (.loopBody execCtx.loopIteration)) (down_slots _ ▸ hbody) hout))
        fun outcome => ?_
      cases outcome with
      | ok result => exact hafter result
      | error halt =>
          cases halt with
          | never => exact simulates_exit Halt.never
          | raised error =>
              cases error with
              | breakWith value => exact performs_last hname value
              | application message => exact simulates_exit (Halt.raised (.application message))
              | failure message => exact simulates_exit (Halt.raised (.failure message))
  | true =>
      have hslots : ctx.path.map slot ++ [0] = (ctx.path ++
          [Orchestration.Step.loopBody execCtx.loopIteration]).map slot := by
        rw [List.map_append]
        rfl
      rw [hslots] at hbody
      rw [loopIteration, if_pos rfl, iterate, if_pos rfl, runFailureIsolatedBody]
      simp only [bind_assoc]
      refine performs_read fun results => performs_scheduled
        (child_spawned hfault heval hin true hbody results) fun reply => ?_
      cases reply with
      | envelope control value entries =>
          cases control with
          | normal => exact simulates_bind (isolated_succeeds value entries) fun _ => hafter value
          | breakLoop =>
              exact simulates_bind (isolated_breaks value entries)
                fun _ => performs_last hname value
      | error text =>
          intro machine
          have hmerge : (Program.modify (ChildReply.error text).merge : Effect Unit)
              machine.results = (.ok (), machine.results) := rfl
          rw [isolated_error, bind_ok hmerge]
          dsimp only
          split_ifs <;> exact ⟨rfl, rfl⟩

end Composite

end PgDurable.Dsl
