import Mathlib.Data.List.MinMax
import Mathlib.Data.List.Perm.Basic
import PgDurable.Orchestration.Join

/-!
# The outcome of a join

`branchOutcome` says what a reply of a branch, well formed or not, counts for. A join sees the
replies in branch order, in whatever order the branches complete, and `join_outcome` says what it
makes of them: the results in branch order; outside failure isolation the first error; and inside
the first error of the greatest priority, so that no other error masks a failure.
-/

namespace PgDurable.Orchestration

open Json

/-! ## Outcomes of branches -/

/-- The outcome that an envelope carries. -/
def SubtreeEnvelope.outcome (envelope : SubtreeEnvelope) : Except NodeError String :=
  match envelope.control with
  | some .breakLoop => .error (.breakWith envelope.result)
  | some .normal => .ok envelope.result
  | none =>
      -- Earlier binaries mark a break inside the result.
      match parseLegacyBreakSentinel envelope.result with
      | some value => .error (.breakWith value)
      | none => .ok envelope.result

/-- The result of a branch as JSON. -/
def branchResult (index : Nat) (result : String) : Except NodeError Value :=
  (fromStr result).mapError fun e =>
    .failure ("JOIN branch " ++ toString (index + 1) ++ " result parse error: " ++ e)

/-- The outcome of a branch, read from its reply. -/
def branchOutcome (index : Nat) (reply : Except String String) : Except NodeError Value :=
  match reply with
  | .error text =>
      .error (contextualizeSubtreeFailure
        ("JOIN branch " ++ toString (index + 1) ++ " failed") text)
  | .ok raw =>
      match SubtreeEnvelope.ofJson raw with
      | .error e =>
          .error (.failure ("JOIN branch " ++ toString (index + 1) ++
            " envelope parse error: " ++ e))
      | .ok envelope => envelope.outcome.bind (branchResult index)

/-- The error of an outcome. -/
def errorOf (outcome : Except NodeError Value) : Option NodeError :=
  match outcome with
  | .error error => some error
  | .ok _ => none

/-- What a join makes of the outcomes of its branches. -/
structure JoinsTo (isolated : Bool) (outcomes : List (Except NodeError Value))
    (result : Except Stop String) : Prop where
  values : outcomes.filterMap errorOf = [] →
    result = .ok (print (.array (outcomes.filterMap Except.toOption)))
  first : isolated = false → ∀ error, (outcomes.filterMap errorOf).head? = some error →
    result = .error (.raised error)
  greatest : isolated = true → ∀ error, (outcomes.filterMap errorOf).argmax joinPriority = some error →
    result = .error (.raised error)
  unmasked : isolated = true → ∀ text, .failure text ∈ outcomes.filterMap errorOf →
    ∃ text, result = .error (.raised (.failure text))

/-- `ctx.join` returns the replies in branch order, in whatever order the branches complete. -/
def inBranchOrder (completions : List (Nat × Except String String)) :
    List (Except String String) :=
  (completions.mergeSort fun a b => decide (a.1 ≤ b.1)).map (·.2)

/-- The order of completion is lost. -/
theorem in_branch_order {completions : List (Nat × Except String String)}
    {replies : List (Except String String)}
    (h : completions.Perm (replies.mapIdx fun index reply => (index, reply))) :
    inBranchOrder completions = replies := by
  have hindex : (replies.mapIdx fun index reply => (index, reply)).Pairwise
      fun a b => a.1 < b.1 := by
    rw [List.pairwise_iff_getElem]
    intro i j hi hj hij
    simpa using hij
  have hsorted : completions.mergeSort (fun a b => decide (a.1 ≤ b.1)) =
      replies.mapIdx fun index reply => (index, reply) := by
    have hpairwise := @List.pairwise_mergeSort _ (fun a b => decide (a.1 ≤ b.1))
      (fun a b c hab hbc => decide_eq_true
        (Nat.le_trans (of_decide_eq_true hab) (of_decide_eq_true hbc)))
      (fun a b => by
        simpa using Nat.le_total a.1 b.1) completions
    have hperm := (List.mergeSort_perm completions fun a b => decide (a.1 ≤ b.1)).trans h
    refine hperm.eq_of_pairwise (fun a b ha hb hab hba => ?_) hpairwise
      (hindex.imp fun hlt => decide_eq_true (Nat.le_of_lt hlt))
    -- Completions with one index are the same one.
    obtain ⟨i, hi, rfl⟩ := List.mem_iff_getElem.1 (hperm.mem_iff.1 ha)
    obtain ⟨j, hj, rfl⟩ := List.mem_iff_getElem.1 hb
    simp only [List.getElem_mapIdx, decide_eq_true_eq] at hab hba ⊢
    obtain rfl := Nat.le_antisymm hab hba
    rfl
  rw [inBranchOrder, hsorted]
  exact List.ext_getElem (by simp) fun i hi hj => by simp

/-! ## One branch -/

/-- A parent reads an envelope as its outcome, whatever the named results are. -/
theorem parse_envelope_outcome (raw context : String) (machine : Machine) :
    (parseSubtreeEnvelope raw context machine).1 =
      ((SubtreeEnvelope.ofJson raw).mapError fun e =>
        Stop.raised (.failure (context ++ " envelope parse error: " ++ e))).bind fun envelope =>
          envelope.outcome.mapError .raised := by
  unfold parseSubtreeEnvelope
  cases SubtreeEnvelope.ofJson raw with
  | error e => rfl
  | ok envelope =>
      obtain ⟨control, result, results⟩ := envelope
      cases control with
      | some control => cases control <;> rfl
      | none =>
          simp only [Except.mapError, or_fail_ok, pure_bind, Except.bind, SubtreeEnvelope.outcome]
          rw [Program.bind_ok (extend_results_apply machine results)]
          cases parseLegacyBreakSentinel result <;> rfl

section Join

variable {engine : Engine} {ctx : OrchestrationContext} {graph : FunctionGraph}
  {execCtx : ExecutionContext}

/-- A branch contributes its outcome. -/
theorem join_branch_outcome (index : Nat) (branchId : String) (reply : Except String String)
    (machine : Machine) :
    ∃ contribution merged, joinBranch graph index branchId reply machine =
        (.ok contribution, merged) ∧
      contribution.mapError JoinError.error = branchOutcome index reply := by
  cases reply with
  | error text => exact ⟨_, _, rfl, rfl⟩
  | ok raw =>
      have hparse := parse_envelope_outcome raw ("JOIN branch " ++ toString (index + 1)) machine
      unfold joinBranch
      dsimp only
      rw [Program.bind_ok (Program.attempt_apply _ _), hparse, branchOutcome]
      cases SubtreeEnvelope.ofJson raw with
      | error e => exact ⟨_, _, rfl, rfl⟩
      | ok envelope =>
          simp only [Except.mapError, Except.bind]
          cases envelope.outcome with
          | error error => exact ⟨_, _, rfl, rfl⟩
          | ok result =>
              simp only [branchResult, Except.mapError]
              cases fromStr result with
              | error e => exact ⟨_, _, rfl, rfl⟩
              | ok parsed => exact ⟨_, _, rfl, rfl⟩

/-- The outcomes of branches from an index on. -/
def branchOutcomes (index : Nat) (replies : List (Except String String)) :
    List (Except NodeError Value) :=
  replies.mapIdx fun offset reply => branchOutcome (index + offset) reply

theorem branch_outcomes_cons (index : Nat) (reply : Except String String)
    (replies : List (Except String String)) :
    branchOutcomes index (reply :: replies) =
      branchOutcome index reply :: branchOutcomes (index + 1) replies := by
  rw [branchOutcomes, List.mapIdx_cons, branchOutcomes]
  simp only [Nat.add_zero, Nat.add_assoc, Nat.add_comm 1]

/-- Retaining an error is a step of the search for the first maximum. -/
theorem retain_arg_aux (selected : Option JoinError) (candidate : JoinError) :
    (retainHigherPriorityJoinError selected candidate).map JoinError.error =
      List.argAux (fun b c => joinPriority c < joinPriority b)
        (selected.map JoinError.error) candidate.error := by
  cases selected with
  | none => rfl
  | some current =>
      simp only [retainHigherPriorityJoinError, List.argAux, Option.map_some]
      split_ifs with hhigher
      · rfl
      · rfl

/-- What ends a join: the selected error or the values. -/
def joinEnd (joined : List Value) (selected : Option NodeError) : Except Stop (List Value) :=
  match selected with
  | some error => .error (.raised error)
  | none => .ok joined

/-- A failure-isolated join searches all outcomes. -/
theorem isolated_outcomes_run (hisolated : execCtx.failureIsolated = true)
    {branchIds : List String} {replies : List (Except String String)}
    (hlength : branchIds.length = replies.length) (index : Nat) (joined : List Value)
    (selected : Option JoinError) (machine : Machine) :
    (joinOutcomes ctx graph execCtx index (branchIds.zip replies) joined selected machine).1 =
      joinEnd (joined ++ (branchOutcomes index replies).filterMap Except.toOption)
        (((branchOutcomes index replies).filterMap errorOf).foldl
          (List.argAux fun b c => joinPriority c < joinPriority b)
          (selected.map JoinError.error)) := by
  induction replies generalizing branchIds index joined selected machine with
  | nil =>
      rw [List.zip_nil_right]
      cases selected with
      | none => simp [joinOutcomes, branchOutcomes, joinEnd]
      | some error =>
          have hraise := raise_join_error_apply ctx graph error machine
          simp only [joinOutcomes]
          rw [Program.bind_error hraise]
          rfl
  | cons reply replies ih =>
      obtain ⟨branchId, branchIds, rfl⟩ := List.exists_cons_of_length_eq_add_one hlength
      obtain ⟨contribution, merged, hbranch, hcontribution⟩ :=
        @join_branch_outcome graph index branchId reply machine
      rw [List.zip_cons_cons, joinOutcomes, Program.bind_ok hbranch, branch_outcomes_cons,
        ← hcontribution]
      cases contribution with
      | ok parsed =>
          have hrest := ih (by simpa using hlength) (index + 1) (joined ++ [parsed]) selected merged
          rw [List.append_assoc] at hrest
          exact hrest
      | error error =>
          have hrest := ih (by simpa using hlength) (index + 1) joined
            (retainHigherPriorityJoinError selected error) merged
          rw [retain_arg_aux] at hrest
          dsimp only
          rw [if_pos hisolated]
          exact hrest

/-- Outside failure isolation a join stops at the first error. -/
theorem first_error_run (hisolated : execCtx.failureIsolated = false)
    {branchIds : List String} {replies : List (Except String String)}
    (hlength : branchIds.length = replies.length) (index : Nat) (joined : List Value)
    (machine : Machine) :
    (joinOutcomes ctx graph execCtx index (branchIds.zip replies) joined none machine).1 =
      joinEnd (joined ++ (branchOutcomes index replies).filterMap Except.toOption)
        ((branchOutcomes index replies).filterMap errorOf).head? := by
  induction replies generalizing branchIds index joined machine with
  | nil =>
      rw [List.zip_nil_right]
      simp [joinOutcomes, branchOutcomes, joinEnd]
  | cons reply replies ih =>
      obtain ⟨branchId, branchIds, rfl⟩ := List.exists_cons_of_length_eq_add_one hlength
      obtain ⟨contribution, merged, hbranch, hcontribution⟩ :=
        @join_branch_outcome graph index branchId reply machine
      rw [List.zip_cons_cons, joinOutcomes, Program.bind_ok hbranch, branch_outcomes_cons,
        ← hcontribution]
      cases contribution with
      | ok parsed =>
          have hrest := ih (by simpa using hlength) (index + 1) (joined ++ [parsed]) merged
          rw [List.append_assoc] at hrest
          exact hrest
      | error error =>
          have hraise := raise_join_error_apply ctx graph error merged
          dsimp only
          rw [if_neg (by rw [hisolated]; exact Bool.false_ne_true), Program.bind_error hraise]
          rfl

/-- Every child has replied when all branches are complete. -/
theorem completed_replies {children : List (OrchestrationContext × String)}
    {completions : List (Nat × Except String String)}
    (h : (completions.map fun completion => (completion.1, some completion.2)).Perm
      (children.mapIdx fun index child => (index, (runChild engine child.1 child.2).2))) :
    children.map (fun child => (runChild engine child.1 child.2).2) =
      (inBranchOrder completions).map some := by
  have hreplied : ∀ child ∈ children, ∃ reply, (runChild engine child.1 child.2).2 = some reply := by
    intro child hmem
    obtain ⟨index, hindex, rfl⟩ := List.mem_iff_getElem.1 hmem
    have hentry : (index, (runChild engine children[index].1 children[index].2).2) ∈
        children.mapIdx fun index child => (index, (runChild engine child.1 child.2).2) :=
      List.mem_mapIdx.2 ⟨index, hindex, rfl⟩
    obtain ⟨completion, -, heq⟩ := List.mem_map.1 (h.mem_iff.2 hentry)
    exact ⟨completion.2, (Prod.ext_iff.1 heq).2.symm⟩
  let replies := children.map fun child =>
    ((runChild engine child.1 child.2).2.getD (.ok ""))
  have hreplies : children.map (fun child => (runChild engine child.1 child.2).2) =
      replies.map some := by
    rw [List.map_map]
    refine List.map_congr_left fun child hmem => ?_
    obtain ⟨reply, hreply⟩ := hreplied child hmem
    simp [hreply]
  have hindexed : (children.mapIdx fun index child =>
      (index, (runChild engine child.1 child.2).2)) =
      (replies.mapIdx fun index reply => (index, reply)).map
        fun completion => (completion.1, some completion.2) := by
    refine List.ext_getElem (by simp [replies]) fun index hindex _ => ?_
    rw [List.length_mapIdx] at hindex
    obtain ⟨reply, hreply⟩ := hreplied children[index] (List.getElem_mem hindex)
    simp [replies, hreply]
  rw [hindexed] at h
  have hperm : completions.Perm (replies.mapIdx fun index reply => (index, reply)) := by
    refine (List.map_perm_map_iff ?_).1 h
    rintro ⟨index, reply⟩ ⟨index', reply'⟩ heq
    simpa using heq
  rw [hreplies, in_branch_order hperm]

/-- In whatever order its branches complete, a join returns their results in branch order; outside
failure isolation it raises the first error in branch order, and inside the first one of the
greatest priority, which is a failure if there is one. -/
theorem join_outcome {node : FunctionNode} {nodeId leftId rightId : String} {machine : Machine}
    {completions : List (Nat × Except String String)}
    (hleft : node.leftNode = some leftId) (hright : node.rightNode = some rightId)
    (hcompletions : (completions.map fun completion => (completion.1, some completion.2)).Perm
      ((branchChildren ctx graph execCtx machine.results
        (joinBranchIds node leftId rightId)).mapIdx fun index child =>
          (index, (runChild engine child.1 child.2).2))) :
    JoinsTo execCtx.failureIsolated (branchOutcomes 0 (inBranchOrder completions))
      (executeJoinNode engine ctx graph node nodeId execCtx machine).1 := by
  have hreplies := completed_replies hcompletions
  have hlength : (joinBranchIds node leftId rightId).length =
      (inBranchOrder completions).length := by
    simpa [branchChildren] using congrArg List.length hreplies
  have hchildren := join_children_reply engine ctx machine hreplies
  have hmerge : (mergeJoinBranches engine ctx graph node nodeId execCtx machine).1 =
      joinEnd ((branchOutcomes 0 (inBranchOrder completions)).filterMap Except.toOption)
        (if execCtx.failureIsolated then
          ((branchOutcomes 0 (inBranchOrder completions)).filterMap errorOf).argmax joinPriority
        else ((branchOutcomes 0 (inBranchOrder completions)).filterMap errorOf).head?) := by
    simp only [mergeJoinBranches, hleft, hright, or_missing_some, pure_bind]
    rw [Program.bind_ok (read_results_apply machine), Program.bind_ok hchildren]
    split_ifs with hisolated
    · exact isolated_outcomes_run hisolated hlength 0 [] none _
    · exact first_error_run (Bool.eq_false_iff.2 hisolated) hlength 0 [] _
  have hraised : ∀ {error}, (if execCtx.failureIsolated then
      ((branchOutcomes 0 (inBranchOrder completions)).filterMap errorOf).argmax joinPriority
      else ((branchOutcomes 0 (inBranchOrder completions)).filterMap errorOf).head?) = some error →
      (executeJoinNode engine ctx graph node nodeId execCtx machine).1 =
        .error (.raised error) := by
    intro error hselected
    rw [hselected] at hmerge
    rw [executeJoinNode, Program.bind_error (Prod.ext hmerge rfl)]
  constructor
  case values =>
    intro hnone
    rw [hnone, List.argmax_nil, List.head?_nil, ite_self] at hmerge
    rw [executeJoinNode, Program.bind_ok (Prod.ext hmerge rfl), storeNamedResult]
    cases node.resultName <;> rfl
  case first =>
    intro hisolated error herror
    rw [hisolated] at hraised
    exact hraised herror
  case greatest =>
    intro hisolated error herror
    rw [hisolated] at hraised
    exact hraised herror
  case unmasked =>
    intro hisolated text hfailure
    rw [hisolated] at hraised
    have hsome : ((branchOutcomes 0 (inBranchOrder completions)).filterMap errorOf).argmax
        joinPriority ≠ none := List.argmax_eq_none.not.2 (List.ne_nil_of_mem hfailure)
    obtain ⟨error, herror⟩ := Option.ne_none_iff_exists'.1 hsome
    have hgreatest : 2 ≤ joinPriority error := List.le_of_mem_argmax hfailure herror
    cases error with
    | failure message => exact ⟨message, hraised herror⟩
    | breakWith value => exact absurd hgreatest (show ¬ 2 ≤ 1 by decide)
    | application message => exact absurd hgreatest (show ¬ 2 ≤ 0 by decide)

end Join

/-- A reply of a child that returns `null` counts for `null`. -/
theorem null_reply_outcome (inherited assigned : StringMap) (index : Nat) :
    branchOutcome index (.ok (nullReply inherited assigned).raw) = .ok .null := by
  have hnull : fromStr "null" = .ok .null := (nullReply inherited assigned).json
  rw [branchOutcome]
  simp only [(nullReply inherited assigned).reads]
  show (fromStr "null").mapError _ = _
  rw [hnull]
  rfl

/-- The theorem at a join whose right branch completes first. -/
theorem right_first_outcome :
    (executeJoinNode (engine 2) joinContext joinAssigningX joinNode "bbbbbbbb" joinExecution
      ⟨∅, []⟩).1 = .ok "[null,null]" := by
  let left := (nullReply ∅ ((∅ : StringMap).insert "x" "null")).raw
  let right := (nullReply ∅ ∅).raw
  have hordered : inBranchOrder [(1, .ok right), (0, .ok left)] = [.ok left, .ok right] :=
    in_branch_order (List.Perm.swap _ _ _)
  have houtcome := @join_outcome (engine 2) joinContext joinAssigningX joinExecution joinNode
    "bbbbbbbb" "cccccccc" "dddddddd" ⟨∅, []⟩ [(1, .ok right), (0, .ok left)] rfl rfl (by
      obtain ⟨hleft, hright⟩ := List.cons.inj (join_replies (Or.inl rfl))
      have hlast := (List.cons.inj hright).1
      refine (List.Perm.swap _ _ _).trans (List.Perm.of_eq ?_)
      exact congrArg₂ (fun first second => [(0, first), (1, second)]) hleft.symm hlast.symm)
  have houtcomes : branchOutcomes 0 [.ok left, .ok right] = [.ok .null, .ok .null] :=
    congrArg₂ (fun first second => [first, second]) (null_reply_outcome _ _ _)
      (null_reply_outcome _ _ _)
  rw [hordered, houtcomes] at houtcome
  refine (houtcome.values rfl).trans ?_
  decide +kernel

end PgDurable.Orchestration
