import PgDurable.Orchestration.Handlers

/-!
# The names that a node binds

Executing a node changes the named results only under the names of the nodes of its subtree,
whatever the outcome, and a node that returns a value has bound it to its own name, except that
sleeps and schedule waits do not store: `named_node_binds_iff`. `engine_sound` carries the
induction: what holds of node executions, of the exits by which a child continues as new, and of
the replies of children, whose whole maps travel through envelopes and through any number of
generations.
-/

namespace PgDurable.Orchestration

open Json

/-! ## Subtrees and frames -/

/-- A node of the subtree below a node. -/
inductive InSubtree (graph : FunctionGraph) (root : String) : String → Prop
  | root : InSubtree graph root root
  | child {parent id : String} {node : FunctionNode} (hparent : InSubtree graph root parent)
      (hnode : graph.nodes[parent]? = some node) (hid : id ∈ childIds node) :
      InSubtree graph root id

/-- The name of some node of the subtree. -/
def SubtreeName (graph : FunctionGraph) (root name : String) : Prop :=
  ∃ id node, InSubtree graph root id ∧ graph.nodes[id]? = some node ∧ node.resultName = some name

/-- Subtrees of subtrees. -/
theorem InSubtree.trans {graph : FunctionGraph} {root middle id : String}
    (hmiddle : InSubtree graph root middle) (h : InSubtree graph middle id) :
    InSubtree graph root id := by
  induction h with
  | root => exact hmiddle
  | child _ hnode hid ih => exact .child ih hnode hid

/-- The maps agree on all other names. -/
def SameOutside (names : String → Prop) (before after : StringMap) : Prop :=
  ∀ name, ¬ names name → after[name]? = before[name]?

section Frames

variable {names : String → Prop}

theorem SameOutside.refl (names : String → Prop) (map : StringMap) : SameOutside names map map :=
  fun _ _ => rfl

theorem SameOutside.trans {first second third : StringMap} (h : SameOutside names first second)
    (h' : SameOutside names second third) : SameOutside names first third :=
  fun name hname => (h' name hname).trans (h name hname)

/-- Laying a map over another keeps what both agree on. -/
theorem same_outside_overlay {base first second : StringMap} (h : SameOutside names base first)
    (h' : SameOutside names base second) : SameOutside names base (overlay first second) := by
  intro name hname
  rw [get_overlay, h name hname, h' name hname]
  cases base[name]? <;> rfl

/-- The frame of a child is a frame of its parent. -/
theorem SameOutside.of_child {graph : FunctionGraph} {nodeId childId : String}
    {node : FunctionNode} {before after : StringMap}
    (h : SameOutside (SubtreeName graph childId) before after)
    (hnode : graph.nodes[nodeId]? = some node) (hchild : childId ∈ childIds node) :
    SameOutside (SubtreeName graph nodeId) before after := by
  intro name hname
  refine h name fun ⟨id, named, hid, hnamed, hresult⟩ => hname ?_
  exact ⟨id, named, (InSubtree.child .root hnode hchild).trans hid, hnamed, hresult⟩

/-- A node stores its result within its own frame. -/
theorem same_outside_with_result {graph : FunctionGraph} {nodeId : String} {node : FunctionNode}
    (hnode : graph.nodes[nodeId]? = some node) (value : String) (results : StringMap) :
    SameOutside (SubtreeName graph nodeId) results (withResult node value results) := by
  intro name hname
  unfold withResult
  cases hresult : node.resultName with
  | none => rfl
  | some own =>
      have hne : own ≠ name := by
        rintro rfl
        exact hname ⟨nodeId, node, .root, hnode, hresult⟩
      simp [Std.ExtTreeMap.getElem?_insert, hne]

end Frames

/-! ## What holds of every run -/

/-- The value is bound to the name of the node, if the node stores its values. -/
def Binds (graph : FunctionGraph) (nodeId value : String) (results : StringMap) : Prop :=
  ∀ node name, graph.nodes[nodeId]? = some node → unstoredResult node = none →
    node.resultName = some name → results[name]? = some value

/-- Storing a value binds it. -/
theorem binds_with_result {graph : FunctionGraph} {nodeId : String} {node : FunctionNode}
    (hnode : graph.nodes[nodeId]? = some node) (value : String) (results : StringMap) :
    Binds graph nodeId value (withResult node value results) := by
  intro other name hother _ hname
  rw [hnode, Option.some.injEq] at hother
  subst hother
  simp [withResult, hname]

/-- A run that frames, binds its value, and hands its named results to the next generation if it
continues as new. -/
structure GoodRun (graph : FunctionGraph) (nodeId : String) (execCtx : ExecutionContext)
    (before : StringMap) (outcome : Except Stop String) (after : StringMap) : Prop where
  frame : SameOutside (SubtreeName graph nodeId) before after
  binds : ∀ {value}, outcome = .ok value → Binds graph nodeId value after
  continues : ∀ {input}, outcome = .error (.continuedAsNew input) → ∃ iteration,
    iteration < 2 ^ 64 ∧
      input = continuationInput graph execCtx.subtreeRoot execCtx after iteration

/-- A reply whose map agrees with the map that the child was handed, and binds its value. -/
def GoodReply (graph : FunctionGraph) (nodeId : String) (handed : StringMap) :
    ChildReply → Prop
  | .envelope control value results =>
      SameOutside (SubtreeName graph nodeId) handed results ∧
        (control = .normal → Binds graph nodeId value results)
  | .error _ => True

/-- The interpreter has good runs and good replies. -/
structure Sound (engine : Engine) : Prop where
  node : ∀ ctx graph nodeId execCtx machine,
    GoodRun graph nodeId execCtx machine.results
      (engine.node ctx graph nodeId execCtx machine).1
      (engine.node ctx graph nodeId execCtx machine).2.results
  reply : ∀ {ctx graph nodeId execCtx results iteration reply}, iteration < 2 ^ 64 →
    (engine.subtree ctx (subtreeText graph nodeId results execCtx iteration)).2 =
      some (ChildReply.text reply) → GoodReply graph nodeId results reply

section Runs

variable {engine : Engine} (hengine : Sound engine) {ctx : OrchestrationContext}
  {graph : FunctionGraph} {node : FunctionNode} {nodeId : String} {execCtx : ExecutionContext}
  (hnode : graph.nodes[nodeId]? = some node)

include hengine

/-- Scheduled children reply well. -/
theorem child_good {child : OrchestrationContext} {childId : String} {results : StringMap}
    {reply : ChildReply}
    (h : (runChild engine child (buildSubtreeInput graph childId results execCtx)).2 =
      some reply.text) : GoodReply graph childId results reply := by
  unfold runChild at h
  cases hfault : child.world.runtimeFault child.path child.instanceId with
  | none =>
      rw [hfault] at h
      exact hengine.reply (by decide) h
  | some error =>
      rw [hfault] at h
      cases reply with
      | envelope control value map => cases h
      | error text => trivial

include hnode

/-- Merging the reply of a child stays within the frame. -/
theorem merge_frame {child : OrchestrationContext} {childId : String} {handed results : StringMap}
    {execCtx : ExecutionContext} {reply : ChildReply} (hchild : childId ∈ childIds node)
    (hreply : (runChild engine child (buildSubtreeInput graph childId handed execCtx)).2 =
      some reply.text)
    (h : SameOutside (SubtreeName graph nodeId) handed results) :
    SameOutside (SubtreeName graph nodeId) handed (reply.merge results) := by
  have hgood := child_good hengine hreply
  cases reply with
  | error text => exact h
  | envelope control value map => exact same_outside_overlay h (hgood.1.of_child hnode hchild)

/-- Executing a child stays within the frame, and the rest of the run with it. -/
theorem node_frame {childId : String} (hchild : childId ∈ childIds node)
    {child : OrchestrationContext} {machine after : Machine} {outcome : Except Stop String}
    (hrun : engine.node child graph childId execCtx machine = (outcome, after)) :
    SameOutside (SubtreeName graph nodeId) machine.results after.results ∧
      ∀ {input}, outcome = .error (.continuedAsNew input) → ∃ iteration, iteration < 2 ^ 64 ∧
        input = continuationInput graph execCtx.subtreeRoot execCtx after.results iteration := by
  have hgood := hengine.node child graph childId execCtx machine
  rw [hrun] at hgood
  exact ⟨hgood.frame.of_child hnode hchild, hgood.continues⟩

theorem sequence_good {machine after : Machine} {outcome : Except Stop String}
    (hrun : SequenceRun engine ctx graph node execCtx machine outcome after) :
    GoodRun graph nodeId execCtx machine.results outcome after.results := by
  have hprelude : ∀ {step middle}, Prelude engine ctx graph node execCtx step machine middle →
      SameOutside (SubtreeName graph nodeId) machine.results middle.results := by
    intro step middle h
    cases h with
    | nothing => exact SameOutside.refl _ _
    | returned _ hid hfirst => exact (node_frame hengine hnode hid hfirst).1
  cases hrun with
  | failed => exact ⟨SameOutside.refl _ _, nofun, nofun⟩
  | stopped hfirst hid hlast =>
      obtain ⟨hframe, hcontinues⟩ := node_frame hengine hnode hid hlast
      exact ⟨(hprelude hfirst).trans hframe, nofun, hcontinues⟩
  | returned hfirst hid hlast =>
      obtain ⟨hframe, -⟩ := node_frame hengine hnode hid hlast
      refine ⟨((hprelude hfirst).trans hframe).trans (same_outside_with_result hnode _ _), ?_,
        nofun⟩
      rintro _ ⟨⟩
      exact binds_with_result hnode _ _

omit hengine hnode in
/-- A join merges maps that agree with the one it handed out. -/
theorem join_replies_frame {names : String → Prop} {handed : StringMap} (isolated : Bool)
    (replies : List (String × ChildReply))
    (h : ∀ entry ∈ replies, ∀ results, SameOutside names handed results →
      SameOutside names handed (entry.2.merge results))
    (index : Nat) (joined : List Value) (selected : Option JoinError) (results : StringMap)
    (hresults : SameOutside names handed results) :
    SameOutside names handed (joinReplies graph isolated index replies joined selected results).2 := by
  induction replies generalizing index joined selected results with
  | nil => exact hresults
  | cons entry replies ih =>
      obtain ⟨branchId, reply⟩ := entry
      have hmerged := h (branchId, reply) (by simp) results hresults
      have hrest := ih fun other hother => h other (by simp [hother])
      unfold joinReplies
      split
      · exact hrest _ _ _ _ hmerged
      · split
        · exact hrest _ _ _ _ hmerged
        · exact hmerged

theorem join_good {machine after : Machine} {outcome : Except Stop String}
    (hrun : JoinRun engine ctx graph node execCtx machine outcome after) :
    GoodRun graph nodeId execCtx machine.results outcome after.results := by
  have hmerge : ∀ {replies},
      JoinReplies engine ctx graph node execCtx machine.results replies →
      SameOutside (SubtreeName graph nodeId) machine.results
        (joinReplies graph execCtx.failureIsolated 0 replies [] none machine.results).2 := by
    intro replies hreplies
    refine join_replies_frame _ replies (fun entry hentry results hresults => ?_) 0 [] none _
      (SameOutside.refl _ _)
    obtain ⟨index, hindex⟩ := List.getElem?_of_mem hentry
    exact merge_frame hengine hnode (hreplies.ids entry hentry) (hreplies.reply hindex) hresults
  cases hrun with
  | failed | stuck => exact ⟨SameOutside.refl _ _, nofun, nofun⟩
  | returned hreplies hjoin =>
      have hframe := hmerge hreplies
      rw [hjoin] at hframe
      refine ⟨hframe.trans (same_outside_with_result hnode _ _), ?_, nofun⟩
      rintro _ ⟨⟩
      exact binds_with_result hnode _ _
  | raised hreplies hjoin =>
      have hframe := hmerge hreplies
      rw [hjoin] at hframe
      exact ⟨hframe, nofun, nofun⟩

theorem race_good {machine after : Machine} {outcome : Except Stop String}
    (hrun : RaceRun engine ctx graph node execCtx machine outcome after) :
    GoodRun graph nodeId execCtx machine.results outcome after.results := by
  cases hrun with
  | failed | stuck => exact ⟨SameOutside.refl _ _, nofun, nofun⟩
  | @replied _ _ _ _ _ context _ _ reply _ _ hwinner _ _ _ _ hreply hresults =>
      have hmerge := merge_frame hengine hnode hwinner hreply (SameOutside.refl _ _)
      subst hresults
      cases houtcome : reply.outcome context with
      | ok value =>
          refine ⟨hmerge.trans (same_outside_with_result hnode _ _), ?_, nofun⟩
          rintro _ ⟨⟩
          exact binds_with_result hnode _ _
      | error stop =>
          refine ⟨hmerge, nofun, ?_⟩
          rintro input ⟨⟩
          cases reply with
          | error text => cases houtcome
          | envelope control value map => cases control <;> cases houtcome

omit hnode in
/-- A loop that runs as a child binds its value through the envelope. -/
theorem loop_child_good {machine after : Machine} {outcome : Except Stop String}
    (hrun : LoopChildRun engine ctx graph nodeId execCtx machine outcome after) :
    GoodRun graph nodeId execCtx machine.results outcome after.results := by
  cases hrun with
  | failed | stuck => exact ⟨SameOutside.refl _ _, nofun, nofun⟩
  | @replied _ _ reply _ _ hreply =>
      have hgood := child_good hengine hreply
      cases reply with
      | error text => exact ⟨SameOutside.refl _ _, nofun, nofun⟩
      | envelope control value map =>
          have hframe : SameOutside (SubtreeName graph nodeId) machine.results
              (overlay machine.results map) :=
            same_outside_overlay (SameOutside.refl _ _) hgood.1
          cases control with
          | breakLoop => exact ⟨hframe, nofun, nofun⟩
          | normal =>
              refine ⟨hframe, ?_, nofun⟩
              rintro _ ⟨⟩ other name hother hstores hname
              simp only [ChildReply.merge, get_overlay]
              rw [hgood.2 rfl other name hother hstores hname, Option.some_or]

/-- The body of an iteration stays within the frame, and so does an exit of it. -/
theorem body_frame {config : LoopConfig} {bodyId : String} (hbodyId : bodyId ∈ childIds node)
    {machine after : Machine} {result : BodyResult}
    (hrun : BodyRun engine ctx graph execCtx config bodyId machine result after) :
    SameOutside (SubtreeName graph nodeId) machine.results after.results ∧
      ∀ {input}, result = .stopped (.continuedAsNew input) → ∃ iteration, iteration < 2 ^ 64 ∧
        input = continuationInput graph execCtx.subtreeRoot execCtx after.results iteration := by
  cases hrun with
  | @inline outcome _ _ hrun =>
      obtain ⟨hframe, hcontinues⟩ := node_frame hengine hnode hbodyId hrun
      refine ⟨hframe, fun hresult => hcontinues ?_⟩
      rcases outcome with ((value | message | message) | input | _) | value <;> cases hresult
      rfl
  | stuck => exact ⟨SameOutside.refl _ _, nofun⟩
  | @isolated _ reply _ _ hreply =>
      refine ⟨merge_frame hengine hnode hbodyId hreply (SameOutside.refl _ _), fun hresult => ?_⟩
      rcases reply with ⟨_ | _, value, map⟩ | text
      · cases hresult
      · cases hresult
      · unfold isolatedBodyResult at hresult
        cases hdecode : decodeSubtreeApplicationFailure text <;> simp [hdecode] at hresult

/-- An iteration stays within the frame, stores the result with which it ends the loop, and hands
on the exits of its body and of its condition. -/
theorem iteration_good {config : LoopConfig} {bodyId : String}
    (hids : ∀ id, id = bodyId ∨ config.conditionNode = some id → id ∈ childIds node)
    {machine after : Machine} {outcome : Except Stop (Option String)}
    (hrun : IterationRun engine ctx graph node execCtx config bodyId machine outcome after) :
    SameOutside (SubtreeName graph nodeId) machine.results after.results ∧
      (∀ {value}, outcome = .ok (some value) → Binds graph nodeId value after.results) ∧
      ∀ {input}, outcome = .error (.continuedAsNew input) → ∃ iteration, iteration < 2 ^ 64 ∧
        input = continuationInput graph execCtx.subtreeRoot execCtx after.results iteration := by
  have hbodyId := hids bodyId (Or.inl rfl)
  cases hrun with
  | stopped hbody =>
      obtain ⟨hframe, hcontinues⟩ := body_frame hengine hnode hbodyId hbody
      exact ⟨hframe, nofun, fun {input} hstop => hcontinues (by cases hstop; rfl)⟩
  | consumed hbody | unconditional hbody =>
      exact ⟨(body_frame hengine hnode hbodyId hbody).1, nofun, nofun⟩
  | broke hbody =>
      obtain ⟨hframe, -⟩ := body_frame hengine hnode hbodyId hbody
      refine ⟨hframe.trans (same_outside_with_result hnode _ _), ?_, nofun⟩
      rintro _ ⟨⟩
      exact binds_with_result hnode _ _
  | @conditional value conditionId outcome _ after _ hbody hcondition hrun hresults =>
      obtain ⟨hfirst, -⟩ := body_frame hengine hnode hbodyId hbody
      obtain ⟨hsecond, hcontinues⟩ := node_frame hengine hnode
        (hids conditionId (Or.inr hcondition)) hrun
      have hframe := hfirst.trans hsecond
      subst hresults
      cases hend : conditionEnd value outcome with
      | error stop =>
          refine ⟨hframe, nofun, fun {input} hstop => hcontinues ?_⟩
          cases hstop
          rcases outcome with ((value | message | message) | input | _) | value <;> cases hend
          rfl
      | ok final =>
          cases final with
          | none => exact ⟨hframe, nofun, nofun⟩
          | some final =>
              refine ⟨hframe.trans (same_outside_with_result hnode _ _), ?_, nofun⟩
              rintro _ ⟨⟩
              exact binds_with_result hnode _ _

theorem loop_good (hkind : nodeKind node.nodeType = some .loop)
    (hroot : nodeId = execCtx.subtreeRoot) {machine after : Machine}
    {outcome : Except Stop String}
    (hrun : LoopRun engine ctx graph node nodeId execCtx machine outcome after) :
    GoodRun graph nodeId execCtx machine.results outcome after.results := by
  cases hrun with
  | failed => exact ⟨SameOutside.refl _ _, nofun, nofun⟩
  | stopped hbody hconfig hiteration =>
      obtain ⟨hframe, -, hcontinues⟩ :=
        iteration_good hengine hnode (loop_part_is_child hkind hbody hconfig) hiteration
      exact ⟨hframe, nofun, fun {input} hstop => hcontinues (by cases hstop; rfl)⟩
  | ended hbody hconfig hiteration =>
      obtain ⟨hframe, hbinds, -⟩ :=
        iteration_good hengine hnode (loop_part_is_child hkind hbody hconfig) hiteration
      refine ⟨hframe, ?_, nofun⟩
      rintro _ ⟨⟩
      exact hbinds rfl
  | exhausted hbody hconfig hiteration =>
      obtain ⟨hframe, -, -⟩ :=
        iteration_good hengine hnode (loop_part_is_child hkind hbody hconfig) hiteration
      exact ⟨hframe, nofun, nofun⟩
  | continued hbody hconfig hiteration hlimit =>
      obtain ⟨hframe, -, -⟩ :=
        iteration_good hengine hnode (loop_part_is_child hkind hbody hconfig) hiteration
      refine ⟨hframe, nofun, ?_⟩
      rintro _ ⟨⟩
      refine ⟨execCtx.loopIteration + 1, ?_, by rw [hroot, logged_results]⟩
      exact hlimit.trans (by decide)

omit hengine in
theorem leaf_good {machine after : Machine} {outcome : Except Stop String}
    (hrun : LeafRun ctx node machine outcome after) :
    GoodRun graph nodeId execCtx machine.results outcome after.results := by
  cases hrun with
  | failed | refused | broke | stuck => exact ⟨SameOutside.refl _ _, nofun, nofun⟩
  | stored =>
      refine ⟨same_outside_with_result hnode _ _, ?_, nofun⟩
      rintro _ ⟨⟩
      exact binds_with_result hnode _ _
  | unstored hkind =>
      refine ⟨SameOutside.refl _ _, ?_, nofun⟩
      rintro _ ⟨⟩ other name hother hstores _
      rw [hnode, Option.some.injEq] at hother
      rw [hother, hstores] at hkind
      cases hkind

theorem inner_good (hroot : nodeKind node.nodeType = some .loop → nodeId = execCtx.subtreeRoot)
    {machine after : Machine} {outcome : Except Stop String}
    (hrun : InnerRun engine ctx graph node nodeId execCtx machine outcome after) :
    GoodRun graph nodeId execCtx machine.results outcome after.results := by
  cases hrun with
  | leaf hrun => exact leaf_good hnode hrun
  | sequence _ hrun => exact sequence_good hengine hnode hrun
  | join _ hrun => exact join_good hengine hnode hrun
  | race _ hrun => exact race_good hengine hnode hrun
  | loop hkind hrun => exact loop_good hengine hnode hkind (hroot hkind) hrun

omit hnode in
theorem node_good {machine after : Machine} {outcome : Except Stop String}
    (hrun : NodeRun engine ctx graph nodeId execCtx machine outcome after) :
    GoodRun graph nodeId execCtx machine.results outcome after.results := by
  cases hrun with
  | missing => exact ⟨SameOutside.refl _ _, nofun, nofun⟩
  | child _ _ _ hrun =>
      have hgood := loop_child_good hengine hrun
      exact hgood
  | returned hnode hroot hrun | raised hnode hroot hrun | stopped hnode hroot _ hrun =>
      have hgood := inner_good hengine hnode hroot hrun
      exact hgood

end Runs

/-- A child replies well when its root node runs well and its next generation replies well. -/
theorem run_subtree_good {engine : Engine} (hengine : Sound engine) {ctx : OrchestrationContext}
    {graph : FunctionGraph} {nodeId : String} {execCtx : ExecutionContext} {results : StringMap}
    {iteration : Nat} {reply : ChildReply} (hiteration : iteration < 2 ^ 64)
    (hreply : (runSubtree engine ctx (subtreeText graph nodeId results execCtx iteration)).2 =
      some reply.text) :
    GoodReply graph nodeId results reply := by
  have hgood := hengine.node ctx graph nodeId (execCtx.enter nodeId iteration) ⟨results, []⟩
  rw [run_subtree_reads _ _ _ _ _ _ hiteration] at hreply
  rcases hrun : engine.node ctx graph nodeId (execCtx.enter nodeId iteration) ⟨results, []⟩ with
    ⟨outcome, after⟩
  rw [hrun] at hgood hreply
  rcases outcome with ((value | message | message) | input | _) | value
  · cases @child_reply_text_injective (.envelope .breakLoop value after.results) _
      (Option.some.inj hreply)
    exact ⟨hgood.frame, nofun⟩
  · cases @child_reply_text_injective (.error _) _ (Option.some.inj hreply)
    trivial
  · cases @child_reply_text_injective (.error _) _ (Option.some.inj hreply)
    trivial
  · obtain ⟨next, hnext, hinput⟩ := hgood.continues rfl
    rw [continuation_input_eq _ _ _ _ rfl] at hinput
    rw [hinput] at hreply
    have hrest := hengine.reply hnext hreply
    cases reply with
    | error text => trivial
    | envelope control result map => exact ⟨hgood.frame.trans hrest.1, hrest.2⟩
  · cases hreply
  · cases @child_reply_text_injective (.envelope .normal value after.results) _
      (Option.some.inj hreply)
    exact ⟨hgood.frame, fun _ => hgood.binds rfl⟩

/-- Every interpreter is sound. -/
theorem engine_sound (fuel : Nat) : Sound (engine fuel) := by
  induction fuel with
  | zero => exact ⟨fun _ _ _ _ _ => ⟨SameOutside.refl _ _, nofun, nofun⟩, nofun⟩
  | succ fuel ih =>
      exact ⟨fun _ _ _ _ machine => node_good ih (node_runs (engine_typed fuel) machine),
        run_subtree_good ih⟩

/-! ## Named nodes -/

/-- A node that does not store its values returns a fixed text and leaves the named results alone. -/
theorem unstored_node_returns {engine : Engine} {ctx : OrchestrationContext}
    {graph : FunctionGraph} {node : FunctionNode} {nodeId : String} {execCtx : ExecutionContext}
    {machine after : Machine} {value text : String} (hnode : graph.nodes[nodeId]? = some node)
    (hkind : unstoredResult node = some text)
    (hrun : NodeRun engine ctx graph nodeId execCtx machine (.ok value) after) :
    value = text ∧ after.results = machine.results := by
  have hloop : nodeKind node.nodeType ≠ some .loop := by
    intro h
    simp [unstoredResult, h] at hkind
  cases hrun with
  | child hother hkind' =>
      rw [hnode, Option.some.injEq] at hother
      exact absurd (hother ▸ hkind') hloop
  | returned hother _ hinner =>
      rw [hnode, Option.some.injEq] at hother
      subst hother
      cases hinner with
      | sequence hstores | join hstores | race hstores => rw [hkind] at hstores; cases hstores
      | loop hkind' => exact absurd hkind' hloop
      | leaf hleaf =>
          cases hleaf with
          | stored hstores => rw [hkind] at hstores; cases hstores
          | unstored hvalue =>
              rw [hkind, Option.some.injEq] at hvalue
              exact ⟨hvalue.symm, rfl⟩

/-- A named node that returns a value has bound it, and has changed no name outside of its
subtree, unless it is a sleep or a schedule wait; those leave whatever the name was bound to. -/
theorem named_node_binds_iff {fuel : Nat} {ctx : OrchestrationContext} {graph : FunctionGraph}
    {node : FunctionNode} {nodeId name value : String} {execCtx : ExecutionContext}
    {machine after : Machine} (hnode : graph.nodes[nodeId]? = some node)
    (hname : node.resultName = some name)
    (hrun : executeFunctionNodeWithVars (engine fuel) ctx graph nodeId execCtx machine =
      (.ok value, after)) :
    (after.results[name]? = some value ∧
        SameOutside (SubtreeName graph nodeId) machine.results after.results) ↔
      ∀ text, unstoredResult node = some text → machine.results[name]? = some text := by
  have hruns := @node_runs _ (engine_typed fuel) ctx graph nodeId execCtx machine
  rw [hrun] at hruns
  have hgood := node_good (engine_sound fuel) hruns
  cases hkind : unstoredResult node with
  | none =>
      simp only [reduceCtorEq, false_implies, implies_true, iff_true]
      exact ⟨hgood.binds rfl node name hnode hkind hname, hgood.frame⟩
  | some text =>
      obtain ⟨hvalue, hresults⟩ := unstored_node_returns hnode hkind hruns
      rw [hvalue, hresults]
      constructor
      · rintro ⟨hbound, -⟩ other ⟨⟩
        exact hbound
      · intro h
        exact ⟨h text rfl, SameOutside.refl _ _⟩

/-- A named sleep before a named query. -/
def sleepBeforeQuery : FunctionGraph where
  instanceId := "aaaaaaaa"
  rootNodeId := "bbbbbbbb"
  nodes :=
    (((∅ : Std.ExtTreeMap String FunctionNode).insert "bbbbbbbb"
      ⟨"bbbbbbbb", "THEN", none, none, some "cccccccc", some "dddddddd", "alice", none⟩).insert
      "cccccccc" ⟨"cccccccc", "SLEEP", some "1", some "n", none, none, "alice", none⟩).insert
      "dddddddd" ⟨"dddddddd", "SQL", some "SELECT 1", some "m", none, none, "alice", none⟩
  sqlQuotingVersion := .v1

/-- The root orchestration of that graph, at one of its leaves. -/
def sleepContext (step : Step) : OrchestrationContext := ⟨.quiet, "aaaaaaaa", 1, [step]⟩

/-- Its execution context. -/
def sleepExecution : ExecutionContext := ⟨∅, none, false, 0, "bbbbbbbb", .root⟩

/-- The theorem at the query: it binds its result. -/
theorem query_binds_result :
    ∃ after, executeFunctionNodeWithVars (engine 0) (sleepContext .thenRight) sleepBeforeQuery
        "dddddddd" sleepExecution ⟨∅, []⟩ = (.ok "null", after) ∧
      after.results["m"]? = some "null" := by
  have hrun : (executeFunctionNodeWithVars (engine 0) (sleepContext .thenRight) sleepBeforeQuery
      "dddddddd" sleepExecution ⟨∅, []⟩).1 = .ok "null" := by decide +kernel
  refine ⟨_, Prod.ext hrun rfl, ?_⟩
  refine ((@named_node_binds_iff 0 (sleepContext .thenRight) sleepBeforeQuery
    ⟨"dddddddd", "SQL", some "SELECT 1", some "m", none, none, "alice", none⟩ "dddddddd" "m" "null"
    sleepExecution ⟨∅, []⟩ _ (by decide +kernel) rfl (Prod.ext hrun rfl)).2 ?_).1
  intro text hkind
  exact absurd hkind (by simp [unstoredResult, show nodeKind "SQL" = some .sql by decide])

/-- The sleep returns its result and leaves its name unbound. -/
theorem sleep_leaves_name_unbound :
    ∃ after, executeFunctionNodeWithVars (engine 0) (sleepContext .thenLeft) sleepBeforeQuery
        "cccccccc" sleepExecution ⟨∅, []⟩ = (.ok (sleepResult 1), after) ∧
      after.results["n"]? = none := by
  refine ⟨_, Prod.ext (by decide +kernel) rfl, ?_⟩
  decide +kernel

end PgDurable.Orchestration
