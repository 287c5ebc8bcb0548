import PgDurable.Library.Tree
import PgDurable.Library.Usage
import PgDurable.Orchestration.Join
import PgDurable.Orchestration.Root

/-!
# The ids of children

Joins, races, nested loops and isolated loop bodies schedule children under ids composed of the
parent's id, its generation and the root node of the child. `child_ids_distinct` says that over a
whole run, with all its descendants and all their generations, no id is scheduled twice and none is
the id of the root.

A program's footprint is the set of ids it may schedule. Executing a node has as its footprint
what can be scheduled for the nodes of its subtree; in a tree the footprints of siblings are
disjoint, and so are those of different generations.
-/

namespace PgDurable.Orchestration

open Json Program Text

/-! ## Trees -/

/-- The node executes the other one, according to its type. -/
def References (graph : FunctionGraph) (parent child : String) : Prop :=
  ∃ node, graph.nodes[parent]? = some node ∧ child ∈ childIds node

/-- The graph is a tree, as flattening a workflow produces it: every node is referenced once at
most, the root never, and references are short ids without colons. -/
structure IsTree (graph : FunctionGraph) : Prop where
  rooted : RootedTree (References graph) graph.rootNodeId
  slots : ∀ {nodeId : String} {node}, graph.nodes[nodeId]? = some node → (childIds node).Nodup
  tokens : ∀ {parent child}, References graph parent child → ':' ∉ child.toList

/-- The nodes below a node are those that its references reach. -/
theorem in_subtree_iff {graph : FunctionGraph} {nodeId id : String} :
    InSubtree graph nodeId id ↔ Relation.ReflTransGen (References graph) nodeId id := by
  constructor
  · intro h
    induction h with
    | root => exact .refl
    | child _ hnode hid ih => exact .tail ih ⟨_, hnode, hid⟩
  · intro h
    induction h with
    | refl => exact .root
    | tail _ hstep ih =>
        obtain ⟨node, hnode, hid⟩ := hstep
        exact .child ih hnode hid

/-! ## Footprints -/

/-- The id under which an event schedules a child. -/
def Event.spawnedId : Event → Option String
  | .spawned _ childId _ => some childId
  | _ => none

/-- The ids under which children were scheduled. -/
def spawnedIds (log : List Event) : List String := log.filterMap Event.spawnedId

/-- The program schedules children under allowed ids, each of them once. -/
def Spawns {α : Type} (allowed : Set String) (program : Orch α) : Prop :=
  Moves (Grows (fun machine : Machine => spawnedIds machine.log) allowed) program

/-- The ids below an id. -/
def below (id : String) : Set String := fun text => ∃ suffix, text = id ++ "::" ++ suffix

/-- The ids at and below an id. -/
def family (id : String) : Set String := fun text => text = id ∨ text ∈ below id

/-- The ids for children rooted at some nodes, and below them. -/
def owned (ctx : OrchestrationContext) (nodes : Set String) : Set String :=
  fun text => ∃ nodeId ∈ nodes, text ∈ family (subtreeInstanceId ctx nodeId)

/-- The ids for children of a generation. -/
def ofGeneration (instanceId : String) (executionId : Nat) : Set String :=
  fun text => ∃ suffix, text = instanceId ++ "::" ++ toString executionId ++ "::" ++ suffix

/-- The ids for children of a generation and of all later ones. -/
def sinceGeneration (instanceId : String) (executionId : Nat) : Set String :=
  fun text => ∃ later, executionId ≤ later ∧ text ∈ ofGeneration instanceId later

/-- The nodes of a subtree. -/
def subtreeNodes (graph : FunctionGraph) (nodeId : String) : Set String := InSubtree graph nodeId

section Ids

theorem subtree_instance_id_mem (ctx : OrchestrationContext) (nodeId : String) :
    subtreeInstanceId ctx nodeId ∈ ofGeneration ctx.instanceId ctx.executionId :=
  ⟨nodeId, rfl⟩

theorem owned_subset_generation (ctx : OrchestrationContext) (nodes : Set String) :
    owned ctx nodes ⊆ ofGeneration ctx.instanceId ctx.executionId := by
  rintro text ⟨nodeId, -, rfl | ⟨suffix, rfl⟩⟩
  · exact subtree_instance_id_mem ctx nodeId
  · refine ⟨nodeId ++ "::" ++ suffix, ?_⟩
    simp [subtreeInstanceId, NodeStatus.composeSubtreeInstanceId, String.append_assoc]

theorem generation_subset_below (instanceId : String) (executionId : Nat) :
    ofGeneration instanceId executionId ⊆ below instanceId := by
  rintro text ⟨suffix, rfl⟩
  exact ⟨toString executionId ++ "::" ++ suffix, by simp [String.append_assoc]⟩

theorem since_subset_below (instanceId : String) (executionId : Nat) :
    sinceGeneration instanceId executionId ⊆ below instanceId := by
  rintro text ⟨later, -, htext⟩
  exact generation_subset_below instanceId later htext

/-- An id is not below itself. -/
theorem not_mem_below (id : String) : id ∉ below id := by
  rintro ⟨suffix, h⟩
  have hlength := congrArg String.length h
  simp only [String.length_append] at hlength
  have hcolons : "::".length = 2 := rfl
  omega

/-- Different generations schedule different ids. -/
theorem disjoint_generations (instanceId : String) {first second : Nat} (h : first < second) :
    Disjoint (ofGeneration instanceId first) (sinceGeneration instanceId second) := by
  refine Set.disjoint_left.2 ?_
  rintro text ⟨suffix, htext⟩ ⟨later, hlater, other, hother⟩
  have hchars := congrArg String.toList (htext.symm.trans hother)
  simp only [String.toList_append, List.append_assoc, List.append_cancel_left_eq] at hchars
  have hcolons : "::".toList = [':', ':'] := rfl
  have hdigits : ∀ n : Nat, (toString n).toList = Nat.toDigits 10 n := fun _ => Nat.toList_repr
  rw [hcolons, hdigits, hdigits] at hchars
  have hsame := append_cancel_of_not_mem (not_mem_to_digits (by decide) first)
    (not_mem_to_digits (by decide) later) (Or.inr ⟨_, rfl⟩) (Or.inr ⟨_, rfl⟩) hchars
  have heq := to_digits_injective hsame
  omega

/-- Children rooted at different nodes have different ids, and nothing below them is shared. -/
theorem disjoint_families (ctx : OrchestrationContext) {first second : String}
    (hfirst : ':' ∉ first.toList) (hsecond : ':' ∉ second.toList) (hne : first ≠ second) :
    Disjoint (family (subtreeInstanceId ctx first)) (family (subtreeInstanceId ctx second)) := by
  have hmem : ∀ {nodeId text}, text ∈ family (subtreeInstanceId ctx nodeId) →
      ∃ rest, (rest = [] ∨ ∃ tail, rest = ':' :: tail) ∧
        text.toList = ctx.instanceId.toList ++ (':' :: ':' :: ((toString ctx.executionId).toList ++
          (':' :: ':' :: (nodeId.toList ++ rest)))) := by
    rintro nodeId text (rfl | ⟨suffix, rfl⟩)
    · refine ⟨[], Or.inl rfl, ?_⟩
      simp [subtreeInstanceId, NodeStatus.composeSubtreeInstanceId]
    · refine ⟨':' :: ':' :: suffix.toList, Or.inr ⟨_, rfl⟩, ?_⟩
      simp [subtreeInstanceId, NodeStatus.composeSubtreeInstanceId]
  refine Set.disjoint_left.2 ?_
  intro text htext htext'
  obtain ⟨rest, hrest, hchars⟩ := hmem htext
  obtain ⟨rest', hrest', hchars'⟩ := hmem htext'
  rw [hchars] at hchars'
  simp only [List.append_cancel_left_eq, List.cons.injEq, true_and] at hchars'
  exact hne (String.toList_injective (append_cancel_of_not_mem hfirst hsecond hrest hrest' hchars'))

theorem disjoint_owned (ctx : OrchestrationContext) {first second : Set String}
    (hfirst : ∀ nodeId ∈ first, ':' ∉ nodeId.toList) (hsecond : ∀ nodeId ∈ second, ':' ∉ nodeId.toList)
    (h : Disjoint first second) : Disjoint (owned ctx first) (owned ctx second) := by
  refine Set.disjoint_left.2 ?_
  rintro text ⟨nodeId, hnode, htext⟩ ⟨other, hother, htext'⟩
  have hne : nodeId ≠ other := by
    rintro rfl
    exact Set.disjoint_left.1 h hnode hother
  exact Set.disjoint_left.1 (disjoint_families ctx (hfirst _ hnode) (hsecond _ hother) hne) htext
    htext'

theorem owned_mono (ctx : OrchestrationContext) {first second : Set String} (h : first ⊆ second) :
    owned ctx first ⊆ owned ctx second := by
  rintro text ⟨nodeId, hnode, htext⟩
  exact ⟨nodeId, h hnode, htext⟩

end Ids

/-! ## Programs that schedule nothing -/

section Silent

variable {α β : Type}

theorem spawned_ids_append (first second : List Event) :
    spawnedIds (first ++ second) = spawnedIds first ++ spawnedIds second :=
  List.filterMap_append

/-- Logging events that schedule allowed children, each of them once. -/
theorem logged_grows {allowed : Set String} {events : List Event}
    (h : Once allowed (spawnedIds events)) (machine : Machine) :
    Grows (fun machine : Machine => spawnedIds machine.log) allowed machine
      (machine.logged events) :=
  ⟨spawnedIds events, spawned_ids_append _ _, h⟩

/-- The events schedule nothing. -/
theorem once_of_silent {events : List Event} (h : ∀ event ∈ events, Event.spawnedId event = none) :
    Once ∅ (spawnedIds events) := by
  rw [spawnedIds, List.filterMap_eq_nil_iff.2 h]
  exact Once.nil ∅

theorem Spawns.mono {allowed other : Set String} {program : Orch α} (h : Spawns allowed program)
    (hsub : allowed ⊆ other) : Spawns other program :=
  Moves.mono h fun hgrows => hgrows.mono hsub

/-- A program that only updates the named results schedules nothing. -/
theorem silent_of_log {program : Orch α} (h : ∀ machine, (program machine).2.log = machine.log) :
    Spawns ∅ program := by
  intro machine
  refine ⟨[], ?_, Once.nil ∅⟩
  show spawnedIds (program machine).2.log = _
  rw [h, List.append_nil]

theorem pure_silent (value : α) : Spawns ∅ (pure value : Orch α) := silent_of_log fun _ => rfl

theorem exit_silent (stop : Stop) : Spawns ∅ (Program.exit stop : Orch α) :=
  silent_of_log fun _ => rfl

theorem or_fail_silent (outcome : Except String α) : Spawns ∅ (orFail outcome) := by
  cases outcome <;> exact silent_of_log fun _ => rfl

/-- A program that needs a value which can be missing. -/
theorem spawns_missing {allowed : Set String} {value : Option α} {message : String}
    {next : α → Orch β} (h : ∀ found, value = some found → Spawns allowed (next found)) :
    Spawns allowed (orMissing value message >>= next) := by
  cases value with
  | none => exact (silent_of_log fun _ => rfl).mono (Set.empty_subset _)
  | some found => exact h found rfl

/-- A program that calls a helper which can fail. -/
theorem spawns_or_fail {allowed : Set String} {outcome : Except String α} {next : α → Orch β}
    (h : ∀ value, outcome = .ok value → Spawns allowed (next value)) :
    Spawns allowed (orFail outcome >>= next) := by
  cases outcome with
  | error message => exact (silent_of_log fun _ => rfl).mono (Set.empty_subset _)
  | ok value => exact h value rfl

theorem read_results_silent : Spawns ∅ readResults := silent_of_log fun _ => rfl

theorem store_named_result_silent (node : FunctionNode) (result : String) :
    Spawns ∅ (storeNamedResult node result) := by
  unfold storeNamedResult
  cases node.resultName <;> exact silent_of_log fun _ => rfl

/-- Returning a result after storing it. -/
theorem store_and_return_silent (node : FunctionNode) (result : α) (text : String) :
    Spawns ∅ (do storeNamedResult node text; pure result) :=
  moves_grows_silent_bind (store_named_result_silent node text) fun _ => pure_silent _

theorem schedule_activity_silent (ctx : OrchestrationContext) (name input : String)
    (attempt : Nat) : Spawns ∅ (scheduleActivity ctx name input attempt) :=
  fun machine => logged_grows (Once.nil ∅) machine

theorem emit_silent {events : List Event} (h : ∀ event ∈ events, Event.spawnedId event = none) :
    Spawns ∅ (emit events) :=
  fun machine => logged_grows (once_of_silent h) machine

theorem stamp_loop_node_silent (ctx : OrchestrationContext)
    (instanceId loopNodeId status result stamp : String) :
    Spawns ∅ (stampLoopNode ctx instanceId loopNodeId status result stamp) :=
  moves_grows_silent_bind (schedule_activity_silent _ _ _ _) fun _ => pure_silent _

theorem fail_loop_child_silent (ctx : OrchestrationContext) (graph : FunctionGraph)
    (loopNodeId : String) (error : NodeError) :
    Spawns ∅ (failLoopChildFuture ctx graph loopNodeId error) :=
  moves_grows_silent_bind (stamp_loop_node_silent _ _ _ _ _ _) fun _ => exit_silent _

theorem parse_envelope_silent (raw context : String) :
    Spawns ∅ (parseSubtreeEnvelope raw context) := by
  refine moves_grows_silent_bind (or_fail_silent _) fun envelope => ?_
  refine moves_grows_silent_bind (silent_of_log fun _ => rfl) fun _ => ?_
  rcases envelope.control with _ | _ | _
  · dsimp only
    cases parseLegacyBreakSentinel envelope.result with
    | none => exact pure_silent _
    | some value => exact exit_silent _
  · exact pure_silent _
  · exact exit_silent _

/-- Processing the replies of a join schedules nothing. -/
theorem join_outcomes_silent (ctx : OrchestrationContext) (graph : FunctionGraph)
    (execCtx : ExecutionContext) (index : Nat) (replies : List (String × Except String String))
    (joined : List Value) (selected : Option JoinError) :
    Spawns ∅ (joinOutcomes ctx graph execCtx index replies joined selected) := by
  have hraise : ∀ error, Spawns ∅ (raiseJoinError ctx graph error) := by
    intro error
    refine moves_grows_silent_bind (emit_silent (by simp [Event.spawnedId])) fun _ => ?_
    cases error.loopNodeId with
    | none => exact exit_silent _
    | some loopNodeId => exact fail_loop_child_silent ctx graph loopNodeId _
  have hbranch : ∀ index branchId reply, Spawns ∅ (joinBranch graph index branchId reply) := by
    intro index branchId reply
    cases reply with
    | error e => exact pure_silent _
    | ok raw =>
        have hparse := parse_envelope_silent raw ("JOIN branch " ++ toString (index + 1))
        refine moves_grows_silent_bind hparse fun outcome => ?_
        rcases outcome with (_ | _ | _) | branchResult
        · exact pure_silent _
        · exact exit_silent _
        · exact exit_silent _
        · dsimp only
          cases fromStr branchResult <;> exact pure_silent _
  induction replies generalizing index joined selected with
  | nil =>
      cases selected with
      | none => exact pure_silent _
      | some error => exact moves_grows_silent_bind (hraise error) fun _ => pure_silent _
  | cons first replies ih =>
      obtain ⟨branchId, reply⟩ := first
      refine moves_grows_silent_bind (hbranch index branchId reply) fun contribution => ?_
      cases contribution with
      | ok parsed => exact ih _ _ _
      | error error =>
          dsimp only
          split_ifs
          · exact ih _ _ _
          · exact moves_grows_silent_bind (hraise error) fun _ => pure_silent _

/-- The delay between iterations schedules nothing. -/
theorem rate_limit_silent (ctx : OrchestrationContext) (execCtx : ExecutionContext)
    (iterStarted : Except String Int) : Spawns ∅ (rateLimit ctx execCtx iterStarted) := by
  unfold rateLimit
  cases iterStarted with
  | error message => exact pure_silent _
  | ok started =>
      cases ctx.world.utcNow (ctx.path ++ [.loopBody execCtx.loopIteration]) 1 with
      | error message => exact pure_silent _
      | ok now =>
          dsimp only
          split_ifs
          · exact emit_silent (by simp [Event.spawnedId])
          · exact pure_silent _

/-- Taking the reply of the winner of a race schedules nothing. -/
theorem finish_race_silent (ctx : OrchestrationContext) (graph : FunctionGraph)
    (node : FunctionNode) (leftId rightId : String) (leftWins : Bool)
    (reply : Except String String) :
    Spawns ∅ (finishRace ctx graph node leftId rightId leftWins reply) := by
  have hcancel : ∀ branchId, Spawns ∅ (cancelLosingLoopBranch ctx graph branchId) := by
    intro branchId
    unfold cancelLosingLoopBranch
    split_ifs
    · exact stamp_loop_node_silent _ _ _ _ _ _
    · exact pure_silent _
  have hend : ∀ raw, Spawns ∅ (do
      let result ← parseSubtreeEnvelope raw "RACE branch"
      storeNamedResult node result
      pure result) :=
    fun raw => moves_grows_silent_bind (parse_envelope_silent raw _) fun _ =>
      store_and_return_silent node _ _
  refine moves_grows_silent_bind (hcancel _) fun _ => ?_
  cases reply with
  | ok raw => exact hend raw
  | error e =>
      dsimp only
      split_ifs <;>
      first
      | exact moves_grows_silent_bind (fail_loop_child_silent _ _ _ _) hend
      | exact moves_grows_silent_bind (exit_silent _) hend

/-- A leaf schedules no children. -/
theorem leaf_silent {ctx : OrchestrationContext} {node : FunctionNode} {program : Orch String}
    (h : IsLeaf ctx node program) : Spawns ∅ program := by
  intro machine
  have heffects : ∀ {events : List Event}, (∀ event ∈ events, event.IsEffect ctx.site) →
      Once ∅ (spawnedIds events) := by
    intro events hevents
    refine once_of_silent fun event hevent => ?_
    rcases hevents event hevent with ⟨_, _, _, _, rfl⟩ | ⟨_, rfl⟩ <;> rfl
  have hrun := h machine
  rcases hprogram : program machine with ⟨outcome, after⟩
  rw [hprogram] at hrun
  cases hrun with
  | failed | stuck => exact Grows.refl ∅ _
  | refused hevents | unstored _ hevents => exact logged_grows (heffects hevents) machine
  | broke => exact logged_grows (Once.nil ∅) machine
  | stored _ hevents =>
      exact ⟨_, spawned_ids_append _ _, heffects hevents⟩

end Silent

/-! ## The interpreter -/

/-- Executing a node schedules children for nodes of its subtree, each id once; a child schedules
its own children since its generation. -/
structure SpawnsOnce (graph : FunctionGraph) (engine : Engine) : Prop where
  node : ∀ ctx {nodeId} execCtx, InSubtree graph graph.rootNodeId nodeId →
    Spawns (owned ctx (subtreeNodes graph nodeId)) (engine.node ctx graph nodeId execCtx)
  subtree : ∀ ctx {nodeId} results execCtx {iteration}, iteration < 2 ^ 64 →
    InSubtree graph graph.rootNodeId nodeId →
    Once (sinceGeneration ctx.instanceId ctx.executionId)
      (spawnedIds (engine.subtree ctx (subtreeText graph nodeId results execCtx iteration)).1)

section Tree

variable {graph : FunctionGraph} (htree : IsTree graph) {node : FunctionNode} {nodeId : String}
  (hreach : InSubtree graph graph.rootNodeId nodeId) (hnode : graph.nodes[nodeId]? = some node)

include hnode

theorem child_subset {childId : String} (hchild : childId ∈ childIds node) :
    subtreeNodes graph childId ⊆ subtreeNodes graph nodeId :=
  fun _ hid => (InSubtree.child .root hnode hchild).trans hid

include htree

/-- Everything below a child has a short id. -/
theorem below_child_token {childId id : String} (hchild : childId ∈ childIds node)
    (hid : id ∈ subtreeNodes graph childId) : ':' ∉ id.toList := by
  cases hid with
  | root => exact htree.tokens ⟨node, hnode, hchild⟩
  | child _ hparent hmem => exact htree.tokens ⟨_, hparent, hmem⟩

include hreach

/-- Executions of two children have disjoint footprints. -/
theorem disjoint_children (ctx : OrchestrationContext) {first second : String}
    (hfirst : first ∈ childIds node) (hsecond : second ∈ childIds node) (hne : first ≠ second) :
    Disjoint (owned ctx (subtreeNodes graph first)) (owned ctx (subtreeNodes graph second)) := by
  refine disjoint_owned ctx (fun _ => below_child_token htree hnode hfirst)
    (fun _ => below_child_token htree hnode hsecond) (Set.disjoint_left.2 ?_)
  intro id hid hid'
  exact htree.rooted.disjoint_siblings (in_subtree_iff.1 hreach) ⟨node, hnode, hfirst⟩
    ⟨node, hnode, hsecond⟩ hne (in_subtree_iff.1 hid) (in_subtree_iff.1 hid')

end Tree

section Handlers

variable {engine : Engine} {graph : FunctionGraph} (htree : IsTree graph)
  (hengine : SpawnsOnce graph engine) {ctx : OrchestrationContext} {node : FunctionNode}
  {nodeId : String} {execCtx : ExecutionContext}
  (hreach : InSubtree graph graph.rootNodeId nodeId) (hnode : graph.nodes[nodeId]? = some node)

include hengine hreach hnode

/-- Executing a child within the current orchestration. -/
theorem child_node_spawns {step : Step} {childId : String} (hchild : childId ∈ childIds node) :
    Spawns (owned ctx (subtreeNodes graph childId))
      (engine.node (ctx.down step) graph childId execCtx) :=
  hengine.node (ctx.down step) execCtx (.child hreach hnode hchild)

/-- A scheduled child and everything below it. -/
theorem run_child_once {childId : String} {results : StringMap} {path : Path}
    (hchild : childId ∈ childIds node ∨ childId = nodeId) :
    Once (family (subtreeInstanceId ctx childId)) (subtreeInstanceId ctx childId ::
      spawnedIds (runChild engine (childContext ctx childId path)
        (buildSubtreeInput graph childId results execCtx)).1) := by
  have hbelow : Once (below (subtreeInstanceId ctx childId))
      (spawnedIds (runChild engine (childContext ctx childId path)
        (buildSubtreeInput graph childId results execCtx)).1) := by
    have hchildReach : InSubtree graph graph.rootNodeId childId := by
      rcases hchild with hchild | rfl
      · exact .child hreach hnode hchild
      · exact hreach
    unfold runChild
    cases (childContext ctx childId path).world.runtimeFault (childContext ctx childId path).path
      (childContext ctx childId path).instanceId with
    | some error => exact Once.nil _
    | none =>
        refine (hengine.subtree (childContext ctx childId path) results execCtx (by decide)
          hchildReach).mono ?_
        exact since_subset_below _ _
  exact Once.cons (Or.inl rfl) (not_mem_below _) hbelow fun _ => Or.inr

include htree

/-- Two children one after the other, and then the result. -/
theorem then_spawns (hkind : nodeKind node.nodeType = some .thenNode) :
    Spawns (owned ctx (subtreeNodes graph nodeId))
      (executeThenNode engine ctx graph node nodeId execCtx) := by
  refine spawns_missing fun leftId hleft => spawns_missing fun rightId hright => ?_
  have hids : childIds node = [leftId, rightId] := by simp [childIds, hkind, hleft, hright]
  have hslots := htree.slots hnode
  rw [hids] at hslots
  have hleftId : leftId ∈ childIds node := by simp [hids]
  have hrightId : rightId ∈ childIds node := by simp [hids]
  have hne : leftId ≠ rightId := by
    rintro rfl
    exact absurd hslots (by simp)
  refine moves_grows_bind (child_node_spawns hengine hreach hnode hleftId) (fun _ => ?_)
    (disjoint_children htree hreach hnode ctx hleftId hrightId hne)
    (owned_mono ctx (child_subset hnode hleftId)) (owned_mono ctx (child_subset hnode hrightId))
  exact moves_grows_bind_silent (child_node_spawns hengine hreach hnode hrightId) fun _ =>
    store_and_return_silent node _ _

omit htree in
/-- The condition of a conditional. -/
theorem decide_if_spawns {config : Value} {allowed : Set String}
    (h : ∀ id, (config.index "condition_node").asStr = some id → id ∈ childIds node ∧
      owned ctx (subtreeNodes graph id) ⊆ allowed) :
    Spawns allowed (decideIf engine ctx graph execCtx config) := by
  unfold decideIf
  split
  · refine Spawns.mono ?_ (Set.empty_subset _)
    exact moves_grows_silent_bind read_results_silent fun _ => or_fail_silent _
  · refine spawns_missing fun id hid => ?_
    obtain ⟨hchild, hallowed⟩ := h id hid
    exact moves_grows_bind_silent ((child_node_spawns hengine hreach hnode hchild).mono hallowed)
      fun _ => or_fail_silent _

/-- The condition, and then one of the branches. -/
theorem if_spawns (hkind : nodeKind node.nodeType = some .ifNode) :
    Spawns (owned ctx (subtreeNodes graph nodeId))
      (executeIfNode engine ctx graph node nodeId execCtx) := by
  refine spawns_missing fun configText hquery => spawns_or_fail fun config hconfig =>
    spawns_missing fun thenId hthen => spawns_missing fun elseId helse => ?_
  have hids : childIds node =
      [thenId, elseId] ++ (config.index "condition_node").asStr.toList := by
    simp [childIds, hkind, hthen, helse, hquery, parse_of_from_str hconfig]
  have hslots := htree.slots hnode
  rw [hids] at hslots
  have hthenId : thenId ∈ childIds node := by simp [hids]
  have helseId : elseId ∈ childIds node := by simp [hids]
  have hbranches : ∀ isTrue : Bool, Spawns
      (owned ctx (subtreeNodes graph thenId) ∪ owned ctx (subtreeNodes graph elseId)) (do
        let result ←
          if isTrue then engine.node (ctx.down .ifThen) graph thenId execCtx
          else engine.node (ctx.down .ifElse) graph elseId execCtx
        storeNamedResult node result
        pure result) := by
    intro isTrue
    cases isTrue with
    | true =>
        exact moves_grows_bind_silent ((child_node_spawns hengine hreach hnode hthenId).mono
          Set.subset_union_left) fun _ => store_and_return_silent node _ _
    | false =>
        exact moves_grows_bind_silent ((child_node_spawns hengine hreach hnode helseId).mono
          Set.subset_union_right) fun _ => store_and_return_silent node _ _
  have hall : owned ctx (subtreeNodes graph thenId) ∪ owned ctx (subtreeNodes graph elseId) ⊆
      owned ctx (subtreeNodes graph nodeId) :=
    Set.union_subset (owned_mono ctx (child_subset hnode hthenId))
      (owned_mono ctx (child_subset hnode helseId))
  cases hcondition : (config.index "condition_node").asStr with
  | none =>
      have hdecide := @decide_if_spawns engine graph hengine ctx node nodeId execCtx hreach hnode
        config ∅ (by simp [hcondition])
      exact Spawns.mono (moves_grows_silent_bind hdecide hbranches) hall
  | some id =>
      rw [hcondition] at hids hslots
      have hid : id ∈ childIds node := by simp [hids]
      have hdecide := @decide_if_spawns engine graph hengine ctx node nodeId execCtx hreach hnode
        config (owned ctx (subtreeNodes graph id)) (by
          rw [hcondition]
          rintro other ⟨⟩
          exact ⟨hid, subset_rfl⟩)
      have hneThen : id ≠ thenId := by
        rintro rfl
        exact absurd hslots (by simp)
      have hneElse : id ≠ elseId := by
        rintro rfl
        exact absurd hslots (by simp)
      refine moves_grows_bind hdecide hbranches (Set.disjoint_union_right.2 ⟨?_, ?_⟩)
        (owned_mono ctx (child_subset hnode hid)) hall
      · exact disjoint_children htree hreach hnode ctx hid hthenId hneThen
      · exact disjoint_children htree hreach hnode ctx hid helseId hneElse

/-- The branches of a join, and everything below them. -/
theorem join_events_once {results : StringMap} {branchIds : List String}
    (hids : childIds node = branchIds) :
    Once (owned ctx (subtreeNodes graph nodeId))
      (spawnedIds (joinEvents engine ctx (branchChildren ctx graph execCtx results branchIds))) := by
  have hslots := htree.slots hnode
  rw [hids] at hslots
  have hinstances : (branchChildren ctx graph execCtx results branchIds).map (·.1.instanceId) =
      branchIds.map (subtreeInstanceId ctx) := by
    refine List.ext_getElem? fun index => ?_
    simp [branchChildren, childContext, Option.map_map, Function.comp_def]
  have hchild : ∀ item ∈ branchChildren ctx graph execCtx results branchIds,
      ∃ branchId ∈ childIds node, ∃ index,
        item = (childContext ctx branchId (ctx.path ++ [.branch index]),
          buildSubtreeInput graph branchId results execCtx) := by
    intro item hitem
    obtain ⟨index, hindex, rfl⟩ := List.mem_mapIdx.1 hitem
    exact ⟨branchIds[index], by rw [hids]; exact List.getElem_mem hindex, index, rfl⟩
  have hdisjoint : (branchChildren ctx graph execCtx results branchIds).Pairwise
      fun first second => Disjoint (family first.1.instanceId) (family second.1.instanceId) := by
    have hids' : branchIds.Pairwise fun first second =>
        Disjoint (family (subtreeInstanceId ctx first)) (family (subtreeInstanceId ctx second)) := by
      refine List.Pairwise.imp_of_mem ?_ hslots
      intro first second hfirst hsecond hne
      rw [← hids] at hfirst hsecond
      exact disjoint_families ctx (htree.tokens ⟨node, hnode, hfirst⟩)
        (htree.tokens ⟨node, hnode, hsecond⟩) hne
    rw [← List.pairwise_map (f := subtreeInstanceId ctx) (R := fun first second =>
      Disjoint (family first) (family second)), ← hinstances, List.pairwise_map] at hids'
    exact hids'
  have honce := @Once.children _ _ (branchChildren ctx graph execCtx results branchIds)
    (fun item => item.1.instanceId) (fun item => spawnedIds (runChild engine item.1 item.2).1)
    (fun item => family item.1.instanceId) ?_ hdisjoint
  · have htokens : spawnedIds (joinEvents engine ctx
        (branchChildren ctx graph execCtx results branchIds)) =
        (branchChildren ctx graph execCtx results branchIds).map (·.1.instanceId) ++
          (branchChildren ctx graph execCtx results branchIds).flatMap
            fun item => spawnedIds (runChild engine item.1 item.2).1 := by
      rw [joinEvents, spawned_ids_append]
      simp [spawnedIds, List.filterMap_flatMap, List.filterMap_map, Function.comp_def,
        Event.spawnedId]
    rw [htokens]
    refine honce.mono (Set.iUnion₂_subset fun item hitem => ?_)
    obtain ⟨branchId, hbranch, index, rfl⟩ := hchild item hitem
    exact fun text htext => ⟨branchId, .child .root hnode hbranch, htext⟩
  · intro item hitem
    obtain ⟨branchId, hbranch, index, rfl⟩ := hchild item hitem
    exact run_child_once hengine hreach hnode (Or.inl hbranch)

theorem join_spawns (hkind : nodeKind node.nodeType = some .join) :
    Spawns (owned ctx (subtreeNodes graph nodeId))
      (executeJoinNode engine ctx graph node nodeId execCtx) := by
  refine moves_grows_bind_silent ?_ fun _ => store_and_return_silent node _ _
  refine spawns_missing fun leftId hleft => spawns_missing fun rightId hright => ?_
  have hids : childIds node = joinBranchIds node leftId rightId := by
    simp [childIds, hkind, hleft, hright]
  refine moves_grows_silent_bind read_results_silent fun results => ?_
  refine moves_grows_bind_silent ?_ fun _ => join_outcomes_silent ctx graph execCtx _ _ _ _
  intro machine
  have hlog := join_children_log engine ctx machine
    (branchChildren ctx graph execCtx results (joinBranchIds node leftId rightId))
  rw [hlog]
  exact logged_grows (join_events_once htree hengine hreach hnode hids) machine

/-- The branches of a race; the loser leaves only a part of what it schedules. -/
theorem select_events_once {leftId rightId : String} {leftPath rightPath : Path}
    {results : StringMap} (hleft : leftId ∈ childIds node) (hright : rightId ∈ childIds node)
    (hne : leftId ≠ rightId) :
    Once (owned ctx (subtreeNodes graph nodeId))
      (spawnedIds (selectEvents engine ctx (childContext ctx leftId leftPath)
        (childContext ctx rightId rightPath) (buildSubtreeInput graph leftId results execCtx)
        (buildSubtreeInput graph rightId results execCtx))) := by
  have hdisjoint := disjoint_families ctx (htree.tokens ⟨node, hnode, hleft⟩)
    (htree.tokens ⟨node, hnode, hright⟩) hne
  have hleftOnce := @run_child_once engine graph hengine ctx node nodeId execCtx hreach hnode leftId
    results leftPath (Or.inl hleft)
  have hrightOnce := @run_child_once engine graph hengine ctx node nodeId execCtx hreach hnode
    rightId results rightPath (Or.inl hright)
  have hall : family (subtreeInstanceId ctx leftId) ∪ family (subtreeInstanceId ctx rightId) ⊆
      owned ctx (subtreeNodes graph nodeId) := by
    rintro text (htext | htext)
    · exact ⟨leftId, .child .root hnode hleft, htext⟩
    · exact ⟨rightId, .child .root hnode hright, htext⟩
  have honce := (hleftOnce.append hrightOnce hdisjoint).mono hall
  have htake : ∀ {events : List Event} {count}, (spawnedIds (events.take count)).Sublist
      (spawnedIds events) :=
    fun {events count} => (List.take_sublist count events).filterMap _
  unfold selectEvents winnerRun loserRun
  rw [spawned_ids_append, spawned_ids_append]
  cases ctx.world.leftWins ctx.path with
  | true =>
      have hfull := honce.perm (List.Perm.cons _ List.perm_middle)
      exact hfull.sublist (.cons_cons _ (.cons_cons _ (.append_left htake _)))
  | false =>
      have hfull := honce.perm (List.Perm.cons _ List.perm_append_comm)
      exact hfull.sublist (.cons_cons _ (.cons_cons _ (.append_left htake _)))

theorem race_spawns (hkind : nodeKind node.nodeType = some .race) :
    Spawns (owned ctx (subtreeNodes graph nodeId))
      (executeRaceNode engine ctx graph node nodeId execCtx) := by
  refine spawns_missing fun leftId hleft => spawns_missing fun rightId hright => ?_
  have hids : childIds node = [leftId, rightId] := by simp [childIds, hkind, hleft, hright]
  have hslots := htree.slots hnode
  rw [hids] at hslots
  have hne : leftId ≠ rightId := by
    rintro rfl
    exact absurd hslots (by simp)
  refine moves_grows_silent_bind read_results_silent fun results => ?_
  refine moves_grows_bind_silent ?_ fun winner => finish_race_silent ctx graph node _ _ _ _
  intro machine
  have honce := @select_events_once engine graph htree hengine ctx node nodeId execCtx hreach hnode
    leftId rightId (ctx.path ++ [.branch 0]) (ctx.path ++ [.branch 1]) results (by simp [hids])
    (by simp [hids]) hne
  rw [select_children_apply]
  cases (winnerRun engine ctx (childContext ctx leftId (ctx.path ++ [.branch 0]))
    (childContext ctx rightId (ctx.path ++ [.branch 1]))
    (buildSubtreeInput graph leftId results execCtx)
    (buildSubtreeInput graph rightId results execCtx)).2 with
  | none => exact logged_grows honce machine
  | some reply =>
      refine logged_grows ?_ machine
      rw [spawned_ids_append]
      show Once _ (_ ++ [])
      rw [List.append_nil]
      exact honce

omit htree in
/-- The condition of a loop. -/
theorem loop_condition_spawns {conditionNode : Option String} {bodyResult : String}
    {allowed : Set String}
    (h : ∀ id, conditionNode = some id → id ∈ childIds node ∧
      owned ctx (subtreeNodes graph id) ⊆ allowed) :
    Spawns allowed (evaluateLoopCondition engine ctx graph node execCtx conditionNode
      bodyResult) := by
  unfold evaluateLoopCondition
  cases conditionNode with
  | none => exact (pure_silent _).mono (Set.empty_subset _)
  | some id =>
      obtain ⟨hchild, hallowed⟩ := h id rfl
      have hcondition := (@child_node_spawns engine graph hengine ctx node nodeId execCtx hreach
        hnode (.loopCondition execCtx.loopIteration) id hchild).mono hallowed
      refine moves_grows_bind_silent hcondition fun outcome => ?_
      rcases outcome with ((value | error | error) | input | _) | conditionResult
      · exact store_and_return_silent node _ _
      · exact exit_silent _
      · exact exit_silent _
      · exact exit_silent _
      · exact exit_silent _
      · dsimp only
        split_ifs
        · exact pure_silent _
        · exact store_and_return_silent node _ _

omit htree in
/-- The body of a loop within the current orchestration. -/
theorem isolated_body_spawns {bodyId : String} (hbody : bodyId ∈ childIds node) :
    Spawns (owned ctx (subtreeNodes graph bodyId))
      (runFailureIsolatedBody engine ctx graph execCtx bodyId) := by
  refine moves_grows_silent_bind read_results_silent fun results => ?_
  refine moves_grows_bind_silent ?_ fun reply => ?_
  · intro machine
    rw [schedule_sub_apply]
    refine logged_grows ?_ machine
    refine Once.mono (run_child_once hengine hreach hnode (Or.inl hbody)) ?_
    exact fun text htext => ⟨bodyId, .root, htext⟩
  · cases reply with
    | error error =>
        unfold classifyIsolatedBodyResult
        dsimp only
        cases decodeSubtreeApplicationFailure error with
        | none => exact exit_silent _
        | some message => exact pure_silent _
    | ok raw =>
        have hparse := parse_envelope_silent raw "LOOP iteration"
        refine moves_grows_silent_bind hparse fun outcome => ?_
        rcases outcome with ((_ | _ | _) | _ | _) | _
        · exact pure_silent _
        · exact exit_silent _
        · exact exit_silent _
        · exact exit_silent _
        · exact exit_silent _
        · exact pure_silent _

omit htree hengine hreach hnode in
/-- The end of an iteration starts no child. -/
theorem loop_end_silent (ctx : OrchestrationContext) (graph : FunctionGraph) (nodeId : String)
    (execCtx : ExecutionContext) (value : Option String) :
    Spawns ∅ (match value with
      | some finalResult => pure finalResult
      | none =>
          if execCtx.loopIteration + 1 ≥ maxLoopIterations then
            fail ("Loop exceeded maximum iteration count of " ++ toString maxLoopIterations ++
              ". Use df.break() to exit the loop or restructure the workflow.")
          else do
            rateLimit ctx execCtx (ctx.world.utcNow (ctx.path ++ [.loopBody execCtx.loopIteration]) 0)
            let results ← readResults
            Program.exit (.continuedAsNew (continuationInput graph nodeId execCtx results
              (execCtx.loopIteration + 1)))) := by
  cases value with
  | some finalResult => exact pure_silent _
  | none =>
      dsimp only
      split_ifs
      · exact exit_silent _
      · refine moves_grows_silent_bind (rate_limit_silent _ _ _) fun _ => ?_
        exact moves_grows_silent_bind read_results_silent fun _ => exit_silent _

/-- The body, inline or as a child, and then the condition. -/
theorem loop_spawns (hkind : nodeKind node.nodeType = some .loop) :
    Spawns (owned ctx (subtreeNodes graph nodeId))
      (executeLoopNode engine ctx graph node nodeId execCtx) := by
  refine spawns_missing fun bodyId hbody => spawns_or_fail fun config hconfig => ?_
  have hids := loop_child_ids hkind hbody hconfig
  have hslots := htree.slots hnode
  rw [hids] at hslots
  have hbodyId : bodyId ∈ childIds node := by simp [hids]
  have hcondition : ∀ bodyResult, Spawns
      (owned ctx (⋃ id ∈ config.conditionNode, subtreeNodes graph id))
      (evaluateLoopCondition engine ctx graph node execCtx config.conditionNode bodyResult) := by
    intro bodyResult
    refine loop_condition_spawns hengine hreach hnode fun id hid => ⟨by simp [hids, hid], ?_⟩
    exact owned_mono ctx (Set.subset_biUnion_of_mem (u := subtreeNodes graph) hid)
  have hdisjoint : Disjoint (owned ctx (subtreeNodes graph bodyId))
      (owned ctx (⋃ id ∈ config.conditionNode, subtreeNodes graph id)) := by
    refine Set.disjoint_left.2 ?_
    rintro text htext ⟨id, hid, hfamily⟩
    obtain ⟨conditionId, hconditionId, hmem⟩ := Set.mem_iUnion₂.1 hid
    have hne : bodyId ≠ conditionId := by
      rintro rfl
      exact absurd hslots (by simp [Option.mem_def.1 hconditionId])
    exact Set.disjoint_left.1 (disjoint_children htree hreach hnode ctx hbodyId
      (by simp [hids, Option.mem_def.1 hconditionId]) hne) htext ⟨id, hmem, hfamily⟩
  have hall : owned ctx (⋃ id ∈ config.conditionNode, subtreeNodes graph id) ⊆
      owned ctx (subtreeNodes graph nodeId) := by
    refine owned_mono ctx (Set.iUnion₂_subset fun id hid => ?_)
    exact child_subset hnode (by simp [hids, Option.mem_def.1 hid])
  refine moves_grows_bind_silent ?_ (loop_end_silent ctx graph nodeId execCtx)
  unfold loopIteration
  split_ifs
  · refine moves_grows_bind (isolated_body_spawns hengine hreach hnode hbodyId) (fun outcome => ?_)
      hdisjoint (owned_mono ctx (child_subset hnode hbodyId)) hall
    cases outcome with
    | succeeded bodyResult => exact hcondition bodyResult
    | applicationFailed => exact (pure_silent _).mono (Set.empty_subset _)
    | breakWith value => exact (store_and_return_silent node _ _).mono (Set.empty_subset _)
  · have hbodySpawns := @child_node_spawns engine graph hengine ctx node nodeId execCtx hreach hnode
      (.loopBody execCtx.loopIteration) bodyId hbodyId
    refine moves_grows_bind hbodySpawns (fun outcome => ?_) hdisjoint
      (owned_mono ctx (child_subset hnode hbodyId)) hall
    rcases outcome with ((value | error | error) | input | _) | bodyResult
    · exact (store_and_return_silent node _ _).mono (Set.empty_subset _)
    · exact (exit_silent _).mono (Set.empty_subset _)
    · exact (exit_silent _).mono (Set.empty_subset _)
    · exact (exit_silent _).mono (Set.empty_subset _)
    · exact (exit_silent _).mono (Set.empty_subset _)
    · exact hcondition bodyResult

omit htree in
/-- A loop below the root of its orchestration is a child itself. -/
theorem loop_child_spawns :
    Spawns (owned ctx (subtreeNodes graph nodeId))
      (executeLoopSuborchestration engine ctx graph node nodeId execCtx) := by
  unfold executeLoopSuborchestration
  split_ifs
  · refine Spawns.mono ?_ (Set.empty_subset _)
    exact moves_grows_silent_bind (stamp_loop_node_silent _ _ _ _ _ _) fun _ => exit_silent _
  · refine moves_grows_silent_bind read_results_silent fun results => ?_
    refine moves_grows_bind_silent ?_ fun reply => ?_
    · intro machine
      rw [schedule_sub_apply]
      refine logged_grows ?_ machine
      refine Once.mono (run_child_once hengine hreach hnode (Or.inr rfl)) ?_
      exact fun text htext => ⟨nodeId, .root, htext⟩
    · cases reply with
      | ok raw => exact parse_envelope_silent raw _
      | error e => exact fail_loop_child_silent _ _ _ _

theorem inner_spawns :
    Spawns (owned ctx (subtreeNodes graph nodeId))
      (executeNodeInner engine ctx graph node nodeId execCtx) := by
  have hleaf : ∀ {program : Orch String}, IsLeaf ctx node program →
      Spawns (owned ctx (subtreeNodes graph nodeId)) program :=
    fun h => (leaf_silent h).mono (Set.empty_subset _)
  unfold executeNodeInner
  cases hkind : nodeKind node.nodeType with
  | none => exact (exit_silent _).mono (Set.empty_subset _)
  | some kind =>
      cases kind with
      | thenNode => exact then_spawns htree hengine hreach hnode hkind
      | ifNode => exact if_spawns htree hengine hreach hnode hkind
      | join => exact join_spawns htree hengine hreach hnode hkind
      | race => exact race_spawns htree hengine hreach hnode hkind
      | loop => exact loop_spawns htree hengine hreach hnode hkind
      | sleep => exact hleaf (sleep_is_leaf ctx node nodeId hkind)
      | waitSchedule => exact hleaf (wait_schedule_is_leaf ctx node nodeId hkind)
      | breakNode => exact hleaf (break_is_leaf ctx node hkind)
      | sql =>
          exact hleaf (sql_is_leaf ctx node nodeId execCtx _ _ (by simp [unstoredResult, hkind]))
      | http =>
          exact hleaf (http_is_leaf ctx node nodeId execCtx _ (by simp [unstoredResult, hkind]))
      | httpMultipart =>
          exact hleaf (http_multipart_is_leaf ctx node nodeId execCtx _
            (by simp [unstoredResult, hkind]))
      | signal => exact hleaf (signal_is_leaf ctx node nodeId (by simp [unstoredResult, hkind]))

omit hnode in
theorem function_node_spawns :
    Spawns (owned ctx (subtreeNodes graph nodeId))
      (executeFunctionNodeWithVars engine ctx graph nodeId execCtx) := by
  have hstatus : ∀ status result, Spawns ∅ (writeNodeStatus ctx graph nodeId status result) :=
    fun status result => moves_grows_silent_bind (schedule_activity_silent _ _ _ _) fun _ =>
      pure_silent _
  have hemit : ∀ event, Event.spawnedId event = none → Spawns ∅ (emit [event]) :=
    fun event h => emit_silent (by simp [h])
  refine spawns_missing fun node hnode => moves_grows_silent_bind (hemit _ rfl) fun _ => ?_
  split_ifs
  · exact loop_child_spawns hengine hreach hnode
  · refine moves_grows_silent_bind (hstatus _ _) fun _ => ?_
    have hinner := @inner_spawns engine graph htree hengine ctx node nodeId execCtx hreach hnode
    refine moves_grows_bind_silent hinner fun outcome => ?_
    rcases outcome with (error | input | _) | value
    · refine moves_grows_silent_bind (hstatus _ _) fun _ => ?_
      exact moves_grows_silent_bind (hemit _ rfl) fun _ => exit_silent _
    · exact exit_silent _
    · exact exit_silent _
    · refine moves_grows_silent_bind (hstatus _ _) fun _ => ?_
      exact moves_grows_silent_bind (hemit _ rfl) fun _ => pure_silent _

omit htree hnode in
/-- A child schedules its children generation by generation. -/
theorem run_subtree_once (hsound : Sound engine) {results : StringMap} {iteration : Nat}
    (hiteration : iteration < 2 ^ 64) :
    Once (sinceGeneration ctx.instanceId ctx.executionId)
      (spawnedIds (runSubtree engine ctx (subtreeText graph nodeId results execCtx iteration)).1) := by
  have hgood := hsound.node ctx graph nodeId (execCtx.enter nodeId iteration) ⟨results, []⟩
  obtain ⟨tokens, htokens, honce⟩ := hengine.node ctx (execCtx.enter nodeId iteration) hreach
    ⟨results, []⟩
  have hgeneration : Once (ofGeneration ctx.instanceId ctx.executionId) (spawnedIds
      (engine.node ctx graph nodeId (execCtx.enter nodeId iteration) ⟨results, []⟩).2.log) := by
    show Once _ ((fun machine : Machine => spawnedIds machine.log) _)
    rw [htokens]
    exact honce.mono (owned_subset_generation ctx _)
  have hsub : ofGeneration ctx.instanceId ctx.executionId ⊆
      sinceGeneration ctx.instanceId ctx.executionId :=
    fun text htext => ⟨ctx.executionId, Nat.le_refl _, htext⟩
  rw [run_subtree_reads engine ctx graph nodeId results execCtx hiteration]
  rcases hrun : engine.node ctx graph nodeId (execCtx.enter nodeId iteration) ⟨results, []⟩ with
    ⟨outcome, after⟩
  rw [hrun] at hgood hgeneration
  rcases outcome with ((_ | _ | _) | input | _) | value
  · exact hgeneration.mono hsub
  · exact hgeneration.mono hsub
  · exact hgeneration.mono hsub
  · obtain ⟨next, hnext, hinput⟩ := hgood.continues rfl
    rw [continuation_input_eq _ _ _ _ rfl] at hinput
    have hrest := hengine.subtree { ctx with executionId := ctx.executionId + 1 } after.results
      (execCtx.enter nodeId iteration) hnext hreach
    show Once _ (spawnedIds (_ ++ _))
    rw [spawned_ids_append, hinput]
    refine (hgeneration.append hrest (disjoint_generations _ (Nat.lt_succ_self _))).mono ?_
    refine Set.union_subset hsub ?_
    rintro text ⟨later, hlater, htext⟩
    exact ⟨later, Nat.le_of_succ_le hlater, htext⟩
  · exact hgeneration.mono hsub
  · exact hgeneration.mono hsub

end Handlers

/-- In a tree no id is scheduled twice. -/
theorem engine_spawns_once {graph : FunctionGraph} (htree : IsTree graph) (fuel : Nat) :
    SpawnsOnce graph (engine fuel) := by
  induction fuel with
  | zero =>
      exact ⟨fun _ _ _ _ => (exit_silent _).mono (Set.empty_subset _),
        fun _ _ _ _ _ _ _ => Once.nil _⟩
  | succ fuel ih =>
      exact ⟨fun _ _ _ hreach => function_node_spawns htree ih hreach,
        fun _ _ _ _ _ hiteration hreach => run_subtree_once ih hreach (engine_sound fuel) hiteration⟩

/-! ## Whole runs -/

section Runs

variable {fuel : Nat} {ctx : OrchestrationContext}

/-- Admission and status writes schedule no children. -/
theorem load_silent {loads : List Event} (h : ∀ event ∈ loads, event.IsLoad ctx) :
    spawnedIds loads = [] := by
  refine List.filterMap_eq_nil_iff.2 fun event hevent => ?_
  rcases h event hevent with ⟨_, _, _, _, rfl⟩ | ⟨_, rfl⟩ <;> rfl

theorem wait_silent {waits : List Event} (h : ∀ event ∈ waits, event.IsWait ctx) :
    spawnedIds waits = [] :=
  load_silent fun event hevent => (h event hevent).1

theorem finalize_silent (instanceId status : String) (attempt retries : Nat) :
    spawnedIds (finalizeEvents ctx instanceId status attempt retries) = [] := by
  refine List.filterMap_eq_nil_iff.2 fun event hevent => ?_
  rcases finalize_events_cases hevent with ⟨_, rfl⟩ | ⟨_, rfl⟩ <;> rfl

/-- The root node of a graph after admission. -/
theorem root_node_once {graph : FunctionGraph} (htree : IsTree graph) {loads : List Event}
    {input : FunctionInput} (hloads : GraphLoad ctx input loads) {after : Machine}
    {outcome : Except Stop String}
    (hrun : (engine fuel).node ctx graph graph.rootNodeId (rootExecutionContext input graph)
      ⟨∅, loads ++ [instanceStatusEvent ctx input.instanceId "running" ctx.executionId]⟩ =
        (outcome, after)) :
    Once (ofGeneration ctx.instanceId ctx.executionId) (spawnedIds after.log) := by
  obtain ⟨tokens, htokens, honce⟩ := (engine_spawns_once htree fuel).node ctx
    (rootExecutionContext input graph) .root
    ⟨∅, loads ++ [instanceStatusEvent ctx input.instanceId "running" ctx.executionId]⟩
  rw [hrun] at htokens
  dsimp only at htokens
  rw [htokens, spawned_ids_append, load_silent hloads.is_load]
  exact honce.mono (owned_subset_generation ctx _)

/-- A generation schedules every id once. -/
theorem execute_once {inputJson : String}
    (htree : ∀ graph, Loads (engine fuel) ctx inputJson graph → IsTree graph) :
    Once (ofGeneration ctx.instanceId ctx.executionId)
      (spawnedIds (execute (engine fuel) ctx inputJson).1) := by
  cases hinput : FunctionInput.ofJson inputJson with
  | error e =>
      rw [execute_unread hinput]
      exact Once.nil _
  | ok input =>
      have hruns := @execute_runs (engine fuel) ctx input inputJson hinput
      rcases hrun : execute (engine fuel) ctx inputJson with ⟨log, ended⟩
      rw [hrun] at hruns
      cases hruns with
      | waiting hwaits =>
          show Once _ (spawnedIds _)
          rw [wait_silent hwaits]
          exact Once.nil _
      | refused hwaits =>
          show Once _ (spawnedIds (_ ++ _))
          rw [spawned_ids_append, wait_silent hwaits, finalize_silent]
          exact Once.nil _
      | unreadable hloads =>
          show Once _ (spawnedIds _)
          rw [load_silent hloads.is_load]
          exact Once.nil _
      | executed hloads hgraph hread hnode =>
          show Once _ (spawnedIds (_ ++ _))
          rw [spawned_ids_append, finalize_silent, List.append_nil]
          exact root_node_once (htree _ (.received hinput hgraph hread)) hloads hnode
      | stopped hloads hgraph hread hnode =>
          exact root_node_once (htree _ (.received hinput hgraph hread)) hloads hnode

/-- A generation hands a tree to the next one. -/
theorem hands_over_tree {inputJson next : String} {log : List Event}
    (htree : ∀ graph, Loads (engine fuel) ctx inputJson graph → IsTree graph)
    (hrun : execute (engine fuel) ctx inputJson = (log, .continuedAsNew next))
    {graph : FunctionGraph}
    (hlater : Loads (engine fuel) { ctx with executionId := ctx.executionId + 1 } next graph) :
    IsTree graph := by
  cases hinput : FunctionInput.ofJson inputJson with
  | error e =>
      rw [execute_unread hinput] at hrun
      cases hrun
  | ok input =>
      cases hands_over hinput hrun with
      | waiting _ hgraph => exact htree graph (.waited hinput hgraph hrun hlater)
      | looping hnext hgraph hread =>
          rw [loads_carried hnext rfl hlater]
          exact htree _ (.received hinput hgraph hread)

/-- Over any number of generations a run schedules every id once. -/
theorem run_execute_once (generations : Nat) {inputJson : String}
    (htree : ∀ graph, Loads (engine fuel) ctx inputJson graph → IsTree graph) :
    Once (sinceGeneration ctx.instanceId ctx.executionId)
      (spawnedIds (runExecute (engine fuel) generations ctx inputJson).1) := by
  induction generations generalizing ctx inputJson with
  | zero => exact Once.nil _
  | succ generations ih =>
      have hsub : ofGeneration ctx.instanceId ctx.executionId ⊆
          sinceGeneration ctx.instanceId ctx.executionId :=
        fun text htext => ⟨ctx.executionId, Nat.le_refl _, htext⟩
      rcases hrun : execute (engine fuel) ctx inputJson with ⟨log, ended⟩
      have honce := execute_once htree
      rw [hrun] at honce
      rw [runExecute, hrun]
      cases ended with
      | returned outcome => exact honce.mono hsub
      | unresolved => exact honce.mono hsub
      | continuedAsNew next =>
          have hrest := ih fun graph hlater => hands_over_tree htree hrun hlater
          show Once _ (spawnedIds (_ ++ _))
          rw [spawned_ids_append]
          refine (honce.append hrest (disjoint_generations _ (Nat.lt_succ_self _))).mono ?_
          refine Set.union_subset hsub ?_
          rintro text ⟨later, hlater, htext⟩
          exact ⟨later, Nat.le_of_succ_le hlater, htext⟩

/-- For an instance whose graph is a tree, the ids under which children are scheduled in a whole
run, by the root, by its descendants and by all their generations, are pairwise distinct and
different from the id of the root. -/
theorem child_ids_distinct (fuel generations : Nat) (ctx : OrchestrationContext)
    {inputJson : String}
    (htree : ∀ graph, Loads (engine fuel) ctx inputJson graph → IsTree graph) :
    (spawnedIds (runExecute (engine fuel) generations ctx inputJson).1).Nodup ∧
      ctx.instanceId ∉ spawnedIds (runExecute (engine fuel) generations ctx inputJson).1 := by
  have honce := run_execute_once generations htree
  refine ⟨honce.1, fun hmem => ?_⟩
  exact not_mem_below _ (since_subset_below _ _ (honce.2 _ hmem))

end Runs

/-- Only the join has references. -/
theorem join_child_ids {nodeId : String} {node : FunctionNode}
    (hnode : joinAssigningX.nodes[nodeId]? = some node) :
    (nodeId = "bbbbbbbb" ∧ childIds node = ["cccccccc", "dddddddd"]) ∨ childIds node = [] := by
  rcases join_nodes hnode with ⟨hroot, rfl⟩ | ⟨-, hsql⟩
  · exact Or.inl ⟨hroot, by decide⟩
  · exact Or.inr (by simp [childIds, hsql])

/-- The join is a tree. -/
theorem join_is_tree : IsTree joinAssigningX := by
  have hreferences : ∀ {parent child}, References joinAssigningX parent child →
      parent = "bbbbbbbb" ∧ child ∈ ["cccccccc", "dddddddd"] := by
    rintro parent child ⟨node, hnode, hchild⟩
    rcases join_child_ids hnode with ⟨hparent, hids⟩ | hids
    · rw [hids] at hchild
      exact ⟨hparent, hchild⟩
    · rw [hids] at hchild
      cases hchild
  refine ⟨⟨fun hfirst hsecond => ?_, fun parent hroot => ?_⟩, fun hnode => ?_, fun h => ?_⟩
  · rw [(hreferences hfirst).1, (hreferences hsecond).1]
  · exact absurd (hreferences hroot).2 (by decide)
  · rcases join_child_ids hnode with ⟨-, hids⟩ | hids <;> rw [hids] <;> decide
  · rcases List.mem_pair.1 (hreferences h).2 with rfl | rfl <;> decide

/-- The theorem at a join that an instance carries. -/
theorem join_branch_ids_distinct :
    (spawnedIds (runExecute (engine 3) 1 joinContext (FunctionInput.toJson
      ⟨"aaaaaaaa", none, ∅, 0, some joinAssigningX.toJson, none, 0, 0⟩)).1).Nodup := by
  have hinput := @function_input_of_json_to_json
    ⟨"aaaaaaaa", none, ∅, 0, some joinAssigningX.toJson, none, 0, 0⟩
    ⟨by show 0 < 2 ^ 64; decide, by show 0 < 2 ^ 32; decide, by show 0 < 2 ^ 32; decide⟩
  refine (child_ids_distinct 3 1 joinContext fun graph hloads => ?_).1
  rw [loads_carried hinput rfl hloads]
  exact join_is_tree

end PgDurable.Orchestration
