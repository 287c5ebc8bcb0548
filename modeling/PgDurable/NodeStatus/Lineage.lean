import Mathlib.Data.List.Basic
import Mathlib.Data.List.Induction
import PgDurable.Library.Text

/-!
# Instance lineages and execution stamps

An orchestration instance id is a root token followed by one `::{generation}::{node}` pair for
every sub-orchestration boundary crossed; an execution stamp appends `::{generation}` for the
orchestration that wrote it. `InstanceLineage.parse`, `InstanceLineage.parent` and
`parseExecutionStamp` read these texts as the source does.

`Scope` and `Stamp` are the texts the program composes, as data: tokens without a colon and
generations in the signed 64-bit range. `parse_instance_id`, `parent_instance_id` and
`parse_stamp_text` say that the readers recover exactly that data.
-/

namespace PgDurable.NodeStatus

open Text

/-! ## The readers of the source -/

/-- `str::split("::")`. -/
def splitTokens (text : String) : List String :=
  (splitDouble ':' text.toList).map String.ofList

/-- `str::rsplit_once("::")`. -/
def rsplitOnce (text : String) : Option (String × String) :=
  (rsplitDouble ':' text.toList).map fun cut => (String.ofList cut.1, String.ofList cut.2)

/-- `str::parse::<i64>`. -/
def parseGeneration (text : String) : Option Int := parseI64 text.toList

/-- Parsed orchestration instance lineage. -/
structure InstanceLineage where
  instanceId : String
  generations : List Int
  nodeIds : List String
  deriving DecidableEq

/-- The generation and node of every pair of tokens after the root. -/
def parsePairs : List String → Option (List (Int × String))
  | generation :: node :: rest => do
      let generation ← parseGeneration generation
      if node.isEmpty then none
      else
        let pairs ← parsePairs rest
        pure ((generation, node) :: pairs)
  | _ => some []

/-- Parse an instance id: a nonempty root and complete pairs with nonempty node ids. -/
def InstanceLineage.parse (instanceId : String) : Option InstanceLineage :=
  match splitTokens instanceId with
  | [] => none
  | root :: tokens =>
      if root.isEmpty || (tokens.length + 1) % 2 == 0 then none
      else do
        let pairs ← parsePairs tokens
        pure ⟨instanceId, pairs.map (·.1), pairs.map (·.2)⟩

/-- Whether the id was composed for a child. -/
def InstanceLineage.isComposed (lineage : InstanceLineage) : Bool := !lineage.nodeIds.isEmpty

/-- The parent instance id and the generation of it that spawned this scope. -/
def InstanceLineage.parent (lineage : InstanceLineage) : Option (String × Int) :=
  if !lineage.isComposed then none
  else do
    let (parentWithGeneration, _) ← rsplitOnce lineage.instanceId
    let (parentInstanceId, generation) ← rsplitOnce parentWithGeneration
    let generation ← parseGeneration generation
    pure (parentInstanceId, generation)

/-- Parse a stamp into the lineage of its orchestration and the trailing generation. -/
def parseExecutionStamp (executionId : String) : Option (InstanceLineage × Int) := do
  let (instanceId, generation) ← rsplitOnce executionId
  let lineage ← InstanceLineage.parse instanceId
  let generation ← parseGeneration generation
  pure (lineage, generation)

/-- The instance id of a child: `{parent}::{execution}::{node}`. -/
def composeSubtreeInstanceId (parentInstanceId parentExecutionId childRootNodeId : String) :
    String :=
  parentInstanceId ++ "::" ++ parentExecutionId ++ "::" ++ childRootNodeId

/-- The stamp of an orchestration generation: `{instance}::{execution}`. -/
def executionStamp (instanceId executionId : String) : String :=
  instanceId ++ "::" ++ executionId

/-- A cut returns shorter texts. -/
theorem rsplit_once_length {text front last : String} (h : rsplitOnce text = some (front, last)) :
    front.length < text.length := by
  simp only [rsplitOnce, Option.map_eq_some_iff, Prod.mk.injEq] at h
  obtain ⟨⟨chars, rest⟩, hcut, rfl, rfl⟩ := h
  have := rsplit_double_length hcut
  simp only [← String.length_toList, String.toList_ofList]
  omega

/-- The parent of a lineage has a shorter instance id. -/
theorem parent_length {lineage : InstanceLineage} {parentId : String} {generation : Int}
    (h : lineage.parent = some (parentId, generation)) :
    parentId.length < lineage.instanceId.length := by
  unfold InstanceLineage.parent at h
  split at h
  · cases h
  · simp only [Option.bind_eq_bind, Option.bind_eq_some_iff, pure, Option.some.injEq,
      Prod.mk.injEq] at h
    obtain ⟨⟨front, last⟩, hfront, ⟨parent, text⟩, hparent, _, _, rfl, rfl⟩ := h
    exact Nat.lt_trans (rsplit_once_length hparent) (rsplit_once_length hfront)

/-- A parsed lineage keeps the text it was parsed from. -/
theorem parse_keeps_text {instanceId : String} {lineage : InstanceLineage}
    (h : InstanceLineage.parse instanceId = some lineage) : lineage.instanceId = instanceId := by
  unfold InstanceLineage.parse at h
  split at h
  · cases h
  · split at h
    · cases h
    · simp only [Option.bind_eq_bind, Option.bind_eq_some_iff, pure, Option.some.injEq] at h
      obtain ⟨_, _, rfl⟩ := h
      rfl

/-- Parsed pairs have as many generations as nodes. -/
theorem parse_lengths {instanceId : String} {lineage : InstanceLineage}
    (h : InstanceLineage.parse instanceId = some lineage) :
    lineage.generations.length = lineage.nodeIds.length := by
  unfold InstanceLineage.parse at h
  split at h
  · cases h
  · split at h
    · cases h
    · simp only [Option.bind_eq_bind, Option.bind_eq_some_iff, pure, Option.some.injEq] at h
      obtain ⟨pairs, _, rfl⟩ := h
      simp

/-! ## Composed ids as data -/

/-- A token of the grammar: not empty and without a colon. -/
structure Token where
  text : String
  nonempty : text ≠ ""
  colonFree : ':' ∉ text.toList
  deriving DecidableEq

/-- A generation in the signed 64-bit range. -/
structure Generation where
  value : Int
  low : -(2 ^ 63) ≤ value
  high : value < 2 ^ 63
  deriving DecidableEq

/-- The canonical decimal text of a generation. -/
def Generation.text (generation : Generation) : String := toString generation.value

/-- An orchestration scope: the root token and the spawns that lead from it, outermost first. -/
structure Scope where
  root : Token
  spawns : List (Generation × Token)
  deriving DecidableEq

/-- The instance id of a scope, composed one spawn at a time. -/
def Scope.instanceId (scope : Scope) : String :=
  scope.spawns.foldl (fun id spawn => composeSubtreeInstanceId id spawn.1.text spawn.2.text)
    scope.root.text

/-- The scope of a child spawned by generation `generation` at node `node`. -/
def Scope.child (scope : Scope) (generation : Generation) (node : Token) : Scope :=
  ⟨scope.root, scope.spawns ++ [(generation, node)]⟩

/-- A stamp: the scope that writes and its current generation. -/
structure Stamp where
  scope : Scope
  generation : Generation
  deriving DecidableEq

/-- The text of a stamp. -/
def Stamp.text (stamp : Stamp) : String :=
  executionStamp stamp.scope.instanceId stamp.generation.text

/-- Composing the child's id is composing one more spawn. -/
theorem instance_id_child (scope : Scope) (generation : Generation) (node : Token) :
    (scope.child generation node).instanceId =
      composeSubtreeInstanceId scope.instanceId generation.text node.text := by
  simp [Scope.child, Scope.instanceId, List.foldl_append]

/-- The tokens of the spawns. -/
def spawnTokens (spawns : List (Generation × Token)) : List String :=
  spawns.flatMap fun spawn => [spawn.1.text, spawn.2.text]

/-- The characters of an id are the root followed by each spawn's separated tokens. -/
theorem instance_id_chars (scope : Scope) :
    scope.instanceId.toList = scope.root.text.toList ++
      scope.spawns.flatMap fun spawn =>
        "::".toList ++ spawn.1.text.toList ++ "::".toList ++ spawn.2.text.toList := by
  obtain ⟨root, spawns⟩ := scope
  induction spawns using List.reverseRecOn with
  | nil => simp [Scope.instanceId]
  | append_singleton spawns spawn ih =>
      have hchild := instance_id_child ⟨root, spawns⟩ spawn.1 spawn.2
      simp only [Scope.child] at hchild
      rw [hchild]
      simp [composeSubtreeInstanceId, ih]

/-- The generation's text has no colon. -/
theorem generation_colon_free (generation : Generation) : ':' ∉ generation.text.toList :=
  colon_not_mem_to_string _

/-- The generation's text parses back. -/
theorem parse_generation_text (generation : Generation) :
    parseGeneration generation.text = some generation.value :=
  parse_i64_to_string generation.low generation.high

/-- Splitting an id yields the root and the tokens of its spawns. -/
theorem split_tokens_instance_id (scope : Scope) :
    splitTokens scope.instanceId = scope.root.text :: spawnTokens scope.spawns := by
  have hsplit : ∀ (spawns : List (Generation × Token)) (field : List Char), ':' ∉ field →
      (splitDouble ':' (field ++ spawns.flatMap fun spawn =>
        "::".toList ++ spawn.1.text.toList ++ "::".toList ++ spawn.2.text.toList)).map
          String.ofList = String.ofList field :: spawnTokens spawns := by
    intro spawns
    induction spawns with
    | nil =>
        intro field hfield
        simp [spawnTokens, split_double_single hfield]
    | cons spawn spawns ih =>
        intro field hfield
        have hnode := ih spawn.2.text.toList spawn.2.colonFree
        simp only [spawnTokens] at hnode ⊢
        have hshape : (field ++ (spawn :: spawns).flatMap fun spawn =>
            "::".toList ++ spawn.1.text.toList ++ "::".toList ++ spawn.2.text.toList) =
            field ++ ':' :: ':' :: (spawn.1.text.toList ++ ':' :: ':' ::
              (spawn.2.text.toList ++ spawns.flatMap fun spawn =>
                "::".toList ++ spawn.1.text.toList ++ "::".toList ++ spawn.2.text.toList)) := by
          simp
        rw [hshape, split_double_append hfield,
          split_double_append (generation_colon_free spawn.1), List.map_cons, List.map_cons, hnode]
        simp
  rw [splitTokens, instance_id_chars, hsplit _ _ scope.root.colonFree, String.ofList_toList]

/-- The tokens of the spawns parse back to their generations and nodes. -/
theorem parse_pairs_spawn_tokens (spawns : List (Generation × Token)) :
    parsePairs (spawnTokens spawns) =
      some (spawns.map fun spawn => (spawn.1.value, spawn.2.text)) := by
  induction spawns with
  | nil => rfl
  | cons spawn spawns ih =>
      have hnode : spawn.2.text.isEmpty = false := by
        simpa [String.isEmpty_iff] using spawn.2.nonempty
      simp only [spawnTokens, List.flatMap_cons, List.cons_append, List.nil_append] at ih ⊢
      simp [parsePairs, parse_generation_text, hnode, ih]

/-- A composed instance id parses to exactly its generations and nodes. -/
theorem parse_instance_id (scope : Scope) :
    InstanceLineage.parse scope.instanceId =
      some ⟨scope.instanceId, scope.spawns.map (·.1.value), scope.spawns.map (·.2.text)⟩ := by
  have hroot : scope.root.text.isEmpty = false := by
    simpa [String.isEmpty_iff] using scope.root.nonempty
  have hlength : (spawnTokens scope.spawns).length = 2 * scope.spawns.length := by
    induction scope.spawns with
    | nil => rfl
    | cons spawn spawns ih =>
        simp only [spawnTokens, List.flatMap_cons, List.length_append, List.length_cons] at ih ⊢
        simp only [List.length_nil] at ih ⊢
        omega
  have hodd : ((spawnTokens scope.spawns).length + 1) % 2 == 0 ↔ False := by
    rw [hlength]
    simp
  rw [InstanceLineage.parse, split_tokens_instance_id]
  simp only [hroot, Bool.false_or, hodd, if_false, parse_pairs_spawn_tokens,
    Option.bind_eq_bind, Option.bind_some, List.map_map]
  rfl

/-- Cutting a text before a final colon-free token. -/
theorem rsplit_once_append (front : String) {last : String} (h : ':' ∉ last.toList) :
    rsplitOnce (front ++ "::" ++ last) = some (front, last) := by
  have hcut := rsplit_double_append front.toList h
  simp only [rsplitOnce, String.toList_append]
  rw [show front.toList ++ "::".toList ++ last.toList =
    front.toList ++ ':' :: ':' :: last.toList by simp, hcut]
  simp

/-- The parent of a composed scope is the scope without its last spawn. -/
theorem parent_instance_id (scope : Scope) (generation : Generation) (node : Token) :
    (InstanceLineage.parse (scope.child generation node).instanceId).bind
      InstanceLineage.parent = some (scope.instanceId, generation.value) := by
  have hcut := rsplit_once_append
    (scope.instanceId ++ "::" ++ generation.text) node.colonFree
  have hcut' := rsplit_once_append scope.instanceId (generation_colon_free generation)
  rw [parse_instance_id, Option.bind_some, InstanceLineage.parent, instance_id_child]
  simp only [Scope.child, InstanceLineage.isComposed, List.map_append, List.map_cons,
    List.map_nil, composeSubtreeInstanceId, hcut, hcut', parse_generation_text,
    Option.bind_eq_bind, Option.bind_some]
  simp

/-- A root scope has no parent. -/
theorem parent_root (root : Token) :
    (InstanceLineage.parse (Scope.instanceId ⟨root, []⟩)).bind InstanceLineage.parent = none := by
  rw [parse_instance_id]
  rfl

/-- A stamp parses to its scope's lineage and its generation. -/
theorem parse_stamp_text (stamp : Stamp) :
    parseExecutionStamp stamp.text =
      some (⟨stamp.scope.instanceId, stamp.scope.spawns.map (·.1.value),
        stamp.scope.spawns.map (·.2.text)⟩, stamp.generation.value) := by
  have hcut := rsplit_once_append stamp.scope.instanceId (generation_colon_free stamp.generation)
  rw [parseExecutionStamp, Stamp.text, executionStamp, hcut]
  simp [parse_instance_id, parse_generation_text]

/-- Two scopes with the same id are the same scope. -/
theorem instance_id_injective {a b : Scope} (h : a.instanceId = b.instanceId) : a = b := by
  have htokens := split_tokens_instance_id a
  rw [h, split_tokens_instance_id b] at htokens
  obtain ⟨hroot, -⟩ := List.cons.inj htokens
  have hpairs := parse_pairs_spawn_tokens a.spawns
  rw [← (List.cons.inj htokens).2, parse_pairs_spawn_tokens b.spawns] at hpairs
  have hspawns : a.spawns = b.spawns := by
    have hinj : Function.Injective fun spawn : Generation × Token =>
        (spawn.1.value, spawn.2.text) := by
      rintro ⟨⟨g, _, _⟩, ⟨n, _, _⟩⟩ ⟨⟨g', _, _⟩, ⟨n', _, _⟩⟩ heq
      obtain ⟨rfl, rfl⟩ := Prod.mk.inj heq
      rfl
    exact (List.map_injective_iff.2 hinj (Option.some.inj hpairs)).symm
  obtain ⟨⟨root, _, _⟩, spawns⟩ := a
  obtain ⟨⟨root', _, _⟩, spawns'⟩ := b
  simp_all

end PgDurable.NodeStatus
