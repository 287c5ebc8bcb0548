import Std.Data.ExtTreeMap.Lemmas
import PgDurable.NodeStatus.UpdateNodeStatus

/-!
# Supersession on the read side

`isSuperseded` asks whether a stamped scope belongs to a generation that a newer one replaced: it
compares the generation with the maximum recorded for the scope and then climbs the spawn lineage
leaf first. The fence of the write side walks the same lineages root first on token vectors.

`fence_iff_is_superseded` says that the two tests agree on every pair of stamps with one root.
Both sides reduce to the same fact about the data: at some depth where the spawns above coincide,
the incoming generation is the smaller one.
-/

namespace PgDurable.NodeStatus

/-- The highest generation stamped for each orchestration instance id. -/
abbrev ScopeMax := Std.ExtTreeMap String Int

/-- A newer generation is recorded for the instance id itself. -/
def newerInScope (instanceId : String) (generation : Int) (scopeMax : ScopeMax) : Bool :=
  match scopeMax[instanceId]? with
  | some newest => generation < newest
  | none => false

/-- `isSuperseded` on a lineage of at most `depth` spawns. -/
def isSupersededWithin : Nat → String → Int → ScopeMax → Bool
  | 0, instanceId, generation, scopeMax => newerInScope instanceId generation scopeMax
  | depth + 1, instanceId, generation, scopeMax =>
      newerInScope instanceId generation scopeMax ||
        match (InstanceLineage.parse instanceId).bind InstanceLineage.parent with
        | some (parentInstance, parentGen) =>
            isSupersededWithin depth parentInstance parentGen scopeMax
        | none => false

/-- Whether a node stamped with this instance id and generation belongs to a superseded
generation. Every parent has a shorter id, so the length of the id bounds the climb. -/
def isSuperseded (instanceId : String) (generation : Int) (scopeMax : ScopeMax) : Bool :=
  isSupersededWithin instanceId.length instanceId generation scopeMax

/-- The parent read off an id is shorter than the id. -/
theorem parse_parent_length {instanceId parentInstance : String} {generation : Int}
    (h : (InstanceLineage.parse instanceId).bind InstanceLineage.parent =
      some (parentInstance, generation)) : parentInstance.length < instanceId.length := by
  rw [Option.bind_eq_some_iff] at h
  obtain ⟨lineage, hparse, hparent⟩ := h
  have hlength := parent_length hparent
  rwa [parse_keeps_text hparse] at hlength

/-- A deeper bound than the length of the id changes nothing. -/
theorem is_superseded_within_length {depth : Nat} {instanceId : String} (generation : Int)
    (scopeMax : ScopeMax) (hdepth : instanceId.length ≤ depth) :
    isSupersededWithin depth instanceId generation scopeMax =
      isSuperseded instanceId generation scopeMax := by
  unfold isSuperseded
  generalize hbound : instanceId.length = bound at hdepth
  have hle : instanceId.length ≤ bound := le_of_eq hbound
  clear hbound
  induction depth generalizing bound instanceId generation with
  | zero =>
      obtain rfl : bound = 0 := by omega
      rfl
  | succ depth ih =>
      cases hparent : (InstanceLineage.parse instanceId).bind InstanceLineage.parent with
      | none => cases bound <;> simp [isSupersededWithin, hparent]
      | some parent =>
          obtain ⟨parentInstance, parentGen⟩ := parent
          have hshorter := parse_parent_length hparent
          obtain ⟨bound, rfl⟩ : ∃ rest, bound = rest + 1 := ⟨bound - 1, by omega⟩
          simp only [isSupersededWithin, hparent]
          rw [ih parentGen bound (by omega) (by omega)]

/-- The climb as the source writes it: the scope itself, then the parent's generation. -/
theorem is_superseded_eq (instanceId : String) (generation : Int) (scopeMax : ScopeMax) :
    isSuperseded instanceId generation scopeMax =
      (newerInScope instanceId generation scopeMax ||
        match (InstanceLineage.parse instanceId).bind InstanceLineage.parent with
        | some (parentInstance, parentGen) => isSuperseded parentInstance parentGen scopeMax
        | none => false) := by
  rw [← is_superseded_within_length generation scopeMax (Nat.le_succ _), isSupersededWithin]
  cases hparent : (InstanceLineage.parse instanceId).bind InstanceLineage.parent with
  | none => rfl
  | some parent =>
      obtain ⟨parentInstance, parentGen⟩ := parent
      simp only
      rw [is_superseded_within_length parentGen scopeMax (le_of_lt (parse_parent_length hparent))]

/-! ## Ancestor scopes of a stamp -/

/-- The ancestor scope after the first `depth` spawns. -/
def Scope.ancestor (scope : Scope) (depth : Nat) : Scope := ⟨scope.root, scope.spawns.take depth⟩

/-- The generation a stamp carries for its ancestor scope at `depth`: the one that spawned the
next scope, or the stamp's own for the innermost. -/
def Stamp.generationAt (stamp : Stamp) (depth : Nat) : Generation :=
  ((stamp.scope.spawns[depth]?).map (·.1)).getD stamp.generation

/-- The map that sends each ancestor-or-self scope of a stamp to the generation the stamp carries
for it. -/
def Stamp.scopeGenerations (stamp : Stamp) : ScopeMax :=
  Std.ExtTreeMap.ofList ((List.range (stamp.scope.spawns.length + 1)).map fun depth =>
    ((stamp.scope.ancestor depth).instanceId, (stamp.generationAt depth).value))

/-- Some common depth has the same spawns above it and a smaller generation in `a`. -/
def OlderAtCommonDepth (a b : Stamp) : Prop :=
  ∃ depth, depth ≤ a.scope.spawns.length ∧ depth ≤ b.scope.spawns.length ∧
    a.scope.spawns.take depth = b.scope.spawns.take depth ∧
    (a.generationAt depth).value < (b.generationAt depth).value

/-- At its own depth the ancestor is the scope and the generation is the stamp's. -/
theorem ancestor_self (stamp : Stamp) :
    stamp.scope.ancestor stamp.scope.spawns.length = stamp.scope ∧
      stamp.generationAt stamp.scope.spawns.length = stamp.generation := by
  simp [Scope.ancestor, Stamp.generationAt]

/-- Above a child, the ancestors and generations are those of the spawning stamp. -/
theorem ancestor_child {scope : Scope} {depth : Nat} (spawnGen generation : Generation)
    (node : Token) (hdepth : depth ≤ scope.spawns.length) :
    (scope.child spawnGen node).ancestor depth = scope.ancestor depth ∧
      Stamp.generationAt ⟨scope.child spawnGen node, generation⟩ depth =
        Stamp.generationAt ⟨scope, spawnGen⟩ depth := by
  refine ⟨by simp [Scope.ancestor, Scope.child, List.take_append_of_le_length hdepth], ?_⟩
  rcases Nat.lt_or_eq_of_le hdepth with hlt | rfl
  · simp [Stamp.generationAt, Scope.child, List.getElem?_append_left hlt,
      List.getElem?_eq_getElem hlt]
  · simp [Stamp.generationAt, Scope.child]

/-- The climb finds a newer scope exactly when some ancestor-or-self scope has one. -/
theorem is_superseded_iff_depth (stamp : Stamp) (scopeMax : ScopeMax) :
    isSuperseded stamp.scope.instanceId stamp.generation.value scopeMax = true ↔
      ∃ depth ≤ stamp.scope.spawns.length, newerInScope (stamp.scope.ancestor depth).instanceId
        (stamp.generationAt depth).value scopeMax = true := by
  obtain ⟨⟨root, spawns⟩, generation⟩ := stamp
  induction spawns using List.reverseRecOn generalizing generation with
  | nil =>
      rw [is_superseded_eq]
      simp [parent_root, Scope.ancestor, Stamp.generationAt]
  | append_singleton spawns spawn ih =>
      obtain ⟨spawnGen, node⟩ := spawn
      have hchild : (⟨root, spawns ++ [(spawnGen, node)]⟩ : Scope) =
          Scope.child ⟨root, spawns⟩ spawnGen node := rfl
      have hself := ancestor_self ⟨Scope.child ⟨root, spawns⟩ spawnGen node, generation⟩
      have hlength : (Scope.child ⟨root, spawns⟩ spawnGen node).spawns.length =
          spawns.length + 1 := by simp [Scope.child]
      rw [hchild, is_superseded_eq, parent_instance_id, Bool.or_eq_true]
      simp only [hlength] at hself ⊢
      rw [ih spawnGen]
      constructor
      · rintro (hnewer | ⟨depth, hdepth, hnewer⟩)
        · refine ⟨spawns.length + 1, le_refl _, ?_⟩
          rwa [hself.1, hself.2]
        · have habove := ancestor_child spawnGen generation node hdepth
          exact ⟨depth, Nat.le_succ_of_le hdepth, by rwa [habove.1, habove.2]⟩
      · rintro ⟨depth, hdepth, hnewer⟩
        rcases Nat.lt_or_ge spawns.length depth with hlt | hle
        · obtain rfl : depth = spawns.length + 1 := by omega
          rw [hself.1, hself.2] at hnewer
          exact Or.inl hnewer
        · have habove := @ancestor_child ⟨root, spawns⟩ _ spawnGen generation node hle
          rw [habove.1, habove.2] at hnewer
          exact Or.inr ⟨depth, hle, hnewer⟩

/-- Ancestors at different depths are different scopes. -/
theorem ancestor_injective {scope : Scope} {depth depth' : Nat}
    (hdepth : depth ≤ scope.spawns.length) (hdepth' : depth' ≤ scope.spawns.length)
    (h : scope.ancestor depth = scope.ancestor depth') : depth = depth' := by
  have hlength := congrArg (fun scope => scope.spawns.length) h
  simp only [Scope.ancestor, List.length_take] at hlength
  omega

/-- The map of a stamp holds the generation of every ancestor-or-self scope. -/
theorem scope_generations_ancestor {stamp : Stamp} {depth : Nat}
    (hdepth : depth ≤ stamp.scope.spawns.length) :
    stamp.scopeGenerations[(stamp.scope.ancestor depth).instanceId]? =
      some (stamp.generationAt depth).value := by
  refine Std.ExtTreeMap.getElem?_ofList_of_mem Std.ReflCmp.compare_self ?_
    (List.mem_map.2 ⟨depth, List.mem_range.2 (by omega), rfl⟩)
  rw [List.pairwise_map]
  refine List.pairwise_lt_range.imp_of_mem fun {i j} hi hj hlt heq => ?_
  rw [List.mem_range] at hi hj
  have hsame := instance_id_injective (Std.LawfulEqCmp.eq_of_compare heq)
  exact absurd (ancestor_injective (by omega) (by omega) hsame) (Nat.ne_of_lt hlt)

/-- The map of a stamp holds nothing but its ancestor-or-self scopes. -/
theorem scope_generations_iff (stamp : Stamp) (scope : Scope) (generation : Int) :
    stamp.scopeGenerations[scope.instanceId]? = some generation ↔
      ∃ depth ≤ stamp.scope.spawns.length, scope = stamp.scope.ancestor depth ∧
        generation = (stamp.generationAt depth).value := by
  constructor
  · intro hget
    have hmem : scope.instanceId ∈ ((List.range (stamp.scope.spawns.length + 1)).map fun depth =>
        ((stamp.scope.ancestor depth).instanceId, (stamp.generationAt depth).value)).map (·.1) := by
      by_contra hmem
      rw [Stamp.scopeGenerations,
        Std.ExtTreeMap.getElem?_ofList_of_contains_eq_false (by simpa using hmem)] at hget
      cases hget
    simp only [List.map_map, List.mem_map, List.mem_range, Function.comp_apply] at hmem
    obtain ⟨depth, hdepth, hid⟩ := hmem
    have hle : depth ≤ stamp.scope.spawns.length := by omega
    have hsame := instance_id_injective hid
    rw [← hsame, scope_generations_ancestor hle, Option.some.injEq] at hget
    exact ⟨depth, hle, hsame.symm, hget.symm⟩
  · rintro ⟨depth, hdepth, rfl, rfl⟩
    exact scope_generations_ancestor hdepth

/-! ## The two tests agree -/

/-- With one root, the climb through the map of `b` is a comparison at a common depth. -/
theorem is_superseded_scope_generations {a b : Stamp} (hroot : a.scope.root = b.scope.root) :
    isSuperseded a.scope.instanceId a.generation.value b.scopeGenerations = true ↔
      OlderAtCommonDepth a b := by
  rw [is_superseded_iff_depth]
  constructor
  · rintro ⟨depth, hdepth, hnewer⟩
    unfold newerInScope at hnewer
    split at hnewer
    · rename_i newest hget
      rw [scope_generations_iff] at hget
      obtain ⟨depth', hdepth', hsame, rfl⟩ := hget
      simp only [Scope.ancestor, Scope.mk.injEq] at hsame
      have hlength := congrArg List.length hsame.2
      simp only [List.length_take] at hlength
      obtain rfl : depth = depth' := by omega
      exact ⟨depth, hdepth, hdepth', hsame.2, of_decide_eq_true hnewer⟩
    · cases hnewer
  · rintro ⟨depth, hdepth, hdepth', hsame, holder⟩
    have hancestor : a.scope.ancestor depth = b.scope.ancestor depth := by
      simp [Scope.ancestor, hroot, hsame]
    refine ⟨depth, hdepth, ?_⟩
    simp [newerInScope, hancestor, scope_generations_ancestor hdepth', holder]

/-- When one stamp is at the root scope, only the roots' generations are compared. -/
theorem older_at_common_depth_root {a b : Stamp} (h : a.scope.spawns = [] ∨ b.scope.spawns = []) :
    OlderAtCommonDepth a b ↔ (a.generationAt 0).value < (b.generationAt 0).value := by
  constructor
  · rintro ⟨depth, hdepth, hdepth', -, holder⟩
    have hlength : a.scope.spawns.length = 0 ∨ b.scope.spawns.length = 0 := by
      simpa [List.length_eq_zero_iff] using h
    obtain rfl : depth = 0 := by omega
    exact holder
  · intro holder
    exact ⟨0, by simp, by simp, rfl, holder⟩

/-- Below a first spawn, the comparison is decided by the spawning generations or continues in
the common child scope. -/
theorem older_at_common_depth_cons (rootA rootB : Token) (spawnA spawnB : Generation × Token)
    (spawnsA spawnsB : List (Generation × Token)) (genA genB : Generation) :
    OlderAtCommonDepth ⟨⟨rootA, spawnA :: spawnsA⟩, genA⟩ ⟨⟨rootB, spawnB :: spawnsB⟩, genB⟩ ↔
      spawnA.1.value < spawnB.1.value ∨
        (spawnA = spawnB ∧
          OlderAtCommonDepth ⟨⟨rootA, spawnsA⟩, genA⟩ ⟨⟨rootB, spawnsB⟩, genB⟩) := by
  constructor
  · rintro ⟨depth, hdepth, hdepth', hsame, holder⟩
    cases depth with
    | zero => exact Or.inl (by simpa [Stamp.generationAt] using holder)
    | succ depth =>
        simp only [List.take_succ_cons, List.cons.injEq] at hsame
        simp only [List.length_cons, Nat.add_le_add_iff_right] at hdepth hdepth'
        exact Or.inr ⟨hsame.1, depth, hdepth, hdepth', hsame.2,
          by simpa [Stamp.generationAt] using holder⟩
  · rintro (holder | ⟨rfl, depth, hdepth, hdepth', hsame, holder⟩)
    · exact ⟨0, by simp, by simp, rfl, by simpa [Stamp.generationAt] using holder⟩
    · refine ⟨depth + 1, by simpa using hdepth, by simpa using hdepth', by simpa using hsame, ?_⟩
      simpa [Stamp.generationAt] using holder

/-- The fence's walk is a comparison at a common depth too. -/
theorem older_at_common_depth_iff (a b : Stamp) :
    olderAtFirstDifference (a.scope.spawns.map (·.1.value) ++ [a.generation.value])
      (a.scope.spawns.map (·.2.text)) (b.scope.spawns.map (·.1.value) ++ [b.generation.value])
      (b.scope.spawns.map (·.2.text)) = true ↔ OlderAtCommonDepth a b := by
  obtain ⟨⟨rootA, spawnsA⟩, genA⟩ := a
  obtain ⟨⟨rootB, spawnsB⟩, genB⟩ := b
  induction spawnsA generalizing spawnsB with
  | nil =>
      rw [older_at_common_depth_root (Or.inl rfl)]
      cases spawnsB with
      | nil => simp [olderAtFirstDifference, Stamp.generationAt]
      | cons spawnB spawnsB => simp [olderAtFirstDifference, Stamp.generationAt]
  | cons spawnA spawnsA ih =>
      cases spawnsB with
      | nil =>
          rw [older_at_common_depth_root (Or.inr rfl)]
          simp [olderAtFirstDifference, Stamp.generationAt]
      | cons spawnB spawnsB =>
          rw [older_at_common_depth_cons, ← ih]
          obtain ⟨⟨g, hglow, hghigh⟩, ⟨n, hne, hcolon⟩⟩ := spawnA
          obtain ⟨⟨g', hglow', hghigh'⟩, ⟨n', hne', hcolon'⟩⟩ := spawnB
          simp only [List.map_cons, List.cons_append, olderAtFirstDifference, Prod.mk.injEq,
            Generation.mk.injEq, Token.mk.injEq]
          rcases lt_trichotomy g g' with hlt | rfl | hgt
          · simp [hlt]
          · by_cases hnode : n = n'
            · simp [hnode]
            · simp [hnode]
          · simp [hgt, not_lt_of_gt hgt, ne_of_gt hgt]

/-- The fence of the write side and the supersession test of the read side agree on every pair of
stamps with one root. -/
theorem fence_iff_is_superseded {a b : Stamp} (hroot : a.scope.root = b.scope.root) :
    incomingStampIsSuperseded a.text (some b.text) = true ↔
      isSuperseded a.scope.instanceId a.generation.value b.scopeGenerations = true := by
  rw [is_superseded_scope_generations hroot, ← older_at_common_depth_iff]
  simp [incomingStampIsSuperseded, stampLineage, parse_stamp_text]

/-- The theorem at a branch of generation 1 of the root after generation 2 has stamped: both
tests see the advance of the root. -/
theorem advanced_root_supersedes_branch :
    incomingStampIsSuperseded "aaaaaaaa::1::bbbbbbbb::7" (some "aaaaaaaa::2") = true ∧
      isSuperseded "aaaaaaaa::1::bbbbbbbb" 7
        (Stamp.scopeGenerations ⟨⟨⟨"aaaaaaaa", by decide, by decide⟩, []⟩,
          ⟨2, by decide, by decide⟩⟩) = true := by
  have hagree := fence_iff_is_superseded
    (a := ⟨⟨⟨"aaaaaaaa", by decide, by decide⟩,
      [(⟨1, by decide, by decide⟩, ⟨"bbbbbbbb", by decide, by decide⟩)]⟩,
      ⟨7, by decide, by decide⟩⟩)
    (b := ⟨⟨⟨"aaaaaaaa", by decide, by decide⟩, []⟩, ⟨2, by decide, by decide⟩⟩) rfl
  have hfence : incomingStampIsSuperseded "aaaaaaaa::1::bbbbbbbb::7" (some "aaaaaaaa::2") = true := by
    decide +kernel
  exact ⟨hfence, hagree.1 hfence⟩

end PgDurable.NodeStatus
