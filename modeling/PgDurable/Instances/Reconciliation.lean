import Mathlib.Data.Finset.Basic
import Mathlib.Data.List.Infix
import PgDurable.Instances.Origin

/-!
# Reconciliation of engine records

The worker deletes engine records whose instance row is gone. Sub-orchestrations have no instance
row of their own, so the selections must pass over them: by the markers of earlier binaries, by
the lineage of composed ids, and for namespaced ids by the origin.

`reconciliation_spares_children` says that no selection takes a composed id whose generations the
lineage can read, and what the selected ids are.
-/

namespace PgDurable.Instances

open NodeStatus

/-! ## The selections -/

/-- `str::contains`. -/
def containsText (text part : String) : Bool := decide (part.toList <:+: text.toList)

/-- The id belongs to a sub-orchestration: named by the engine of earlier binaries, or composed. -/
def isSubOrchestration (id : String) : Bool :=
  "sub::".toList.isPrefixOf id.toList || containsText id "::sub::" ||
    (InstanceLineage.parse id).any InstanceLineage.isComposed

/-- The failed ids of the worker's own database that have no instance row. -/
def selectOrphans (parseStr : String → Option Uuid) (failedIds : List String)
    (present : Finset String) : List String :=
  (failedIds.filter fun id => Origin.fromEngineId parseStr id matches .ok none).filter fun id =>
    !isSubOrchestration id && !decide (id ∈ present)

/-- The local id of a root of the origin. -/
def originLocalId (parseStr : String → Option Uuid) (origin : Origin) (engineId : String) :
    Option String :=
  if containsText engineId "::" ||
      !decide ((Origin.fromEngineId parseStr engineId).toOption.join = some origin) then none
  else (engineId.toList.dropPrefix? (origin.engineId "").toList).map String.ofList

/-- The failed ids of an origin that have no instance row there. -/
def selectOriginOrphans (parseStr : String → Option Uuid) (origin : Origin)
    (failedIds : List String) (presentLocalIds : Finset String) : List String :=
  failedIds.filter fun engineId =>
    (originLocalId parseStr origin engineId).any fun localId => !decide (localId ∈ presentLocalIds)

/-- What the engine says to the deletion of a record. -/
inductive DeleteOutcome where
  | deleted
  | instanceNotFound
  | instanceStillRunning
  | failed
  deriving DecidableEq

/-- Ask the engine to delete root records: the ids it was asked about, and those of them whose
state is gone. -/
def retireEngineRecords (deleteInstance : String → DeleteOutcome) (ids : List String) :
    List String × List String :=
  let asked := ids.filter fun id => !isSubOrchestration id
  (asked, asked.filter fun id =>
    match deleteInstance id with
    | .deleted | .instanceNotFound => true
    | .instanceStillRunning | .failed => false)

/-! ## What they select -/

/-- A composed id is recognised as a sub-orchestration. -/
theorem composed_is_sub_orchestration {scope : Scope} (h : scope.spawns ≠ []) :
    isSubOrchestration scope.instanceId = true := by
  have hcomposed : (InstanceLineage.parse scope.instanceId).any InstanceLineage.isComposed := by
    rw [parse_instance_id]
    cases hspawns : scope.spawns with
    | nil => exact absurd hspawns h
    | cons spawn spawns => rfl
  simp [isSubOrchestration, hcomposed]

/-- A composed id contains a separator. -/
theorem composed_contains_separator {scope : Scope} (h : scope.spawns ≠ []) :
    containsText scope.instanceId "::" = true := by
  cases hspawns : scope.spawns with
  | nil => exact absurd hspawns h
  | cons spawn spawns =>
      rw [containsText, decide_eq_true_eq, instance_id_chars, hspawns, List.flatMap_cons]
      exact ⟨scope.root.text.toList, spawn.1.text.toList ++ "::".toList ++ spawn.2.text.toList ++
        spawns.flatMap fun spawn =>
          "::".toList ++ spawn.1.text.toList ++ "::".toList ++ spawn.2.text.toList, by simp⟩

/-- What `selectOrphans` selects. -/
theorem mem_select_orphans {parseStr : String → Option Uuid} {failedIds : List String}
    {present : Finset String} {id : String} :
    id ∈ selectOrphans parseStr failedIds present ↔
      id ∈ failedIds ∧ Origin.fromEngineId parseStr id = .ok none ∧
        isSubOrchestration id = false ∧ id ∉ present := by
  have horigin : (Origin.fromEngineId parseStr id matches .ok none) = true ↔
      Origin.fromEngineId parseStr id = .ok none := by
    rcases Origin.fromEngineId parseStr id with _ | _ | _ <;> simp
  simp only [selectOrphans, List.mem_filter, horigin, Bool.and_eq_true, Bool.not_eq_true',
    decide_eq_false_iff_not, and_assoc]

/-- What `selectOriginOrphans` selects. -/
theorem mem_select_origin_orphans {parseStr : String → Option Uuid} {origin : Origin}
    {failedIds : List String} {present : Finset String} {id : String} :
    id ∈ selectOriginOrphans parseStr origin failedIds present ↔
      id ∈ failedIds ∧ containsText id "::" = false ∧
        Origin.fromEngineId parseStr id = .ok (some origin) ∧
        ∃ localId, id = origin.engineId localId ∧ localId ∉ present := by
  have horigin : (Origin.fromEngineId parseStr id).toOption.join = some origin ↔
      Origin.fromEngineId parseStr id = .ok (some origin) := by
    rcases Origin.fromEngineId parseStr id with _ | _ | _ <;> simp [Except.toOption]
  have hlocal : ∀ localId, id.toList.dropPrefix? (origin.engineId "").toList =
      some localId ↔ id = origin.engineId (String.ofList localId) := by
    intro localId
    rw [List.dropPrefix?_eq_some_iff]
    constructor
    · rintro ⟨start, hid, hstart⟩
      rw [beq_iff_eq] at hstart
      apply String.toList_inj.1
      rw [hid, hstart]
      simp [Origin.engineId]
    · intro hid
      refine ⟨(origin.engineId "").toList, ?_, beq_self_eq_true _⟩
      rw [hid]
      simp [Origin.engineId]
  rw [selectOriginOrphans, List.mem_filter, originLocalId]
  refine and_congr_right fun _ => ?_
  cases hcontains : containsText id "::" with
  | true => simp
  | false =>
      by_cases hfrom : Origin.fromEngineId parseStr id = .ok (some origin)
      · have hjoin := horigin.2 hfrom
        simp only [hjoin, decide_true, Bool.not_true, Bool.or_self, Bool.false_eq_true, if_false,
          true_and]
        rw [and_iff_right hfrom]
        rw [Option.any_map]
        constructor
        · intro hany
          obtain ⟨localId, hdrop, habsent⟩ := (Option.any_eq_true _ _).1 hany
          exact ⟨_, (hlocal localId).1 hdrop, by simpa using habsent⟩
        · rintro ⟨localId, hid, habsent⟩
          refine (Option.any_eq_true _ _).2 ⟨localId.toList, (hlocal _).2 (by simpa using hid), ?_⟩
          simpa using habsent
      · have hne : ¬ (Origin.fromEngineId parseStr id).toOption.join = some origin :=
          fun h => hfrom (horigin.1 h)
        simp [hne, hfrom]

/-- Reconciliation passes over composed ids, and each selection takes only roots of its own that
have no instance row. -/
structure SparesChildren (parseStr : String → Option Uuid) : Prop where
  children : ∀ {root : RootId} {spawns : List (Generation × Token)}, spawns ≠ [] →
    ∀ ids present origin deleteInstance,
      Scope.instanceId ⟨root.token, spawns⟩ ∉ selectOrphans parseStr ids present ∧
      Scope.instanceId ⟨root.token, spawns⟩ ∉ selectOriginOrphans parseStr origin ids present ∧
      Scope.instanceId ⟨root.token, spawns⟩ ∉ (retireEngineRecords deleteInstance ids).1
  retired : ∀ ids deleteInstance id, id ∈ (retireEngineRecords deleteInstance ids).2 →
    id ∈ (retireEngineRecords deleteInstance ids).1
  orphans : ∀ {ids present id}, id ∈ selectOrphans parseStr ids present →
    id ∉ present ∧ Origin.fromEngineId parseStr id = .ok none ∧ isSubOrchestration id = false ∧
      ∀ (root : RootId) (spawns : List (Generation × Token)),
        id = Scope.instanceId ⟨root.token, spawns⟩ → spawns = [] ∧ root.origin = none
  originOrphans : ∀ {origin ids present id}, id ∈ selectOriginOrphans parseStr origin ids present →
    Origin.fromEngineId parseStr id = .ok (some origin) ∧
      ∃ localId, id = origin.engineId localId ∧ localId ∉ present
  oneOrigin : ∀ {origin origin' ids ids' present present' id},
    id ∈ selectOriginOrphans parseStr origin ids present →
    id ∈ selectOriginOrphans parseStr origin' ids' present' → origin = origin'

/-- No selection takes a composed id. -/
theorem selections_spare_composed (parseStr : String → Option Uuid) {scope : Scope}
    (h : scope.spawns ≠ []) (ids : List String) (present : Finset String) (origin : Origin)
    (deleteInstance : String → DeleteOutcome) :
    scope.instanceId ∉ selectOrphans parseStr ids present ∧
      scope.instanceId ∉ selectOriginOrphans parseStr origin ids present ∧
      scope.instanceId ∉ (retireEngineRecords deleteInstance ids).1 := by
  have hsub := composed_is_sub_orchestration h
  have hseparator := composed_contains_separator h
  refine ⟨?_, ?_, ?_⟩
  · intro hmem
    obtain ⟨-, -, hroot, -⟩ := mem_select_orphans.1 hmem
    rw [hsub] at hroot
    cases hroot
  · intro hmem
    obtain ⟨-, hsingle, -, -⟩ := mem_select_origin_orphans.1 hmem
    rw [hseparator] at hsingle
    cases hsingle
  · intro hmem
    have hroot := (List.mem_filter.1 hmem).2
    rw [hsub] at hroot
    cases hroot

/-- Reconciliation never takes a child or a record of another origin. -/
theorem reconciliation_spares_children {parseStr : String → Option Uuid}
    (hparse : ∀ uuid, parseStr (Uuid.simple uuid) = some uuid) : SparesChildren parseStr where
  children {root spawns} h ids present origin deleteInstance :=
    @selections_spare_composed parseStr ⟨root.token, spawns⟩ h ids present origin deleteInstance
  retired ids deleteInstance id hmem := List.mem_of_mem_filter hmem
  orphans {ids present id} hmem := by
    obtain ⟨-, horigin, hsub, habsent⟩ := mem_select_orphans.1 hmem
    refine ⟨habsent, horigin, hsub, ?_⟩
    rintro root spawns rfl
    rw [from_engine_id_instance_id hparse, Except.ok.injEq] at horigin
    refine ⟨?_, horigin⟩
    by_contra hne
    rw [composed_is_sub_orchestration hne] at hsub
    cases hsub
  originOrphans hmem := by
    obtain ⟨-, -, horigin, hlocal⟩ := mem_select_origin_orphans.1 hmem
    exact ⟨horigin, hlocal⟩
  oneOrigin hmem hmem' := by
    obtain ⟨-, -, horigin, -⟩ := mem_select_origin_orphans.1 hmem
    obtain ⟨-, -, horigin', -⟩ := mem_select_origin_orphans.1 hmem'
    rw [horigin, Except.ok.injEq, Option.some.injEq] at horigin'
    exact horigin'

/-- The theorem at the parser of simple UUIDs: a namespaced root without a row is selected for its
origin, and its child is not. -/
theorem namespaced_root_selected : SparesChildren parseSimple ∧
    selectOriginOrphans parseSimple ⟨42, 7⟩
      ["pgdf-42-00000000000000000000000000000007-deadbeef",
        "pgdf-42-00000000000000000000000000000007-deadbeef::1::cafebabe"] ∅ =
      ["pgdf-42-00000000000000000000000000000007-deadbeef"] :=
  ⟨reconciliation_spares_children parse_simple_simple, by decide +kernel⟩

/-- A child composed at generation `2 ^ 63` is selected: the lineage reads generations as signed
64-bit integers, while execution ids are unsigned. -/
theorem generation_past_range_selected :
    composeSubtreeInstanceId "aaaaaaaa" (toString (2 ^ 63)) "bbbbbbbb" ∈
      selectOrphans parseSimple
        [composeSubtreeInstanceId "aaaaaaaa" (toString (2 ^ 63)) "bbbbbbbb"] ∅ := by
  decide +kernel

end PgDurable.Instances
