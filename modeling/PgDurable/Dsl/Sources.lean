import PgDurable.Dsl.Stored
import PgDurable.Explain.Instance

/-!
# Id sources

Documents are flattened with three sources of ids: by `df.start` with random ids, by `df.explain`
with display ids and by `validateRecursive` with a counter. `flatten_agrees` says that the ids make
no difference: what one of them rejects, all reject at the same path with the same message, unless
a source runs out of ids.
-/

namespace PgDurable.Dsl

open Json InsertNodes

/-! ## Agreement of two runs -/

section Agree

variable {σ τ α β α' β' : Type}

/-- A second run ends as the first, in related values or with the same error, unless the id source
of the first has failed. -/
def Agrees (source : IdSource σ) (related : α → β → Prop) :
    Except GraphError α → Except GraphError β → Prop
  | .ok value, second => ∃ other, second = .ok other ∧ related value other
  | .error error, second => (∃ ids, source ids = .error error.message) ∨ second = .error error

variable {source : IdSource σ} {related : α → β → Prop} {related' : α' → β' → Prop}

theorem Agrees.bind {first : Except GraphError α} {second : Except GraphError β}
    {next : α → Except GraphError α'} {next' : β → Except GraphError β'}
    (h : Agrees source related first second)
    (hnext : ∀ value other, related value other → Agrees source related' (next value) (next' other)) :
    Agrees source related' (first >>= next) (second >>= next') := by
  cases first with
  | ok value =>
      obtain ⟨other, rfl, hrelated⟩ := h
      exact hnext value other hrelated
  | error error =>
      rcases h with hids | rfl
      · exact .inl hids
      · exact .inr rfl

theorem agrees_same (source : IdSource σ) (result : Except GraphError α) :
    Agrees source Eq result result := by
  cases result with
  | ok value => exact ⟨value, rfl, rfl⟩
  | error error => exact .inr rfl

/-- The source has an id for every state. -/
def Endless (source : IdSource τ) : Prop := ∀ ids, ∃ id next, source ids = .ok (id, next)

/-- Entries of the same node at the same place. -/
structure SameEntry (entry other : PendingGraphNode) : Prop where
  node : other.node = entry.node
  depth : other.depth = entry.depth
  path : other.path = entry.path

variable {endless : IdSource τ} (hendless : Endless endless)
variable {entry other : PendingGraphNode} (hentry : SameEntry entry other)

include hendless hentry

theorem parse_child_agrees {found : Discovery σ} {found' : Discovery τ}
    (hfound : found'.discovered = found.discovered) (slot : String × RawObject) :
    Agrees source (fun result result' => SameEntry result.1 result'.1 ∧
        result'.2.discovered = result.2.discovered)
      (parseChild source entry slot found) (parseChild endless other slot found') := by
  unfold parseChild
  dsimp only
  rw [hentry.path, hentry.depth, hfound]
  split_ifs
  · exact .inr rfl
  · refine (agrees_same source _).bind fun node node' hnode => ?_
    subst hnode
    obtain ⟨id', next', hid'⟩ := hendless found'.ids
    rw [hid']
    cases hid : source found.ids with
    | error message => exact .inl ⟨_, hid⟩
    | ok result => exact ⟨_, rfl, ⟨rfl, rfl, rfl⟩, rfl⟩

theorem parse_children_agrees (slots : List (String × RawObject)) {found : Discovery σ}
    {found' : Discovery τ} (hfound : found'.discovered = found.discovered) :
    Agrees source (fun result result' => List.Forall₂ SameEntry result.1 result'.1 ∧
        result'.2.discovered = result.2.discovered)
      (parseChildren source entry slots found) (parseChildren endless other slots found') := by
  induction slots generalizing found found' with
  | nil => exact ⟨_, rfl, .nil, hfound⟩
  | cons slot slots ih =>
      refine (parse_child_agrees hendless hentry hfound slot).bind fun result result' h => ?_
      refine (ih h.2).bind fun others others' hothers => ?_
      exact ⟨_, rfl, .cons h.1 hothers.1, hothers.2⟩

omit hendless in
theorem check_node_same : checkNode other = checkNode entry := by
  rw [checkNode, checkNode, hentry.node, hentry.depth, hentry.path]

omit hendless hentry in
/-- Whether a configuration takes ids does not depend on the ids. -/
theorem materialized_query_agrees (node : Durofut) (path : String)
    {condition condition' : Option String} {extra extra' : List String}
    (hcondition : condition'.isNone = condition.isNone) (hextra : extra'.isEmpty = extra.isEmpty) :
    Agrees source (fun _ _ => True) (located path (materializedQuery node condition extra))
      (located path (materializedQuery node condition' extra')) := by
  rw [materializedQuery, materializedQuery, hcondition, hextra]
  split_ifs
  · exact ⟨_, rfl, trivial⟩
  · cases configMembers node with
    | error message => exact .inr rfl
    | ok members => exact ⟨_, rfl, trivial⟩

/-- Rows of the same node. -/
structure SameRow (row other : MaterializedNode) : Prop where
  node_type : other.nodeType = row.nodeType
  result_name : other.resultName = row.resultName
  left_node : other.leftNode.isSome = row.leftNode.isSome
  right_node : other.rightNode.isSome = row.rightNode.isSome

omit hendless hentry in
theorem same_head {entries others : List PendingGraphNode}
    (h : List.Forall₂ SameEntry entries others) :
    (others.head?.map (·.id)).isSome = (entries.head?.map (·.id)).isSome := by
  cases h <;> rfl

omit hendless hentry in
theorem same_empty {entries others : List PendingGraphNode}
    (h : List.Forall₂ SameEntry entries others) : others.isEmpty = entries.isEmpty := by
  cases h <;> rfl

theorem materialize_agrees {found : Discovery σ} {found' : Discovery τ}
    (hfound : found'.discovered = found.discovered) :
    Agrees source (fun result result' => SameRow result.1 result'.1 ∧
        List.Forall₂ SameEntry result.2.1 result'.2.1 ∧
        result'.2.2.discovered = result.2.2.discovered)
      (materialize source entry found) (materialize endless other found') := by
  unfold materialize
  rw [check_node_same hentry, hentry.node, hentry.path]
  refine (agrees_same source _).bind fun _ _ _ => ?_
  refine (parse_children_agrees hendless hentry _ hfound).bind fun left left' hleft => ?_
  refine (parse_children_agrees hendless hentry _ hleft.2).bind fun right right' hright => ?_
  refine (parse_children_agrees hendless hentry _ hright.2).bind
    fun condition condition' hcondition => ?_
  refine (parse_children_agrees hendless hentry _ hcondition.2).bind
    fun extra extra' hextra => ?_
  have hnone : (condition'.1.head?.map (·.id)).isNone = (condition.1.head?.map (·.id)).isNone := by
    rw [← Option.not_isSome, ← Option.not_isSome, same_head hcondition.1]
  have hempty : (extra'.1.map (·.id)).isEmpty = (extra.1.map (·.id)).isEmpty := by
    rw [List.isEmpty_map, List.isEmpty_map, same_empty hextra.1]
  refine (materialized_query_agrees _ _ hnone hempty).bind fun query query' _ => ?_
  exact ⟨_, rfl, ⟨rfl, rfl, same_head hleft.1, same_head hright.1⟩,
    List.rel_append (List.rel_append (List.rel_append hleft.1 hright.1) hcondition.1) hextra.1,
    hextra.2⟩

omit hentry in
theorem loop_agrees (fuel : Nat) {pending others : List PendingGraphNode} {found : Discovery σ}
    {found' : Discovery τ} (hpending : List.Forall₂ SameEntry pending others)
    (hfound : found'.discovered = found.discovered)
    {result : Except GraphError (List MaterializedNode)}
    (h : flattenLoop source fuel pending found = some result) :
    (∃ ids error, result = .error error ∧ source ids = .error error.message) ∨
      ∃ result', flattenLoop endless fuel others found' = some result' ∧
        Agrees source (List.Forall₂ SameRow) result result' := by
  induction fuel generalizing pending others found found' result with
  | zero =>
      cases hpending with
      | nil =>
          cases h
          exact .inr ⟨_, rfl, _, rfl, .nil⟩
      | cons => cases h
  | succ fuel ih =>
      cases hpending with
      | nil =>
          cases h
          exact .inr ⟨_, rfl, _, rfl, .nil⟩
      | @cons entry other pending others hentry hrest =>
          have hround := @materialize_agrees _ _ source _ hendless _ _ hentry _ _ hfound
          rw [flattenLoop] at h ⊢
          cases hmaterialize : materialize source entry found with
          | error error =>
              rw [hmaterialize] at h hround
              cases h
              rcases hround with ⟨ids, hids⟩ | hother
              · exact .inl ⟨ids, error, rfl, hids⟩
              · rw [hother]
                exact .inr ⟨_, rfl, .inr rfl⟩
          | ok round =>
              rw [hmaterialize] at h hround
              obtain ⟨⟨row, children, next⟩⟩ := round
              obtain ⟨⟨row', children', next'⟩, hother, hrow, hchildren, hnext⟩ := hround
              obtain ⟨rows, hloop, rfl⟩ := Option.map_eq_some_iff.1 h
              rw [hother]
              dsimp only
              -- The children go before what is pending with both sources.
              rcases ih (List.rel_append hchildren hrest) hnext hloop with
                ⟨ids, error, rfl, hids⟩ | ⟨rows', hloop', hagrees⟩
              · exact .inl ⟨ids, error, rfl, hids⟩
              · rw [hloop']
                refine .inr ⟨_, rfl, ?_⟩
                cases rows with
                | ok rows =>
                    obtain ⟨others, rfl, hothers⟩ := hagrees
                    exact ⟨_, rfl, .cons hrow hothers⟩
                | error error =>
                    rcases hagrees with hids | rfl
                    · exact .inl hids
                    · exact .inr rfl

omit hentry in
/-- The ids make no difference: two sources give rows of the same nodes or the same error, unless
the first source fails. -/
theorem flatten_agrees (root : Durofut) (ids : σ) (ids' : τ)
    {result : Except GraphError (String × List MaterializedNode)}
    (h : flattenGraph source root ids = some result) :
    (∃ ids error, result = .error error ∧ source ids = .error error.message) ∨
      ∃ result', flattenGraph endless root ids' = some result' ∧
        Agrees source (fun rows rows' => List.Forall₂ SameRow rows.2 rows'.2) result result' := by
  obtain ⟨rootId', next', hid'⟩ := hendless ids'
  unfold flattenGraph at h ⊢
  rw [hid']
  cases hid : source ids with
  | error message =>
      rw [hid] at h
      cases h
      exact .inl ⟨ids, _, rfl, hid⟩
  | ok supplied =>
      obtain ⟨rootId, next⟩ := supplied
      rw [hid] at h
      obtain ⟨rows, hloop, rfl⟩ := Option.map_eq_some_iff.1 h
      have hentry : SameEntry (⟨root, rootId, 0, "root"⟩ : PendingGraphNode)
          ⟨root, rootId', 0, "root"⟩ := ⟨rfl, rfl, rfl⟩
      have hpending : List.Forall₂ SameEntry
          [(⟨root, rootId, 0, "root"⟩ : PendingGraphNode)] [⟨root, rootId', 0, "root"⟩] :=
        .cons hentry .nil
      have hfound : (⟨next', 1⟩ : Discovery τ).discovered = (⟨next, 1⟩ : Discovery σ).discovered :=
        rfl
      rcases loop_agrees hendless maxGraphNodes hpending hfound hloop with
        ⟨ids, error, rfl, hids⟩ | ⟨rows', hloop', hagrees⟩
      · exact .inl ⟨ids, error, rfl, hids⟩
      · refine .inr ⟨_, congrArg (Option.map (Except.map fun rows => (rootId', rows))) hloop', ?_⟩
        cases rows with
        | ok rows =>
            obtain ⟨others, rfl, hothers⟩ := hagrees
            exact ⟨_, rfl, hothers⟩
        | error error =>
            rcases hagrees with hids | rfl
            · exact .inl hids
            · exact .inr rfl

end Agree

/-! ## Validation -/

/-- `{counter:08x}` -/
def counterId (counter : Nat) : String :=
  let digits := Nat.toDigits 16 counter
  String.ofList (List.replicate (8 - digits.length) '0' ++ digits)

/-- Ids by a counter. -/
def counterIds : IdSource Nat := fun counter => .ok (counterId (counter + 1), counter + 1)

/-- Validate a node and all below it. -/
def validateRecursive (root : Durofut) : Option (Except String Unit) :=
  (flattenGraph counterIds root 0).map fun result =>
    match result with
    | .ok _ => .ok ()
    | .error error => .error error.display

/-! ## Explaining a step -/

/-- Ids for display. -/
def displayIds : IdSource Nat := fun counter =>
  .ok ("N" ++ toString (counter + 1), counter + 1)

/-- A row without a status. -/
def explainNode (row : MaterializedNode) : Explain.ExplainNode where
  nodeType := row.nodeType
  query := row.query
  leftNode := row.leftNode
  rightNode := row.rightNode
  status := none
  statusDetails := none
  resultName := row.resultName

def explainMap (rows : List MaterializedNode) : Explain.ExplainMap :=
  Std.ExtTreeMap.ofList (rows.map fun row => (row.id, explainNode row)) compare

/-- Explain a step that has not been started. -/
def explainDurofut (debug : String → String) (fuel : Nat) (root : Durofut) : Outcome String :=
  match flattenGraph displayIds root 0 with
  | none => .exhausted
  | some (.error error) => .done ("Invalid durable function graph: " ++ error.display)
  | some (.ok (rootId, rows)) =>
      Explain.buildTreeVisualization (Explain.formatNodeDisplay debug) (explainMap rows) false fuel
        rootId

theorem counter_ids_endless : Endless counterIds := fun _ => ⟨_, _, rfl⟩

theorem display_ids_endless : Endless displayIds := fun _ => ⟨_, _, rfl⟩

theorem display_id_injective {m n : Nat} (h : "N" ++ toString m = "N" ++ toString n) : m = n := by
  have hlist := congrArg String.toList h
  rw [String.toList_append, String.toList_append] at hlist
  have hdigits : (Nat.repr m).toList = (Nat.repr n).toList := List.append_cancel_left hlist
  rw [Nat.toList_repr, Nat.toList_repr] at hdigits
  exact Text.to_digits_injective hdigits

theorem display_ids_fresh {counter last : Nat} {supplied : List String}
    (h : Supplied displayIds counter supplied last) :
    supplied.Nodup ∧ ∀ id ∈ supplied, ∃ n, counter < n ∧ id = "N" ++ toString n := by
  induction supplied generalizing counter with
  | nil => exact ⟨List.nodup_nil, List.forall_mem_nil _⟩
  | cons id supplied ih =>
      obtain ⟨next, hid, hrest⟩ := h
      obtain ⟨rfl, rfl⟩ := Prod.mk.inj (Except.ok.inj hid)
      obtain ⟨hnodup, hlater⟩ := ih hrest
      refine ⟨List.nodup_cons.2 ⟨fun hmem => ?_, hnodup⟩, List.forall_mem_cons.2
        ⟨⟨counter + 1, Nat.lt_succ_self _, rfl⟩, fun other hother => ?_⟩⟩
      · obtain ⟨n, hn, heq⟩ := hlater _ hmem
        have hsame := display_id_injective heq
        omega
      · obtain ⟨n, hn, heq⟩ := hlater other hother
        exact ⟨n, by omega, heq⟩

theorem explain_map_shows {rows : List MaterializedNode} (hnodup : (rows.map (·.id)).Nodup) :
    ShowsRows rows (explainMap rows) := by
  intro id node h
  have hdistinct : (rows.map fun row => (row.id, explainNode row)).Pairwise
      fun a b => ¬ compare a.1 b.1 = .eq := by
    refine List.pairwise_map.2 ((List.pairwise_map.1 hnodup).imp fun hne heq => hne ?_)
    exact Std.LawfulEqCmp.eq_of_compare heq
  have hmem : id ∈ explainMap rows := by
    rw [Std.ExtTreeMap.mem_iff_isSome_getElem?, h]
    rfl
  rw [explainMap, Std.ExtTreeMap.mem_ofList, List.contains_iff_mem, List.map_map] at hmem
  obtain ⟨row, hrow, rfl⟩ := List.mem_map.1 hmem
  have hget : (explainMap rows)[row.id]? = some (explainNode row) :=
    Std.ExtTreeMap.getElem?_ofList_of_mem Std.ReflCmp.compare_self hdistinct
      (List.mem_map_of_mem hrow)
  have hnode : (explainMap rows)[row.id]? = some node := h
  rw [hget] at hnode
  cases hnode
  exact ⟨row, hrow, rfl, rfl, rfl, rfl, rfl⟩

/-- The rows of a document with ids that are not repeated. -/
theorem flattened_row_tree {σ : Type} {source : IdSource σ} {ids : σ}
    (hfresh : ∀ supplied last, Supplied source ids supplied last → supplied.Nodup)
    {root : Durofut} {rootId : String} {rows : List MaterializedNode}
    (h : flattenGraph source root ids = some (.ok (rootId, rows))) :
    RowTree rootId rows := by
  obtain ⟨placed, below, hplaced, hdocument, ⟨last, hids⟩, -, hrows⟩ :=
    (flatten_graph_iff _ _ _ _ _).1 h
  have hnodup := (document_ids hplaced hdocument hrows).nodup_iff.2 (hfresh _ _ hids)
  have htree := document_row_tree hdocument hrows hnodup
  rw [hplaced] at htree
  exact htree

/-- Explaining a step that has not been started comes to an end. -/
theorem explain_durofut_ends (debug : String → String) (root : Durofut) :
    ∃ fuel, explainDurofut debug fuel root ≠ .exhausted := by
  obtain ⟨result, hresult⟩ := flatten_graph_returns displayIds root 0
  cases result with
  | error error =>
      refine ⟨0, ?_⟩
      rw [explainDurofut, hresult]
      exact fun h => (by cases h)
  | ok flattened =>
      obtain ⟨rootId, rows⟩ := flattened
      have htree := flattened_row_tree (fun _ _ h => (display_ids_fresh h).1) hresult
      have hdrawn := drawn_tree htree (explain_map_shows htree.nodup)
      obtain ⟨fuel, hends⟩ := @Explain.build_ends _ _ (Explain.formatNodeDisplay debug)
        (fun node => Explain.join_parts_not_exhausted _) false "" true
        ((Explain.acc_iff_no_cycle_below _ rootId).2 (Explain.no_cycle_of_tree hdrawn))
      refine ⟨fuel, ?_⟩
      rw [explainDurofut, hresult]
      intro h
      rcases Outcome.bind_eq_exhausted h with h | ⟨_, -, h⟩
      · exact hends h
      · cases h

theorem draw_id_error {γ : Type} {nextUuid : γ → Instances.Uuid × γ} {attempts : Nat}
    {ids : GraphIds γ} {message : String} (h : drawId nextUuid attempts ids = .error message) :
    message = "exhausted 10 attempts to generate a graph-unique node ID" := by
  induction attempts generalizing ids with
  | zero =>
      cases h
      decide
  | succ attempts ih =>
      rw [drawId] at h
      dsimp only at h
      split_ifs at h with hold
      · have hrest := ih h
        exact hrest

end PgDurable.Dsl
