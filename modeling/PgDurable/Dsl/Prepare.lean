import PgDurable.Dsl.Readers
import PgDurable.Instances.Origin
import PgDurable.Orchestration.LoadFunctionGraph

/-!
# The graphs that are stored

`prepareGraph` is what `df.start` makes of its argument before it stores anything. Its id source
does not repeat an id, so the rows form a tree with the root first (`prepared_row_tree`).
-/

namespace PgDurable.Dsl

open Json Text InsertNodes Instances NodeStatus Unfolding

/-! ## Ids -/

/-- `Uuid::to_string`. -/
def hyphenated (uuid : Uuid) : List Char :=
  let digits := hexDigits 32 uuid.toNat
  digits.take 8 ++ '-' :: ((digits.drop 8).take 4 ++ '-' :: ((digits.drop 12).take 4 ++
    '-' :: ((digits.drop 16).take 4 ++ '-' :: digits.drop 20)))

/-- The last eight characters of a UUID. -/
def shortId (uuid : Uuid) : String :=
  String.ofList (((hyphenated uuid).reverse.take 8).reverse)

def maxIdAttempts : Nat := 10

/-- The state of the id source of `df.start`: the random generator and the ids of the graph. -/
structure GraphIds (γ : Type) where
  generator : γ
  assigned : List String

section Source

variable {γ : Type} (nextUuid : γ → Uuid × γ)

/-- Draw ids until one is new. -/
def drawId : Nat → GraphIds γ → Except String (String × GraphIds γ)
  | 0, _ => .error ("exhausted " ++ toString maxIdAttempts ++
      " attempts to generate a graph-unique node ID")
  | attempts + 1, ids =>
      let (uuid, generator) := nextUuid ids.generator
      if ids.assigned.contains (shortId uuid) then drawId attempts ⟨generator, ids.assigned⟩
      else .ok (shortId uuid, ⟨generator, shortId uuid :: ids.assigned⟩)

def graphIdSource : IdSource (GraphIds γ) := drawId nextUuid maxIdAttempts

variable {nextUuid}

theorem draw_id_fresh {attempts : Nat} {ids ids' : GraphIds γ} {id : String}
    (h : drawId nextUuid attempts ids = .ok (id, ids')) :
    id ∉ ids.assigned ∧ ids'.assigned = id :: ids.assigned ∧ ∃ uuid, id = shortId uuid := by
  induction attempts generalizing ids with
  | zero => cases h
  | succ attempts ih =>
      rw [drawId] at h
      dsimp only at h
      split_ifs at h with hold
      · have hrest := ih h
        exact hrest
      · obtain ⟨hid, hids⟩ := Prod.mk.inj (Except.ok.inj h)
        rw [← hid, ← hids]
        exact ⟨fun hmem => hold (List.contains_iff_mem.2 hmem), rfl, _, rfl⟩

/-- The ids of a graph are new ones, and distinct. -/
theorem graph_ids_fresh {ids ids' : GraphIds γ} {supplied : List String}
    (h : Supplied (graphIdSource nextUuid) ids supplied ids') :
    supplied.Nodup ∧ (∀ id ∈ supplied, id ∉ ids.assigned) ∧
      ∀ id ∈ supplied, ∃ uuid, id = shortId uuid := by
  induction supplied generalizing ids with
  | nil => exact ⟨List.nodup_nil, List.forall_mem_nil _, List.forall_mem_nil _⟩
  | cons id supplied ih =>
      obtain ⟨next, hdraw, hrest⟩ := h
      obtain ⟨hfresh, hassigned, huuid⟩ := draw_id_fresh hdraw
      obtain ⟨hnodup, hnew, hshape⟩ := ih hrest
      have hlater : ∀ later ∈ supplied, later ∉ id :: ids.assigned := by
        intro later hlater
        rw [← hassigned]
        exact hnew later hlater
      refine ⟨List.nodup_cons.2 ⟨fun hmem => hlater id hmem List.mem_cons_self, hnodup⟩, ?_, ?_⟩
      · intro other hother
        rcases List.mem_cons.1 hother with rfl | hother
        · exact hfresh
        · exact fun hmem => hlater other hother (List.mem_cons_of_mem _ hmem)
      · exact List.forall_mem_cons.2 ⟨huuid, hshape⟩

end Source

theorem hex_digits_length (count n : Nat) : (hexDigits count n).length = count := by
  induction count generalizing n with
  | zero => rfl
  | succ count ih => rw [hexDigits, List.length_append, ih, List.length_singleton]

theorem digit_char_is_id : ∀ n < 16, (Nat.digitChar n).isDigit = true ∨
    ('a' ≤ Nat.digitChar n ∧ Nat.digitChar n ≤ 'f') := by decide

theorem hex_digits_id (count n : Nat) :
    ∀ c ∈ hexDigits count n, c.isDigit = true ∨ ('a' ≤ c ∧ c ≤ 'f') := by
  induction count generalizing n with
  | zero => exact List.forall_mem_nil _
  | succ count ih =>
      intro c hc
      rcases List.mem_append.1 hc with hc | hc
      · exact ih _ c hc
      · rw [List.mem_singleton.1 hc]
        exact digit_char_is_id _ (Nat.mod_lt _ (by decide))

/-- The ids have the format of `df.nodes.id`. -/
theorem short_id_is_node_id (uuid : Uuid) : Explain.isNodeId (shortId uuid) = true := by
  obtain ⟨front, hfront⟩ : ∃ front, hyphenated uuid =
      front ++ (hexDigits 32 uuid.toNat).drop 20 := by
    unfold hyphenated
    dsimp only
    generalize hexDigits 32 uuid.toNat = digits
    exact ⟨digits.take 8 ++ '-' :: ((digits.drop 8).take 4 ++ '-' :: ((digits.drop 12).take 4 ++
      '-' :: ((digits.drop 16).take 4 ++ ['-']))), by simp⟩
  have hlength : ((hexDigits 32 uuid.toNat).drop 20).reverse.length = 12 := by
    rw [List.length_reverse, List.length_drop, hex_digits_length]
  have htake : (hyphenated uuid).reverse.take 8 =
      ((hexDigits 32 uuid.toNat).drop 20).reverse.take 8 := by
    rw [hfront, List.reverse_append, List.take_append_of_le_length (by omega)]
  rw [Explain.isNodeId, shortId, String.toList_ofList, htake, Bool.and_eq_true, List.all_eq_true,
    List.length_reverse, List.length_take, hlength]
  refine ⟨rfl, fun c hc => ?_⟩
  have hmem := List.mem_of_mem_drop (List.mem_reverse.1 (List.mem_of_mem_take
    (List.mem_reverse.1 hc)))
  rcases hex_digits_id _ _ c hmem with hdigit | ⟨hlow, hhigh⟩
  · rw [hdigit, Bool.true_or]
  · rw [decide_eq_true hlow, decide_eq_true hhigh, Bool.and_self, Bool.or_true]

/-! ## Preparing a graph -/

/-- Check the name of the table that takes the response of a request. `sinkTable` asks the server
whether a text names a table with its schema. -/
def validateHttpSinkName (sinkTable : String → Except String Bool) (config : Value) :
    Except String Unit :=
  let unnamed : Except String Unit :=
    .error "HTTP response sink 'into' must name a schema-qualified table"
  match config.get? "into" with
  | none | some .null => .ok ()
  | some (.string table) =>
      if (trim table.toList).isEmpty || table.toList.contains '\x00' then unnamed
      else
        match sinkTable table with
        | .error error => .error ("HTTP response sink table name validation failed: " ++ error)
        | .ok true => .ok ()
        | .ok false => .error "HTTP response sink 'into' must be a schema-qualified table"
  | some _ => unnamed

/-- Check the configuration of a request, if it is JSON. -/
def checkHttpNode (sinkTable : String → Except String Bool) (row : MaterializedNode) :
    Except String Unit :=
  if row.nodeType = "HTTP" ∨ row.nodeType = "HTTP_MULTIPART" then
    match row.query.bind parse with
    | none => .ok ()
    | some config =>
        ((validateHttpSinkName sinkTable config).bind fun _ =>
          checkHttpRequestSize config true).mapError ("Invalid HTTP request: " ++ ·)
  else .ok ()

section Prepare

variable {γ : Type} (marker : Option String) (nextUuid : γ → Uuid × γ)
variable (sinkTable : String → Except String Bool)

/-- The rows that `df.start` stores for a step. -/
def prepareGraph (step : String) (generator : γ) :
    Option (Except String (String × List MaterializedNode)) :=
  match ensureStrict marker step with
  | .error message => some (.error ("Invalid durable function: " ++ message))
  | .ok root =>
      (flattenGraph (graphIdSource nextUuid) root ⟨generator, []⟩).map fun flattened =>
        match flattened with
        | .error error => .error ("Invalid durable function graph: " ++ error.display)
        | .ok (rootId, rows) => do
            rows.forM (checkHttpNode sinkTable)
            pure (rootId, rows)

variable {marker nextUuid sinkTable} {step : String} {generator : γ} {rootId : String}
variable {rows : List MaterializedNode}

theorem prepared_document
    (h : prepareGraph marker nextUuid sinkTable step generator = some (.ok (rootId, rows))) :
    ∃ (root : Durofut) (placed : Placed) (below : Forest Placed),
      ensureStrict marker step = .ok root ∧ placed.entry = ⟨root, rootId, 0, "root"⟩ ∧
        Document (.cons placed below .nil) ∧ below.preorder.length < maxGraphNodes ∧
        rows = placed.row :: below.preorder.map (·.row) ∧ (rows.map (·.id)).Nodup ∧
        ∀ row ∈ rows, Explain.isNodeId row.id = true := by
  unfold prepareGraph at h
  split at h
  · cases h
  · next root hroot =>
      obtain ⟨flattened, hflatten, h⟩ := Option.map_eq_some_iff.1 h
      split at h
      · cases h
      · next id others =>
          obtain ⟨⟨⟩, -, h⟩ := except_bind_ok h
          cases h
          obtain ⟨placed, below, hplaced, hdocument, ⟨last, hids⟩, hsize, hrows⟩ :=
            (flatten_graph_iff _ _ _ _ _).1 hflatten
          obtain ⟨hnodup, -, hshape⟩ := graph_ids_fresh hids
          have hperm := document_ids hplaced hdocument hrows
          refine ⟨root, placed, below, hroot, hplaced, hdocument, hsize, hrows,
            hperm.nodup_iff.2 hnodup, fun row hrow => ?_⟩
          obtain ⟨uuid, huuid⟩ := hshape row.id
            (hperm.mem_iff.1 (List.mem_map_of_mem hrow))
          rw [huuid]
          exact short_id_is_node_id uuid

end Prepare

/-- What `df.start` stores is a tree of valid nodes below the root, with distinct ids in their
format. -/
theorem prepared_row_tree {γ : Type} {marker : Option String} {nextUuid : γ → Uuid × γ}
    {sinkTable : String → Except String Bool} {step : String} {generator : γ} {rootId : String}
    {rows : List MaterializedNode}
    (h : prepareGraph marker nextUuid sinkTable step generator = some (.ok (rootId, rows))) :
    RowTree rootId rows ∧ rows.length ≤ maxGraphNodes ∧
      ∀ row ∈ rows, row.nodeType ∈ validNodeTypes ∧ Explain.isNodeId row.id = true := by
  obtain ⟨root, placed, below, -, hplaced, hdocument, hsize, hrows, hnodup, hformat⟩ :=
    prepared_document h
  have htree := document_row_tree hdocument hrows hnodup
  rw [hplaced] at htree
  refine ⟨htree, ?_, fun row hrow => ⟨?_, hformat row hrow⟩⟩
  · rw [hrows, List.length_cons, List.length_map]
    omega
  · have hmem : row ∈ (Forest.cons placed below .nil).preorder.map (·.row) := by
      rw [Forest.preorder, Forest.preorder, List.append_nil, List.map_cons, ← hrows]
      exact hrow
    obtain ⟨other, hother, rfl⟩ := List.mem_map.1 hmem
    exact document_valid_types hdocument other hother

end PgDurable.Dsl
