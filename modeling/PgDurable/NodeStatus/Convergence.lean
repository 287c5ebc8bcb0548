import PgDurable.Library.Newest
import PgDurable.NodeStatus.UpdateNodeStatus

/-!
# Convergence of the node-status writes

Stamped writes to one row, applied one after another through the fence, end with the stamp of the
lexicographically greatest generation vector whatever their order of arrival, and with the status
of the last-arriving write that carries it: `status_writes_converge`. The row is a register that
keeps the newest write; `superseded_iff_lt` is its acceptance rule.
-/

namespace PgDurable.NodeStatus

open Json Newest

/-- The generation vector a write carries. -/
def NodeStatusInput.generations (input : NodeStatusInput) : List Int :=
  stampGenerations (input.executionId.getD "")

/-- The write carries a stamp of the lineage. -/
def NodeStatusInput.OnLineage (root : String) (nodes : List String) (input : NodeStatusInput) :
    Prop :=
  ∃ stamp, input.executionId = some stamp ∧ SharesLineage root nodes stamp

/-- The row holds no stamp, or one of the lineage. -/
def NodeRow.OnLineage (root : String) (nodes : List String) (row : NodeRow) : Prop :=
  ∀ stamp, executionIdFromDetails row.statusDetails = some stamp → SharesLineage root nodes stamp

/-- The generation vector a row holds. -/
def NodeRow.generations (row : NodeRow) : Option (List Int) :=
  (executionIdFromDetails row.statusDetails).map stampGenerations

/-- A write that is not older than the row is stored. -/
theorem apply_status_write_newer {root : String} {nodes : List String} {row : NodeRow}
    {write : NodeStatusInput} (haccepted : write.accepted) (hwrite : write.OnLineage root nodes)
    (hrow : row.OnLineage root nodes)
    (hnewer : ∀ old, row.generations = some old → old ≤ write.generations) :
    applyStatusWrite row write = pushStatusUpdate write true row := by
  obtain ⟨stamp, hstamp, hlineage⟩ := hwrite
  refine apply_status_write_admitted haccepted hstamp ?_
  cases hstored : executionIdFromDetails row.statusDetails with
  | none => rfl
  | some stored =>
      have hle : stampGenerations stored ≤ stampGenerations stamp := by
        simpa [NodeRow.generations, NodeStatusInput.generations, hstored, hstamp] using hnewer
      rw [← Bool.not_eq_true, superseded_iff_lt hlineage (hrow stored hstored)]
      exact not_lt_of_ge hle

/-- A write that is older than the row is fenced. -/
theorem apply_status_write_older {root : String} {nodes : List String} {row : NodeRow}
    {write : NodeStatusInput} {old : List Int} (hwrite : write.OnLineage root nodes)
    (hrow : row.OnLineage root nodes) (hold : row.generations = some old)
    (holder : write.generations < old) : applyStatusWrite row write = row := by
  obtain ⟨stamp, hstamp, hlineage⟩ := hwrite
  simp only [NodeRow.generations, Option.map_eq_some_iff] at hold
  obtain ⟨stored, hstored, rfl⟩ := hold
  refine apply_status_write_fenced hstamp ?_
  rw [hstored, superseded_iff_lt hlineage (hrow stored hstored)]
  simpa [NodeStatusInput.generations, hstamp] using holder

/-- The register rule of one row: the newest of the accepted writes of a lineage is the last one
stored. -/
theorem writes_leave_newest {root : String} {nodes : List String} {row : NodeRow}
    {writes : List NodeStatusInput} (hrow : executionIdFromDetails row.statusDetails = none)
    (hne : writes ≠ []) (haccepted : ∀ write ∈ writes, write.accepted)
    (hwrites : ∀ write ∈ writes, write.OnLineage root nodes) :
    ∃ before write after, IsNewest NodeStatusInput.generations writes before write after ∧
      writes.foldl applyStatusWrite row =
        pushStatusUpdate write true (before.foldl applyStatusWrite row) := by
  have hstored : ∀ write ∈ writes, ∀ state, state.OnLineage root nodes →
      (∀ old, state.generations = some old → old ≤ write.generations) →
      applyStatusWrite state write = pushStatusUpdate write true state :=
    fun write hmem state hstate hnewer =>
      apply_status_write_newer (haccepted write hmem) (hwrites write hmem) hstate hnewer
  have hfresh : row.generations = none := by simp [NodeRow.generations, hrow]
  have hlineage : row.OnLineage root nodes := by simp [NodeRow.OnLineage, hrow]
  obtain ⟨before, write, after, hnewest, hbefore, hadmitted, hfold⟩ :=
    foldl_newest applyStatusWrite NodeRow.generations (NodeRow.OnLineage root nodes) hfresh
      hlineage hne
      (fun write hmem state hstate hnewer => by
        obtain ⟨stamp, hstamp, hlineage⟩ := hwrites write hmem
        rw [hstored write hmem state hstate hnewer]
        simp [NodeRow.generations, NodeRow.OnLineage, NodeStatusInput.generations, hstamp,
          hlineage])
      (fun write hmem state old hstate hold holder =>
        apply_status_write_older (hwrites write hmem) hstate hold holder)
  refine ⟨before, write, after, hnewest, ?_⟩
  rw [hfold, hstored write hnewest.mem _ hbefore hadmitted]

/-- Writes that PostgreSQL rejects leave no trace. -/
theorem writes_filter_accepted {root : String} {nodes : List String}
    {writes : List NodeStatusInput} (hwrites : ∀ write ∈ writes, write.OnLineage root nodes)
    (row : NodeRow) :
    writes.foldl applyStatusWrite row =
      (writes.filter NodeStatusInput.accepted).foldl applyStatusWrite row := by
  induction writes generalizing row with
  | nil => rfl
  | cons write writes ih =>
      have hrest := ih (fun other hmem => hwrites other (by simp [hmem]))
      obtain ⟨stamp, hstamp, -⟩ := hwrites write (by simp)
      cases haccepted : write.accepted with
      | true => simp [haccepted, hrest]
      | false => simp [haccepted, apply_status_write_rejected haccepted hstamp, hrest]

/-- The fence relation on the stamps of one lineage is a strict total order of their generation
vectors. -/
structure FenceOrder (root : String) (nodes : List String) : Prop where
  irreflexive : ∀ a, SharesLineage root nodes a → incomingStampIsSuperseded a (some a) = false
  transitive : ∀ a b c, SharesLineage root nodes a → SharesLineage root nodes b →
    SharesLineage root nodes c → incomingStampIsSuperseded a (some b) = true →
    incomingStampIsSuperseded b (some c) = true → incomingStampIsSuperseded a (some c) = true
  total : ∀ a b, SharesLineage root nodes a → SharesLineage root nodes b →
    incomingStampIsSuperseded a (some b) = true ∨ stampGenerations a = stampGenerations b ∨
      incomingStampIsSuperseded b (some a) = true

/-- The fence orders every lineage. -/
theorem fence_order (root : String) (nodes : List String) : FenceOrder root nodes where
  irreflexive a ha := by
    rw [← Bool.not_eq_true, superseded_iff_lt ha ha]
    exact lt_irrefl _
  transitive a b c ha hb hc hab hbc := by
    rw [superseded_iff_lt ha hb] at hab
    rw [superseded_iff_lt hb hc] at hbc
    rw [superseded_iff_lt ha hc]
    exact lt_trans hab hbc
  total a b ha hb := by
    rw [superseded_iff_lt ha hb, superseded_iff_lt hb ha]
    exact lt_trichotomy _ _

/-- What an order of arrival leaves: the newest accepted write's stamp, whose generation vector
is the greatest, and its status. The result is that write's too, except that a terminal write
without a result keeps the one it finds. -/
def LeavesNewest (row : NodeRow) (arrival : List NodeStatusInput) : Prop :=
  ∃ before write after,
    IsNewest NodeStatusInput.generations (arrival.filter NodeStatusInput.accepted)
      before write after ∧
    executionIdFromDetails (arrival.foldl applyStatusWrite row).statusDetails =
      write.executionId ∧
    (arrival.foldl applyStatusWrite row).generations = some write.generations ∧
    (arrival.foldl applyStatusWrite row).status = write.status ∧
    (arrival.foldl applyStatusWrite row).result =
      match write.result with
      | some result => some (storedResult result)
      | none =>
          if isTerminalStatus write.status then (before.foldl applyStatusWrite row).result
          else none

/-- Every order of arrival of stamped writes leaves the newest one. -/
theorem leaves_newest {root : String} {nodes : List String} {row : NodeRow}
    {arrival : List NodeStatusInput} (hrow : executionIdFromDetails row.statusDetails = none)
    (hwrites : ∀ write ∈ arrival, write.OnLineage root nodes)
    (hne : ∃ write ∈ arrival, write.accepted) : LeavesNewest row arrival := by
  obtain ⟨before, write, after, hnewest, hfold⟩ :=
    @writes_leave_newest root nodes row (arrival.filter NodeStatusInput.accepted) hrow
      (by simpa [List.filter_eq_nil_iff] using hne) (fun write hmem => (List.mem_filter.1 hmem).2)
      (fun write hmem => hwrites write (List.mem_filter.1 hmem).1)
  rw [← writes_filter_accepted hwrites] at hfold
  obtain ⟨stamp, hstamp, -⟩ := hwrites write (List.mem_filter.1 hnewest.mem).1
  refine ⟨before, write, after, hnewest, ?_, ?_, ?_, ?_⟩
  · rw [hfold, execution_id_push_status_update]
  · rw [hfold, NodeRow.generations, execution_id_push_status_update, NodeStatusInput.generations,
      hstamp]
    rfl
  · rw [hfold]
    rfl
  · rw [hfold]
    rfl

/-- In every order of arrival the writes of a lineage leave the newest one, and all orders leave
the same generation vector. -/
theorem status_writes_converge {root : String} {nodes : List String} {row : NodeRow}
    {writes : List NodeStatusInput} (hrow : executionIdFromDetails row.statusDetails = none)
    (hwrites : ∀ write ∈ writes, write.OnLineage root nodes)
    (hne : ∃ write ∈ writes, write.accepted) :
    FenceOrder root nodes ∧
      ∀ arrival : List NodeStatusInput, arrival.Perm writes →
        LeavesNewest row arrival ∧
          (arrival.foldl applyStatusWrite row).generations =
            (writes.foldl applyStatusWrite row).generations := by
  refine ⟨fence_order root nodes, fun arrival hperm => ?_⟩
  have hleaves : LeavesNewest row arrival := by
    refine leaves_newest hrow (fun write hmem => hwrites write (hperm.mem_iff.1 hmem)) ?_
    obtain ⟨write, hmem, haccepted⟩ := hne
    exact ⟨write, hperm.mem_iff.2 hmem, haccepted⟩
  refine ⟨hleaves, ?_⟩
  obtain ⟨_, write, _, hnewest, -, hgenerations, -⟩ := hleaves
  obtain ⟨_, write', _, hnewest', -, hgenerations', -⟩ := leaves_newest hrow hwrites hne
  have hfilter := hperm.filter NodeStatusInput.accepted
  rw [hgenerations, hgenerations', Option.some.injEq]
  exact le_antisymm (hnewest'.le write (hfilter.mem_iff.1 hnewest.mem))
    (hnewest.le write' (hfilter.mem_iff.2 hnewest'.mem))

/-- A write of a node of instance `aaaaaaaa` by generation `stamp`. -/
def sampleWrite (status : String) (result : Option String) (stamp : String) : NodeStatusInput :=
  ⟨"bbbbbbbb", "aaaaaaaa", status, result, some stamp⟩

/-- The theorem at a loop body node that two generations of a child scope complete. -/
theorem loop_body_writes_converge :
    LeavesNewest ⟨"pending", none, none⟩
      [sampleWrite "completed" (some "2") "aaaaaaaa::1::cccccccc::2",
        sampleWrite "completed" (some "1") "aaaaaaaa::1::cccccccc::1"] := by
  refine ((@status_writes_converge "aaaaaaaa" ["cccccccc"] _
    [sampleWrite "completed" (some "1") "aaaaaaaa::1::cccccccc::1",
      sampleWrite "completed" (some "2") "aaaaaaaa::1::cccccccc::2"]
    rfl ?_ ⟨_, List.mem_cons_self, by decide +kernel⟩).2 _ (List.Perm.swap _ _ _)).1
  intro write hmem
  simp only [List.mem_cons, List.not_mem_nil, or_false] at hmem
  rcases hmem with rfl | rfl
  · exact ⟨_, rfl, ⟨"aaaaaaaa::1::cccccccc", [1], ["cccccccc"]⟩, 1, by decide +kernel,
      by decide +kernel, rfl⟩
  · exact ⟨_, rfl, ⟨"aaaaaaaa::1::cccccccc", [1], ["cccccccc"]⟩, 2, by decide +kernel,
      by decide +kernel, rfl⟩

/-- A terminal write without a result does not take the result of the generation it replaces: the
row keeps the older generation's value. -/
theorem newer_write_keeps_older_result :
    ¬ ∃ before write after,
      IsNewest NodeStatusInput.generations
        [sampleWrite "completed" (some "1") "aaaaaaaa::1", sampleWrite "completed" none "aaaaaaaa::2"]
        before write after ∧
      ([sampleWrite "completed" (some "1") "aaaaaaaa::1",
        sampleWrite "completed" none "aaaaaaaa::2"].foldl applyStatusWrite
          ⟨"pending", none, none⟩).result = write.result.map storedResult := by
  rintro ⟨before, write, after, hnewest, hresult⟩
  have hmem := hnewest.mem
  simp only [List.mem_cons, List.not_mem_nil, or_false] at hmem
  rcases hmem with rfl | rfl
  · have hle := hnewest.le (sampleWrite "completed" none "aaaaaaaa::2") (by simp)
    revert hle
    decide +kernel
  · revert hresult
    decide +kernel
end PgDurable.NodeStatus
