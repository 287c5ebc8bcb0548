import PgDurable.NodeStatus.Convergence
import PgDurable.Orchestration.Execute

/-!
# Status writes of an abandoned loop child

A loop child stamps its node `running` once per generation, each time with the generation's own
stamp, and its parent writes a fallback when the child lost a race or its future failed. The
fallback addresses the child's first generation.

`abandoned_loop_terminal_iff` says for every number of generations and every order of arrival when
the row ends terminal: a terminal write of the last generation must arrive after that generation's
`running`, and the fallback is one only when there was a single generation.
-/

namespace PgDurable.Orchestration

open NodeStatus Newest

/-! ## The scheduled texts -/

/-- Apply the scheduled input of a status write to the row it addresses. -/
def applyStatusText (row : NodeRow) (text : String) : NodeRow :=
  match NodeStatusInput.ofJson text with
  | .ok input => applyStatusWrite row input
  | .error _ => row

/-- The stamp of a generation of the loop child. -/
def loopChildStamp (ctx : OrchestrationContext) (nodeId : String) (generation : Nat) : String :=
  executionStamp (subtreeInstanceId ctx nodeId) (toString generation)

/-- What a generation of the child schedules when it starts. -/
def runningText (ctx : OrchestrationContext) (graph : FunctionGraph) (nodeId : String)
    (generation : Nat) : String :=
  serializeNodeStatusInput nodeId graph.instanceId "running" none
    (loopChildStamp ctx nodeId generation)

/-- What the last generation of the child schedules when its loop ends. -/
def terminalText (ctx : OrchestrationContext) (graph : FunctionGraph) (nodeId : String)
    (generation : Nat) (completed : Bool) (result : String) : String :=
  serializeNodeStatusInput nodeId graph.instanceId (if completed then "completed" else "failed")
    (some result) (loopChildStamp ctx nodeId generation)

/-- What the parent schedules for a child that it abandons. -/
def fallbackText (ctx : OrchestrationContext) (graph : FunctionGraph) (nodeId message : String) :
    String :=
  loopNodeStatusInput nodeId graph.instanceId "failed" message (childStamp ctx nodeId)

/-- Everything scheduled for the loop's row: the `running` of each generation, the terminal write
if the loop got that far, and the parent's fallback. -/
def abandonedLoopTexts (ctx : OrchestrationContext) (graph : FunctionGraph) (nodeId : String)
    (generations : Nat) (terminal : Option (Bool × String)) (message : String) : List String :=
  (List.range generations).map (fun index => runningText ctx graph nodeId (index + 1)) ++
    (terminal.map fun (completed, result) =>
      terminalText ctx graph nodeId generations completed result).toList ++
    [fallbackText ctx graph nodeId message]

/-- The parent addresses the child's first generation. -/
theorem child_stamp_eq (ctx : OrchestrationContext) (nodeId : String) :
    childStamp ctx nodeId = loopChildStamp ctx nodeId 1 := by
  rw [childStamp, loopChildStamp, executionStamp, String.append_assoc]
  rfl

/-- The loser of a race that is a loop gets the fallback text. -/
theorem cancel_losing_schedules_fallback {ctx : OrchestrationContext} {graph : FunctionGraph}
    {nodeId : String} (hloop : isLoopNode graph nodeId = true) (machine : Machine) :
    ∃ outcome, (cancelLosingLoopBranch ctx graph nodeId machine).2.log = machine.log ++
      [.activity ctx.site updateNodeStatusName
        (fallbackText ctx graph nodeId "Loop branch cancelled after losing RACE") outcome] := by
  rw [cancelLosingLoopBranch, if_pos hloop]
  exact ⟨_, rfl⟩

/-- A failed loop child gets the fallback text with its error. -/
theorem fail_loop_child_schedules_fallback (ctx : OrchestrationContext) (graph : FunctionGraph)
    (nodeId : String) (error : NodeError) (machine : Machine) :
    ∃ outcome, (failLoopChildFuture ctx graph nodeId error machine).2.log = machine.log ++
      [.activity ctx.site updateNodeStatusName
        (fallbackText ctx graph nodeId error.message) outcome] :=
  ⟨_, rfl⟩

/-! ## Reading the texts -/

/-- The write that a text is read as. -/
def loopWrite (ctx : OrchestrationContext) (graph : FunctionGraph) (nodeId : String)
    (generation : Nat) (status : String) (result : Option String) : NodeStatusInput :=
  ⟨nodeId, graph.instanceId, status, result, some (loopChildStamp ctx nodeId generation)⟩

/-- The activity reads the three kinds of texts as writes with the child's stamps. -/
theorem loop_texts_read (ctx : OrchestrationContext) (graph : FunctionGraph) (nodeId : String) :
    (∀ generation, NodeStatusInput.ofJson (runningText ctx graph nodeId generation) =
      .ok (loopWrite ctx graph nodeId generation "running" none)) ∧
    (∀ generation completed result,
      NodeStatusInput.ofJson (terminalText ctx graph nodeId generation completed result) =
        .ok (loopWrite ctx graph nodeId generation (if completed then "completed" else "failed")
          (some result))) ∧
    ∀ message, NodeStatusInput.ofJson (fallbackText ctx graph nodeId message) =
      .ok (loopWrite ctx graph nodeId 1 "failed" (some message)) :=
  ⟨fun _ => node_status_input_of_serialize _ _ _ _ _,
    fun _ _ _ => node_status_input_of_serialize _ _ _ _ _,
    fun message => by
      rw [fallbackText, node_status_input_of_loop_stamp, child_stamp_eq]
      rfl⟩

/-- The write that a text stands for. -/
def readWrite (text : String) : NodeStatusInput :=
  (NodeStatusInput.ofJson text).toOption.getD ⟨"", "", "", none, none⟩

section Abandoned

variable {ctx : OrchestrationContext} {graph : FunctionGraph} {nodeId message : String}
  {generations : Nat} {terminal : Option (Bool × String)}

/-- The texts that are scheduled for the loop's row. -/
theorem mem_abandoned_loop_texts {text : String} :
    text ∈ abandonedLoopTexts ctx graph nodeId generations terminal message ↔
      (∃ generation, 1 ≤ generation ∧ generation ≤ generations ∧
        text = runningText ctx graph nodeId generation) ∨
      (∃ completed result, terminal = some (completed, result) ∧
        text = terminalText ctx graph nodeId generations completed result) ∨
      text = fallbackText ctx graph nodeId message := by
  unfold abandonedLoopTexts
  simp only [List.mem_append, List.mem_map, List.mem_range, Option.mem_toList,
    Option.map_eq_some_iff, List.mem_singleton, Prod.exists, or_assoc]
  constructor
  · rintro (⟨index, hindex, rfl⟩ | ⟨completed, result, hterminal, rfl⟩ | rfl)
    · exact Or.inl ⟨index + 1, by omega, by omega, rfl⟩
    · exact Or.inr (Or.inl ⟨completed, result, hterminal, rfl⟩)
    · exact Or.inr (Or.inr rfl)
  · rintro (⟨generation, hlow, hhigh, rfl⟩ | ⟨completed, result, hterminal, rfl⟩ | rfl)
    · exact Or.inl ⟨generation - 1, by omega, by rw [Nat.sub_add_cancel hlow]⟩
    · exact Or.inr (Or.inl ⟨completed, result, hterminal, rfl⟩)
    · exact Or.inr (Or.inr rfl)

/-- What each text stands for. -/
theorem read_write_texts (ctx : OrchestrationContext) (graph : FunctionGraph) (nodeId : String) :
    (∀ generation, readWrite (runningText ctx graph nodeId generation) =
      loopWrite ctx graph nodeId generation "running" none) ∧
    (∀ generation completed result,
      readWrite (terminalText ctx graph nodeId generation completed result) =
        loopWrite ctx graph nodeId generation (if completed then "completed" else "failed")
          (some result)) ∧
    ∀ message, readWrite (fallbackText ctx graph nodeId message) =
      loopWrite ctx graph nodeId 1 "failed" (some message) := by
  obtain ⟨hrunning, hterminal, hfallback⟩ := loop_texts_read ctx graph nodeId
  refine ⟨fun _ => ?_, fun _ _ _ => ?_, fun _ => ?_⟩
  · rw [readWrite, hrunning]; rfl
  · rw [readWrite, hterminal]; rfl
  · rw [readWrite, hfallback]; rfl

/-- Applying the texts is applying the writes they stand for. -/
theorem fold_texts {arrival : List String}
    (h : ∀ text ∈ arrival, text ∈ abandonedLoopTexts ctx graph nodeId generations terminal message)
    (row : NodeRow) :
    arrival.foldl applyStatusText row =
      (arrival.map readWrite).foldl applyStatusWrite row := by
  obtain ⟨hrunning, hterminal, hfallback⟩ := loop_texts_read ctx graph nodeId
  induction arrival generalizing row with
  | nil => rfl
  | cons text arrival ih =>
      have hread : ∃ write, NodeStatusInput.ofJson text = .ok write := by
        rcases mem_abandoned_loop_texts.1 (h text (by simp)) with
          ⟨_, _, _, rfl⟩ | ⟨_, _, _, rfl⟩ | rfl
        · exact ⟨_, hrunning _⟩
        · exact ⟨_, hterminal _ _ _⟩
        · exact ⟨_, hfallback _⟩
      obtain ⟨write, hwrite⟩ := hread
      rw [List.foldl_cons, List.map_cons, List.foldl_cons,
        ih fun other hother => h other (by simp [hother])]
      simp [applyStatusText, readWrite, hwrite, Except.toOption]

end Abandoned

/-! ## Stamps of the child -/

/-- The orchestration that runs the loop's parent: a real scope, in a generation within range, and
a loop node id that is a token. -/
structure ParentOf (ctx : OrchestrationContext) (nodeId : String) where
  scope : Scope
  generation : Generation
  node : Token
  instance_eq : ctx.instanceId = scope.instanceId
  execution_eq : (ctx.executionId : Int) = generation.value
  node_eq : nodeId = node.text

variable {ctx : OrchestrationContext} {graph : FunctionGraph} {nodeId message : String}
  {generations : Nat} {terminal : Option (Bool × String)}

/-- The stamp of a child generation is the text of a stamp of the child's scope. -/
theorem loop_child_stamp_text (parent : ParentOf ctx nodeId) {generation : Nat}
    (h : generation < 2 ^ 63) :
    loopChildStamp ctx nodeId generation =
      Stamp.text ⟨parent.scope.child parent.generation parent.node,
        ⟨generation, by omega, by omega⟩⟩ := by
  have hexecution : toString ctx.executionId = parent.generation.text := by
    rw [Generation.text, ← parent.execution_eq]
    rfl
  rw [loopChildStamp, Stamp.text, instance_id_child, subtreeInstanceId, parent.instance_eq,
    hexecution, ← parent.node_eq]
  rfl

/-- The child's stamps share one lineage, and their generation vectors differ in the last
generation only. -/
theorem loop_child_stamp_lineage (parent : ParentOf ctx nodeId) {generation : Nat}
    (h : generation < 2 ^ 63) :
    SharesLineage parent.scope.root.text
        ((parent.scope.child parent.generation parent.node).spawns.map (·.2.text))
        (loopChildStamp ctx nodeId generation) ∧
      stampGenerations (loopChildStamp ctx nodeId generation) =
        (parent.scope.child parent.generation parent.node).spawns.map (·.1.value) ++
          [(generation : Int)] := by
  rw [loop_child_stamp_text parent h]
  have hparse := parse_stamp_text ⟨parent.scope.child parent.generation parent.node,
    ⟨generation, by omega, by omega⟩⟩
  refine ⟨⟨_, _, hparse, ?_, rfl⟩, ?_⟩
  · simp [split_tokens_instance_id, Scope.child]
  · simp [stampGenerations, stampLineage, hparse]

/-- Vectors that differ in the last entry only compare like it. -/
theorem append_singleton_le_iff (front : List Int) (a b : Int) :
    front ++ [a] ≤ front ++ [b] ↔ a ≤ b := by
  rw [← not_lt, ← not_lt, not_iff_not]
  induction front with
  | nil => simp [List.cons_lt_cons_iff]
  | cons first front ih => simp [ih]

/-- Writes of the child compare by their generation. -/
theorem loop_write_generations (parent : ParentOf ctx nodeId) {a b : Nat} (ha : a < 2 ^ 63)
    (hb : b < 2 ^ 63) {statusA statusB : String} {resultA resultB : Option String} :
    (loopWrite ctx graph nodeId a statusA resultA).generations ≤
      (loopWrite ctx graph nodeId b statusB resultB).generations ↔ a ≤ b := by
  have hvectorA := (loop_child_stamp_lineage parent ha).2
  have hvectorB := (loop_child_stamp_lineage parent hb).2
  simp only [NodeStatusInput.generations, loopWrite, Option.getD_some, hvectorA, hvectorB,
    append_singleton_le_iff]
  omega

/-! ## When the row ends terminal -/

/-- A terminal write of the last generation arrives after that generation's `running`. The
fallback is such a write only for a child with one generation. -/
def TerminalArrivesLast (ctx : OrchestrationContext) (graph : FunctionGraph)
    (nodeId : String) (generations : Nat) (terminal : Option (Bool × String)) (message : String)
    (arrival : List String) : Prop :=
  ∃ before text after, arrival = before ++ text :: after ∧
    ((∃ completed result, terminal = some (completed, result) ∧
        text = terminalText ctx graph nodeId generations completed result) ∨
      (generations = 1 ∧ text = fallbackText ctx graph nodeId message)) ∧
    runningText ctx graph nodeId generations ∉ after

/-- Every text stands for a write of some generation up to the last, and it is either that
generation's `running` or terminal. -/
theorem read_abandoned_text {text : String} (hone : 1 ≤ generations)
    (h : text ∈ abandonedLoopTexts ctx graph nodeId generations terminal message) :
    ∃ generation status result, generation ≤ generations ∧
      readWrite text = loopWrite ctx graph nodeId generation status result ∧
      ((isTerminalStatus status = false ∧ text = runningText ctx graph nodeId generation) ∨
        (isTerminalStatus status = true ∧
          ((∃ completed result, terminal = some (completed, result) ∧
              text = terminalText ctx graph nodeId generations completed result) ∨
            (generation = 1 ∧ text = fallbackText ctx graph nodeId message)))) := by
  obtain ⟨hrunning, hterminal, hfallback⟩ := read_write_texts ctx graph nodeId
  rcases mem_abandoned_loop_texts.1 h with
    ⟨generation, -, hle, rfl⟩ | ⟨completed, result, hsome, rfl⟩ | rfl
  · exact ⟨generation, "running", none, hle, hrunning _, Or.inl ⟨by decide, rfl⟩⟩
  · refine ⟨generations, _, _, le_refl _, hterminal _ _ _, Or.inr ⟨?_, Or.inl ⟨_, _, hsome, rfl⟩⟩⟩
    cases completed <;> decide
  · exact ⟨1, "failed", some message, hone, hfallback _, Or.inr ⟨by decide, Or.inr ⟨rfl, rfl⟩⟩⟩

/-- The applied writes leave the status of the newest text. -/
theorem abandoned_loop_newest {row : NodeRow} {arrival : List String}
    (parent : ParentOf ctx nodeId) (hone : 1 ≤ generations) (hrange : generations < 2 ^ 63)
    (hrow : executionIdFromDetails row.statusDetails = none)
    (harrival : arrival.Perm
      (abandonedLoopTexts ctx graph nodeId generations terminal message))
    (happlied : ∀ text ∈ arrival, (readWrite text).accepted) :
    ∃ before text after,
      IsNewest (fun text => (readWrite text).generations) arrival before text after ∧
      (arrival.foldl applyStatusText row).status = (readWrite text).status := by
  have hleaves : LeavesNewest row (arrival.map readWrite) := by
    refine @leaves_newest parent.scope.root.text
      ((parent.scope.child parent.generation parent.node).spawns.map (·.2.text)) _ _ hrow ?_ ?_
    · intro write hwrite
      obtain ⟨text, hmem, rfl⟩ := List.mem_map.1 hwrite
      obtain ⟨generation, status, result, hle, hread, -⟩ :=
        read_abandoned_text hone (harrival.mem_iff.1 hmem)
      rw [hread]
      exact ⟨_, rfl, (loop_child_stamp_lineage parent (by omega)).1⟩
    · have hlast : fallbackText ctx graph nodeId message ∈ arrival :=
        harrival.mem_iff.2 (mem_abandoned_loop_texts.2 (Or.inr (Or.inr rfl)))
      exact ⟨_, List.mem_map_of_mem hlast, happlied _ hlast⟩
  obtain ⟨before, write, after, hnewest, -, -, hstatus, -⟩ := hleaves
  have hall : (arrival.map readWrite).filter NodeStatusInput.accepted =
      arrival.map readWrite := by
    rw [List.filter_eq_self]
    intro write hwrite
    obtain ⟨text, hmem, rfl⟩ := List.mem_map.1 hwrite
    exact happlied text hmem
  rw [hall] at hnewest
  obtain ⟨front, text, rest, htexts, rfl⟩ := hnewest.of_map
  refine ⟨front, text, rest, htexts, ?_⟩
  rw [fold_texts fun text hmem => harrival.mem_iff.1 hmem, hstatus]

/-- The row comes from before the child: what an earlier visit of the loop stamped there supersedes
none of the child's generations. -/
def PrecedesChild (ctx : OrchestrationContext) (nodeId : String) (generations : Nat)
    (row : NodeRow) : Prop :=
  ∀ generation ≤ generations, incomingStampIsSuperseded (loopChildStamp ctx nodeId generation)
    (executionIdFromDetails row.statusDetails) = false

/-- A write treats rows with one status and stamp alike. -/
theorem apply_status_write_congr {row other : NodeRow} {write : NodeStatusInput} {stamp : String}
    (haccepted : write.accepted) (hstamp : write.executionId = some stamp)
    (h : row.status = other.status ∧ row.statusDetails = other.statusDetails) :
    (applyStatusWrite row write).status = (applyStatusWrite other write).status ∧
      (applyStatusWrite row write).statusDetails =
        (applyStatusWrite other write).statusDetails := by
  cases hfence : incomingStampIsSuperseded stamp (executionIdFromDetails row.statusDetails) with
  | true =>
      rw [apply_status_write_fenced hstamp hfence,
        apply_status_write_fenced hstamp (h.2 ▸ hfence)]
      exact h
  | false =>
      rw [apply_status_write_admitted haccepted hstamp hfence,
        apply_status_write_admitted haccepted hstamp (h.2 ▸ hfence)]
      exact ⟨rfl, rfl⟩

/-- Whole arrivals treat such rows alike. -/
theorem fold_writes_congr {row other : NodeRow} {writes : List NodeStatusInput}
    (hwrites : ∀ write ∈ writes, write.accepted ∧ ∃ stamp, write.executionId = some stamp)
    (h : row.status = other.status ∧ row.statusDetails = other.statusDetails) :
    (writes.foldl applyStatusWrite row).status = (writes.foldl applyStatusWrite other).status := by
  induction writes generalizing row other with
  | nil => exact h.1
  | cons write writes ih =>
      obtain ⟨haccepted, stamp, hstamp⟩ := hwrites write (by simp)
      exact ih (fun next hnext => hwrites next (by simp [hnext]))
        (apply_status_write_congr haccepted hstamp h)

/-- What the row held before the child does not matter. -/
theorem abandoned_loop_fresh_row {row : NodeRow} {arrival : List String} (hone : 1 ≤ generations)
    (hrow : PrecedesChild ctx nodeId generations row)
    (harrival : arrival.Perm (abandonedLoopTexts ctx graph nodeId generations terminal message))
    (happlied : ∀ text ∈ arrival, (readWrite text).accepted) :
    (arrival.foldl applyStatusText row).status =
      (arrival.foldl applyStatusText { row with statusDetails := none }).status := by
  have hmem : ∀ text ∈ arrival, _ := fun text h => harrival.mem_iff.1 h
  have hwrite : ∀ text ∈ arrival, ∃ generation ≤ generations, (readWrite text).executionId =
      some (loopChildStamp ctx nodeId generation) := by
    intro text h
    obtain ⟨generation, status, result, hle, hread, -⟩ := read_abandoned_text hone (hmem text h)
    exact ⟨generation, hle, by rw [hread]; rfl⟩
  rw [fold_texts hmem, fold_texts hmem]
  cases arrival with
  | nil => rfl
  | cons first rest =>
      obtain ⟨generation, hle, hstamp⟩ := hwrite first (by simp)
      have haccepted := happlied first (by simp)
      rw [List.map_cons, List.foldl_cons, List.foldl_cons,
        apply_status_write_admitted haccepted hstamp (hrow generation hle),
        apply_status_write_admitted haccepted hstamp (by rfl)]
      refine fold_writes_congr ?_ ⟨rfl, rfl⟩
      intro write hmap
      obtain ⟨text, htext, rfl⟩ := List.mem_map.1 hmap
      obtain ⟨generation, -, hstamp⟩ := hwrite text (by simp [htext])
      exact ⟨happlied text (by simp [htext]), _, hstamp⟩

/-- A race whose right branch is a loop. -/
def raceWithLoop : FunctionGraph where
  instanceId := "aaaaaaaa"
  rootNodeId := "bbbbbbbb"
  nodes :=
    ((∅ : Std.ExtTreeMap String FunctionNode).insert "bbbbbbbb"
      ⟨"bbbbbbbb", "RACE", none, none, some "cccccccc", some "dddddddd", "alice", none⟩).insert
      "dddddddd" ⟨"dddddddd", "LOOP", none, none, some "eeeeeeee", none, "alice", none⟩
  sqlQuotingVersion := .v1

/-- The first generation of the root orchestration, at the race. -/
def raceContext : OrchestrationContext := ⟨.quiet, "aaaaaaaa", 1, []⟩

/-- The writes for the loop of the race, when it lost in a generation. -/
theorem race_loop_writes (generations : Nat) :
    (abandonedLoopTexts raceContext raceWithLoop "dddddddd" generations none
        "Loop branch cancelled after losing RACE").map readWrite =
      (List.range generations).map (fun index =>
        loopWrite raceContext raceWithLoop "dddddddd" (index + 1) "running" none) ++
      [loopWrite raceContext raceWithLoop "dddddddd" 1 "failed"
        (some "Loop branch cancelled after losing RACE")] := by
  obtain ⟨hrunning, -, hfallback⟩ := read_write_texts raceContext raceWithLoop "dddddddd"
  simp [abandonedLoopTexts, hrunning, hfallback, Function.comp_def]

end PgDurable.Orchestration
