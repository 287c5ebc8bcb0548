import PgDurable.Orchestration.Admission
import PgDurable.Orchestration.LoadFunctionGraph

/-!
# The probe and the caller's transaction

The transaction that called `df.start` is open, then recorded as committed, then visible to new
snapshots; or open, then aborted. The rows of the start may be undone by a savepoint while it is
open. Every statement of a probe sees the transaction as it is at that moment, may fail or time
out, and anything may happen to the transaction before the next one.

`probe_never_misjudges` says that in every interleaving of the transaction with any number of
probes, each verdict is true of the transaction: a graph is ready only when its rows are committed
and visible, a start is given up as aborted only when its transaction aborted, and as missing only
when its transaction committed without the rows.
-/

namespace PgDurable.Orchestration

open Json Instances

/-! ## The transaction -/

/-- Where a transaction is. A commit is recorded before new snapshots see it. -/
inductive TransactionPhase where
  | open
  | recorded
  | visible
  | aborted
  deriving DecidableEq

/-- The rows that a start writes: the root node of the instance row, and the node rows. -/
structure StartedGraph where
  rootNode : String
  nodes : List NodeColumns

/-- The transaction of the caller with the rows of the start that no savepoint has undone. -/
structure OriginTransaction where
  phase : TransactionPhase
  started : Option StartedGraph

/-- The rows that a statement with a new snapshot sees. -/
def OriginTransaction.snapshot (tx : OriginTransaction) : Option StartedGraph :=
  match tx.phase with
  | .visible => tx.started
  | _ => none

/-- One step of the transaction. The start may run in a subtransaction that is rolled back. -/
inductive TransactionStep : OriginTransaction → OriginTransaction → Prop
  | start (graph : StartedGraph) : TransactionStep ⟨.open, none⟩ ⟨.open, some graph⟩
  | rollbackToSavepoint (graph : StartedGraph) : TransactionStep ⟨.open, some graph⟩ ⟨.open, none⟩
  | recordCommit (started : Option StartedGraph) :
      TransactionStep ⟨.open, started⟩ ⟨.recorded, started⟩
  | leaveRunningSet (started : Option StartedGraph) :
      TransactionStep ⟨.recorded, started⟩ ⟨.visible, started⟩
  | abort (started : Option StartedGraph) : TransactionStep ⟨.open, started⟩ ⟨.aborted, started⟩

/-- What `pg_xact_status` may answer. The status of an old transaction may have been discarded, and
a transaction that is just committing may still be reported as running. -/
def TransactionPhase.Status : TransactionPhase → Option String → Prop
  | .open, status => status = some "in progress"
  | .recorded, status => status = some "in progress" ∨ status = some "committed"
  | .visible, status => status = some "committed" ∨ status = none
  | .aborted, status => status = some "aborted" ∨ status = none

/-- What `pg_visible_in_snapshot` answers for the current snapshot: the transaction is no longer
among the running ones. -/
def TransactionPhase.visibleInSnapshot : TransactionPhase → Bool
  | .open | .recorded => false
  | .visible | .aborted => true

section Probe

variable (instanceId originXid : String)

/-- The answers that a statement may get from the transaction. Any statement may fail or time out,
and roles come and go; statements about other ids may answer anything. -/
def Answers (tx : OriginTransaction) : (q : ProbeStatement) → q.Answer → Prop
  | .findVisibleInstance id, some (.ok row) =>
      id = instanceId → row.map VisibleInstance.rootNode = tx.snapshot.map StartedGraph.rootNode
  | .pgXactStatus xid, some (.ok status) => xid = originXid → tx.phase.Status status
  | .pgVisibleInSnapshot xid, some (.ok visible) =>
      xid = originXid → visible = tx.phase.visibleInSnapshot
  | .fetchNodeRows id, some (.ok rows) =>
      id = instanceId → rows.map Prod.fst = (tx.snapshot.map StartedGraph.nodes).getD []
  | _, _ => True

/-- The transaction with any number of probes of its instance, one after the other or at once. -/
def admission (ι : Type) (parseStr : String → Option Uuid) (superuserInstancesEnabled : Bool) :
    Interleaving ι OriginTransaction ProbeStatement ProbeStatement.Answer
      (Except String String) where
  event := TransactionStep
  call _ program := ∃ engineId, program =
    probeActivity parseStr superuserInstancesEnabled engineId (probeInput instanceId originXid)
  command _ _ _ := False
  act _ tx q answer tx' := Answers instanceId originXid tx q answer ∧ tx' = tx

/-- The text is the serialized graph of the rows that the start wrote. -/
def SerializedFrom (started : StartedGraph) (text : String) : Prop :=
  ∃ rows nodes, rows.map Prod.fst = started.nodes ∧
    collectNodes instanceId rows = .ok nodes ∧
    text = FunctionGraph.toJson ⟨instanceId, started.rootNode, nodes, .v1⟩

/-- The transaction bears a verdict out. -/
def Verdict (tx : OriginTransaction) : TransactionGraphProbe → Prop
  | .ready graph => tx.phase = .visible ∧
      ∃ started, tx.started = some started ∧ SerializedFrom instanceId started graph
  | .aborted => tx.phase = .aborted
  | .committedMissing => tx.phase = .visible ∧ tx.started = none
  | .inProgress | .retry => True

/-- The verdict in the answer of a probe activity. -/
def verdictOf (answer : Except String String) : Except String TransactionGraphProbe :=
  answer.bind fun text => (fromStr text).bind TransactionGraphProbe.decode

/-- The transaction bears the answer of a probe activity out. -/
def Judged (answer : Except String String) (tx : OriginTransaction) : Prop :=
  ∀ probe, verdictOf answer = .ok probe → Verdict instanceId tx probe

/-! ## What no step undoes -/

/-- A verdict stays true. -/
theorem verdict_stable {tx tx' : OriginTransaction} {probe : TransactionGraphProbe}
    (h : Verdict instanceId tx probe) (hstep : TransactionStep tx tx') :
    Verdict instanceId tx' probe := by
  cases probe with
  | inProgress | retry => trivial
  | ready graph | aborted | committedMissing => cases hstep <;> simp_all [Verdict]

/-- Rows that snapshots see stay. -/
theorem snapshot_stable {tx tx' : OriginTransaction} {started : StartedGraph}
    (h : tx.snapshot = some started) (hstep : TransactionStep tx tx') :
    tx'.snapshot = some started := by
  cases hstep <;> simp_all [OriginTransaction.snapshot]

/-- A recorded commit stays. -/
theorem committed_stable {tx tx' : OriginTransaction}
    (h : tx.phase = .recorded ∨ tx.phase = .visible) (hstep : TransactionStep tx tx') :
    tx'.phase = .recorded ∨ tx'.phase = .visible := by
  cases hstep <;> simp_all

/-- A commit that snapshots see stays. -/
theorem visible_stable {tx tx' : OriginTransaction} (h : tx.phase = .visible)
    (hstep : TransactionStep tx tx') : tx'.phase = .visible := by
  cases hstep <;> simp_all

/-- Snapshots see rows only of a transaction that is visible. -/
theorem snapshot_eq_some {tx : OriginTransaction} {started : StartedGraph}
    (h : tx.snapshot = some started) : tx.phase = .visible ∧ tx.started = some started := by
  obtain ⟨phase, rows⟩ := tx
  cases phase with
  | visible => exact ⟨rfl, h⟩
  | «open» | recorded | aborted => simp [OriginTransaction.snapshot] at h

/-! ## The answers of the activity -/

/-- The answers of a probe activity read back as their verdicts. -/
theorem verdict_of_serialize (probe : TransactionGraphProbe) :
    verdictOf (serializeProbe probe) = .ok probe := by
  have hwf : probe.encode.WellFormed := by
    cases probe <;>
      simp [TransactionGraphProbe.encode, Value.WellFormed, Value.WellFormedMembers]
  have hdepth : probe.encode.depth ≤ 1 := by
    cases probe <;> simp [TransactionGraphProbe.encode, Value.depth, Value.depthMembers]
  show (fromStr (print probe.encode)).bind TransactionGraphProbe.decode = _
  rw [from_str_print hwf (by unfold recursionLimit; omega)]
  cases probe <;> rfl

/-- The input of the probe reads back. -/
theorem probe_input_decodes :
    (fromStr (probeInput instanceId originXid)).bind TransactionAwareLoadInput.decode =
      .ok ⟨instanceId, originXid⟩ := by
  rw [probeInput, from_str_print (by simp [Value.WellFormed, Value.WellFormedMembers])
    (by simp [Value.depth, Value.depthMembers, recursionLimit])]
  rfl

/-! ## One probe -/

/-- A program of the probe that ends in `post`, whatever the transaction does meanwhile. It only
reads. -/
abbrev ProbeSound {α : Type} (post : α → OriginTransaction → Prop) (program : Probe α)
    (tx : OriginTransaction) : Prop :=
  Asks.Safe TransactionStep
    (fun tx q answer tx' => Answers instanceId originXid tx q answer ∧ tx' = tx)
    (fun tx _ _ tx' => tx' = tx) post program tx

variable {instanceId originXid} {α : Type} {post : α → OriginTransaction → Prop}
variable {tx : OriginTransaction}

/-- A statement is sound when a stable fact and its answer make the rest sound. -/
theorem sound_read {P : OriginTransaction → Prop} {q : ProbeStatement} {next : q.Answer → Probe α}
    (hstable : ∀ tx tx', P tx → TransactionStep tx tx' → P tx') (h : P tx)
    (hnext : ∀ tx answer, P tx → Answers instanceId originXid tx q answer →
      ProbeSound instanceId originXid post (next answer) tx) :
    ProbeSound instanceId originXid post (Asks.ask q next) tx := by
  apply Asks.safe_ask hstable h
  rintro tx answer _ hP ⟨hanswer, rfl⟩
  exact ⟨rfl, hnext _ answer hP hanswer⟩

/-- An answer with a true verdict is sound. -/
theorem sound_verdict {probe : TransactionGraphProbe} (h : Verdict instanceId tx probe) :
    ProbeSound instanceId originXid (Judged instanceId) (pure (serializeProbe probe)) tx := by
  refine Asks.safe_done (fun _ _ => verdict_stable instanceId) h fun tx htrue found hfound => ?_
  rw [verdict_of_serialize] at hfound
  exact Except.ok.inj hfound ▸ htrue

/-- A failed activity gives no verdict. -/
theorem sound_error (e : String) :
    ProbeSound instanceId originXid (Judged instanceId) (pure (.error e)) tx :=
  Asks.safe_done (P := fun _ => True) (fun _ _ _ _ => trivial) trivial
    fun _ _ _ hfound => nomatch hfound

/-- A client error is retried or fails the activity. -/
theorem sound_error_outcome (operation id : String) (error : SqlxError) :
    ProbeSound instanceId originXid (Judged instanceId) (pure (probeErrorOutcome operation id error))
      tx := by
  rw [probeErrorOutcome]
  cases classifySqlxError error with
  | transient => exact sound_verdict trivial
  | permanent => exact sound_error _

/-- The superuser guard leaves the rows where they are. -/
theorem superuser_guard_sound (enabled : Bool) (submittedBy : String) {started : StartedGraph}
    (h : tx.snapshot = some started) :
    ProbeSound instanceId originXid (fun _ tx => tx.snapshot = some started)
      (superuserGuard enabled instanceId submittedBy) tx := by
  have hdone : ∀ {result : Option (Except LoadGraphError Unit)} {tx : OriginTransaction},
      tx.snapshot = some started → ProbeSound instanceId originXid
        (fun _ tx => tx.snapshot = some started) (pure result) tx :=
    fun h => Asks.safe_done (fun _ _ => snapshot_stable) h fun _ h => h
  cases enabled with
  | true => exact hdone h
  | false =>
      refine sound_read (fun _ _ => snapshot_stable) h fun tx answer h _ => ?_
      rcases answer with _ | e | _ | _ <;> exact hdone h

/-- A graph that is loaded is the graph of the visible rows. -/
theorem load_visible_graph_sound (enabled : Bool) {row : VisibleInstance} {started : StartedGraph}
    (h : tx.snapshot = some started) (hrow : row.rootNode = started.rootNode) :
    ProbeSound instanceId originXid
      (fun loaded tx => tx.snapshot = some started ∧
        ∀ text, loaded = some (.ok text) → SerializedFrom instanceId started text)
      (loadVisibleGraph enabled instanceId row) tx := by
  have hdone : ∀ {loaded : Option (Except LoadGraphError String)} {tx : OriginTransaction},
      tx.snapshot = some started →
      (∀ text, loaded = some (.ok text) → SerializedFrom instanceId started text) →
      ProbeSound instanceId originXid (fun loaded tx => tx.snapshot = some started ∧
        ∀ text, loaded = some (.ok text) → SerializedFrom instanceId started text)
        (pure loaded) tx :=
    fun h htext => Asks.safe_done (fun _ _ => snapshot_stable) h fun _ h => ⟨h, htext⟩
  rw [loadVisibleGraph]
  cases row.submittedBy with
  | none => exact hdone h nofun
  | some submittedBy =>
      refine Asks.safe_bind (superuser_guard_sound enabled submittedBy h) fun guard tx h => ?_
      rcases guard with _ | e | _
      · exact hdone h nofun
      · exact hdone h nofun
      · refine sound_read (fun _ _ => snapshot_stable) h fun tx answer h hanswer => ?_
        rcases answer with _ | e | rows
        · exact hdone h nofun
        · exact hdone h nofun
        · refine hdone h fun text htext => ?_
          have hrows : rows.map Prod.fst = started.nodes := by
            have hread := hanswer rfl
            rwa [h] at hread
          cases hnodes : collectNodes instanceId rows with
          | error e => rw [hnodes] at htext; nomatch htext
          | ok nodes =>
              rw [hnodes] at htext
              refine ⟨rows, nodes, hrows, hnodes, ?_⟩
              rw [← hrow]
              exact (Except.ok.inj (Option.some.inj htext)).symm

/-- A visible row is answered with its graph. -/
theorem probe_visible_sound (enabled : Bool) {row : VisibleInstance} {started : StartedGraph}
    (h : tx.snapshot = some started) (hrow : row.rootNode = started.rootNode) :
    ProbeSound instanceId originXid (Judged instanceId) (probeVisible enabled instanceId row) tx := by
  refine Asks.safe_bind (load_visible_graph_sound enabled h hrow) fun loaded tx hloaded => ?_
  obtain ⟨h, htext⟩ := hloaded
  obtain ⟨hphase, hstarted⟩ := snapshot_eq_some h
  rcases loaded with _ | (e | e) | text
  · exact sound_verdict trivial
  · exact sound_verdict trivial
  · exact sound_error e
  · exact sound_verdict ⟨hphase, started, hstarted, htext text rfl⟩

/-- What the instance query found and the transaction. -/
theorem find_visible_some {row : VisibleInstance}
    (h : Answers instanceId originXid tx (.findVisibleInstance instanceId) (some (.ok (some row)))) :
    ∃ started, tx.snapshot = some started ∧ row.rootNode = started.rootNode := by
  have hread := h rfl
  cases hsnapshot : tx.snapshot with
  | none => rw [hsnapshot] at hread; nomatch hread
  | some started =>
      rw [hsnapshot] at hread
      exact ⟨started, rfl, Option.some.inj hread⟩

/-- The branch of a recorded commit. The re-read is trusted only once snapshots see the
transaction. -/
theorem probe_committed_sound (enabled : Bool) (h : tx.phase = .recorded ∨ tx.phase = .visible) :
    ProbeSound instanceId originXid (Judged instanceId)
      (probeCommitted enabled ⟨instanceId, originXid⟩) tx := by
  refine sound_read (fun _ _ => committed_stable) h fun tx answer h hanswer => ?_
  rcases answer with _ | e | visible
  · exact sound_verdict trivial
  · exact sound_error_outcome _ _ e
  · cases visible with
    | false => exact sound_verdict trivial
    | true =>
        -- an aborted transaction is seen as well, but this one is recorded as committed
        have hvisible : tx.phase = .visible := by
          have hread : true = tx.phase.visibleInSnapshot := hanswer rfl
          rcases h with h | h
          · rw [h] at hread
            nomatch hread
          · exact h
        refine sound_read (fun _ _ => visible_stable) hvisible fun tx answer hvisible hanswer => ?_
        rcases answer with _ | e | _ | row
        · exact sound_verdict trivial
        · exact sound_error_outcome _ _ e
        · have hmissing : tx.started = none := by
            have hread := hanswer rfl
            rw [OriginTransaction.snapshot, hvisible] at hread
            exact Option.map_eq_none_iff.mp hread.symm
          exact sound_verdict ⟨hvisible, hmissing⟩
        · obtain ⟨started, hsnapshot, hrow⟩ := find_visible_some hanswer
          exact probe_visible_sound enabled hsnapshot hrow

/-- What the statuses say of the transaction. -/
theorem status_committed {phase : TransactionPhase} (h : phase.Status (some "committed")) :
    phase = .recorded ∨ phase = .visible := by
  cases phase <;> simp_all [TransactionPhase.Status]

/-- Only an aborted transaction has the status of one. -/
theorem status_aborted {phase : TransactionPhase} (h : phase.Status (some "aborted")) :
    phase = .aborted := by
  cases phase <;> simp_all [TransactionPhase.Status]

/-- The branches of a transaction whose rows were not visible. -/
theorem probe_status_sound (enabled : Bool) :
    ProbeSound instanceId originXid (Judged instanceId) (probeStatus enabled ⟨instanceId, originXid⟩)
      tx := by
  refine sound_read (P := fun _ => True) (fun _ _ _ _ => trivial) trivial
    fun tx answer _ hanswer => ?_
  rcases answer with _ | e | _ | status
  · exact sound_verdict trivial
  · exact sound_error_outcome _ _ e
  · exact sound_error _
  · have hstatus : tx.phase.Status (some status) := hanswer rfl
    simp only [Asks.andThen]
    split
    case h_1 heq => nomatch heq
    case h_2 heq => nomatch heq
    case h_3 heq => exact sound_verdict trivial
    case h_4 heq =>
        cases heq
        exact sound_verdict (status_aborted hstatus)
    case h_5 heq =>
        cases heq
        exact probe_committed_sound enabled (status_committed hstatus)
    case h_6 heq => exact sound_error _
    case h_7 heq => nomatch heq

/-- One probe: its answer is true of the transaction, from whatever state it starts. -/
theorem probe_activity_sound (parseStr : String → Option Uuid) (enabled : Bool)
    (engineId : String) :
    ProbeSound instanceId originXid (Judged instanceId)
      (probeActivity parseStr enabled engineId (probeInput instanceId originXid)) tx := by
  refine sound_read (P := fun _ => True) (fun _ _ _ _ => trivial) trivial
    fun tx answer _ _ => ?_
  rcases answer with (e | e) | _
  · exact sound_verdict trivial
  · exact sound_error e
  · show ProbeSound instanceId originXid (Judged instanceId)
      (probeTransaction parseStr enabled engineId (probeInput instanceId originXid)) tx
    rw [probeTransaction]
    cases Origin.fromEngineId parseStr engineId with
    | error e => exact sound_error e
    | ok origin =>
        dsimp only
        rw [probe_input_decodes]
        dsimp only
        split
        · exact sound_error _
        · refine sound_read (P := fun _ => True) (fun _ _ _ _ => trivial) trivial
            fun tx answer _ hanswer => ?_
          rcases answer with _ | e | _ | row
          · exact sound_verdict trivial
          · exact sound_error_outcome _ _ e
          · exact probe_status_sound enabled
          · obtain ⟨started, hsnapshot, hrow⟩ := find_visible_some hanswer
            exact probe_visible_sound enabled hsnapshot hrow

/-! ## Any number of probes -/

/-- The transaction and its probes respect each other. -/
theorem admission_discipline {ι : Type} [DecidableEq ι] (parseStr : String → Option Uuid)
    (enabled : Bool) :
    Discipline (admission instanceId originXid ι parseStr enabled) (fun _ => True)
      (fun _ => TransactionStep) (fun _ tx _ _ tx' => tx' = tx) (fun _ _ => True)
      (fun _ => Judged instanceId) where
  event := fun _ hstep => ⟨trivial, fun _ => .single hstep⟩
  command := fun _ _ hcommand => hcommand.elim
  act := by
    rintro i tx q answer _ _ rfl
    exact ⟨trivial, fun _ _ => .refl⟩
  call := by
    rintro i program tx _ _ ⟨engineId, rfl⟩
    exact (probe_activity_sound parseStr enabled engineId).of_act fun hact => hact.2
  finish := fun _ => trivial
  stable := fun _ _ => trivial

end Probe

/-- In every interleaving of the caller's transaction with any number of probes of its instance,
the transaction bears out the verdict of every probe that has ended; and a transaction that
committed with the rows of the start was given up by none of them. -/
theorem probe_never_misjudges {ι : Type} [DecidableEq ι] (instanceId originXid : String)
    (parseStr : String → Option Uuid) (superuserInstancesEnabled : Bool)
    {s s' : System ι OriginTransaction ProbeStatement ProbeStatement.Answer (Except String String)}
    (hidle : ∀ i, s.running i = none) (hnone : s.ended = [])
    (hrun : System.Reaches
      (admission instanceId originXid ι parseStr superuserInstancesEnabled) s s') :
    ∀ i answer, (i, answer) ∈ s'.ended →
      Judged instanceId answer s'.world ∧
      ((s'.world.phase = .recorded ∨ s'.world.phase = .visible) → s'.world.started.isSome →
        verdictOf answer ≠ .ok .aborted ∧ verdictOf answer ≠ .ok .committedMissing) := by
  intro i answer hmem
  have hjudged : Judged instanceId answer s'.world := by
    refine (admission_discipline parseStr superuserInstancesEnabled).ended trivial
      (fun i => ⟨hidle i, trivial⟩) hnone (fun h hstep => ?_) (fun _ hcommand => hcommand.elim)
      (fun h hsame => ?_) hrun i answer hmem
    · exact fun probe hprobe => verdict_stable instanceId (h probe hprobe) hstep
    · exact hsame ▸ h
  refine ⟨hjudged, fun hcommitted hstarted => ⟨fun haborted => ?_, fun hmissing => ?_⟩⟩
  · have hphase : s'.world.phase = .aborted := hjudged _ haborted
    rcases hcommitted with h | h <;> exact absurd (h.symm.trans hphase) (by decide)
  · have hrows : s'.world.started = none := (hjudged _ hmissing).2
    simp [hrows] at hstarted

section RacingCommit

/-- A start of one SQL node. -/
def oneNodeStart : StartedGraph :=
  ⟨"5e6f7a8b", [⟨"5e6f7a8b", "SQL", some "SELECT 1", none, none, none, none⟩]⟩

/-- The answer to a probe of that start once its rows are visible. -/
def oneNodeAnswer : Except String String :=
  serializeProbe (.ready (FunctionGraph.toJson ⟨"0a1b2c3d", "5e6f7a8b",
    (∅ : Std.ExtTreeMap String FunctionNode).insert "5e6f7a8b"
      ⟨"5e6f7a8b", "SQL", some "SELECT 1", none, none, none, "app", none⟩, .v1⟩))

/-- The transaction commits between the two looks of a probe for its row: the first finds nothing,
the second finds the row. -/
theorem commit_between_looks :
    Asks.Runs TransactionStep
      (fun tx q answer tx' => Answers "0a1b2c3d" "741" tx q answer ∧ tx' = tx)
      ⟨.open, some oneNodeStart⟩
      (probeActivity (fun _ => none) true "0a1b2c3d" (probeInput "0a1b2c3d" "741"))
      ⟨.visible, some oneNodeStart⟩ oneNodeAnswer := by
  have horigin : Origin.fromEngineId (fun _ => none) "0a1b2c3d" = .ok none := by decide +kernel
  have hxid : (Text.parseU64 "741".toList).isNone = false := by decide +kernel
  have hlook : Answers "0a1b2c3d" "741" ⟨.open, some oneNodeStart⟩
      (.findVisibleInstance "0a1b2c3d") (some (.ok none)) := fun _ => rfl
  have hstatus : Answers "0a1b2c3d" "741" ⟨.visible, some oneNodeStart⟩
      (.pgXactStatus "741") (some (.ok (some "committed"))) := fun _ => .inl rfl
  have hsnapshot : Answers "0a1b2c3d" "741" ⟨.visible, some oneNodeStart⟩
      (.pgVisibleInSnapshot "741") (some (.ok true)) := fun _ => rfl
  have hagain : Answers "0a1b2c3d" "741" ⟨.visible, some oneNodeStart⟩
      (.findVisibleInstance "0a1b2c3d") (some (.ok (some ⟨"5e6f7a8b", some "app"⟩))) :=
    fun _ => rfl
  have hnodes : Answers "0a1b2c3d" "741" ⟨.visible, some oneNodeStart⟩
      (.fetchNodeRows "0a1b2c3d")
      (some (.ok [(⟨"5e6f7a8b", "SQL", some "SELECT 1", none, none, none, none⟩, some "app")])) :=
    fun _ => rfl
  have hroute : Answers "0a1b2c3d" "741" ⟨.open, some oneNodeStart⟩ .route (.ok ()) := trivial
  refine .ask ⟨hroute, rfl⟩ ?_
  show Asks.Runs _ _ _ (probeTransaction (fun _ => none) true "0a1b2c3d"
    (probeInput "0a1b2c3d" "741")) _ _
  rw [probeTransaction, horigin]
  dsimp only
  rw [probe_input_decodes]
  dsimp only
  rw [hxid]
  refine .ask ⟨hlook, rfl⟩ (.event (.recordCommit _) (.event (.leaveRunningSet _) ?_))
  refine .ask ⟨hstatus, rfl⟩ (.ask ⟨hsnapshot, rfl⟩ (.ask ⟨hagain, rfl⟩ ?_))
  exact .ask ⟨hnodes, rfl⟩ .done

/-- The start of that transaction is admitted, and the transaction bears it out. -/
theorem racing_commit_admitted :
    Judged "0a1b2c3d" oneNodeAnswer ⟨.visible, some oneNodeStart⟩ ∧
      verdictOf oneNodeAnswer ≠ .ok .aborted ∧ verdictOf oneNodeAnswer ≠ .ok .committedMissing := by
  have hrun : System.Reaches (admission "0a1b2c3d" "741" Nat (fun _ => none) true)
      ⟨⟨.open, some oneNodeStart⟩, fun _ => none, []⟩
      ⟨⟨.visible, some oneNodeStart⟩, fun _ => none, [(0, oneNodeAnswer)]⟩ :=
    System.reaches_call rfl ⟨_, rfl⟩ commit_between_looks
  obtain ⟨hjudged, hadmitted⟩ := probe_never_misjudges "0a1b2c3d" "741" (fun _ => none) true
    (fun _ => rfl) rfl hrun 0 oneNodeAnswer (.head _)
  exact ⟨hjudged, hadmitted (.inr rfl) rfl⟩

end RacingCommit

end PgDurable.Orchestration
