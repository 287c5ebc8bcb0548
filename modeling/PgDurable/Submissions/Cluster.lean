import Mathlib.Data.Finset.Card
import PgDurable.Instances.Origin
import PgDurable.Library.Interleaving

/-!
# Submissions in a cluster

`df.start` works in three places at once: the caller's transaction, which writes `df.instances`; a
ledger transaction on another connection, which reserves the id in `_submissions` and queues the
work; and the engine, which takes the work over. A `Cluster` is what these places hold, committed
or not. `Act` gives the statements that `df.start` and the cleanup of the ledger run: unique indexes
and row locks make a statement wait, so it only acts when nothing is in its way. `Command` is what
a session does to its transaction between two calls, `EngineEvent` what the engine and the
retention do on their own.

Ids stand for the texts in the tables: `engine_id_injective` says that a root and its engine id
determine each other.
-/

namespace PgDurable.Submissions

open Instances

/-! ## Tables -/

/-- Whose quota an id counts against: a role in a database. -/
structure Owner where
  origin : Option Origin
  role : Nat
  deriving DecidableEq

/-- A root id with the role that submitted it: a row of `_submissions`, or what identifies a row of
`df.instances`. -/
structure OwnedId where
  id : RootId
  submittedBy : Nat
  deriving DecidableEq

/-- The owner of a row. -/
def OwnedId.owner (row : OwnedId) : Owner := ⟨row.id.origin, row.submittedBy⟩

/-- What the engine holds for a root: queued work, the instance with the status of its current
execution, and rows of the other tables (`history`, `worker_queue`, `instance_locks`). -/
structure EngineRecord where
  queued : Bool
  present : Bool
  status : Option String
  other : Bool

/-- The engine holds nothing. -/
def EngineRecord.empty : EngineRecord := ⟨false, false, none, false⟩

/-- The engine holds queued work or state. -/
def EngineRecord.hasWork (record : EngineRecord) : Bool :=
  record.queued || record.present || record.status.isSome || record.other

/-- The statuses of executions that have ended. -/
def isTerminal (status : String) : Bool := ["Completed", "Failed"].contains status

/-- The status of the current execution of an instance that the engine knows. -/
def EngineRecord.executionStatus (record : EngineRecord) : Option String :=
  if record.present then record.status else none

/-- Queued and not yet known to the engine, or not ended. -/
def EngineRecord.active (record : EngineRecord) : Bool :=
  match record.executionStatus with
  | some status => !isTerminal status
  | none => record.present || record.queued

/-- What a subtransaction of a caller has done: the instance rows it wrote and the quota locks it
took. -/
structure Frame where
  rows : Finset OwnedId
  locks : Finset Owner

/-- A subtransaction that has done nothing yet. -/
def Frame.empty : Frame := ⟨∅, ∅⟩

/-- What a released savepoint leaves to its parent. -/
def Frame.merge (inner outer : Frame) : Frame :=
  ⟨inner.rows ∪ outer.rows, inner.locks ∪ outer.locks⟩

/-- The rows that the subtransactions of a transaction wrote. -/
def rowsOf : List Frame → Finset OwnedId
  | [] => ∅
  | frame :: frames => frame.rows ∪ rowsOf frames

/-- The tables with the open work of each thread: the subtransactions of its caller, innermost
first, its uncommitted reservation, and the ledger rows that its cleanup is deleting. -/
structure Cluster (ι : Type) where
  ledger : Finset OwnedId
  reserved : ι → Option OwnedId
  deleting : ι → Finset RootId
  instances : Finset OwnedId
  frames : ι → List Frame
  engine : RootId → EngineRecord

variable {ι : Type}

namespace Cluster

/-- The ids of rows. -/
def ids (rows : Finset OwnedId) : Finset RootId := rows.image OwnedId.id

/-- The ids of the rows of an owner. -/
def idsOf (owner : Owner) (rows : Finset OwnedId) : Finset RootId :=
  ids (rows.filter fun row => row.owner = owner)

/-- The thread holds the quota lock of an owner. -/
def Holds (w : Cluster ι) (i : ι) (owner : Owner) : Prop :=
  ∃ frame ∈ w.frames i, owner ∈ frame.locks

/-- The ids of an owner in committed instance rows or in the ledger. -/
def owned (w : Cluster ι) (owner : Owner) : Finset RootId :=
  idsOf owner w.instances ∪ idsOf owner w.ledger

/-- Those of them that are queued or not ended in the engine. -/
def activeOwned (w : Cluster ι) (owner : Owner) : Finset RootId :=
  (w.owned owner).filter fun id => (w.engine id).active

/-- The counts of the quota lookup: given ids and ids in the ledger, and the active ones of them. -/
def submissionCounts (w : Cluster ι) (given : Finset RootId) (owner : Owner)
    (includeActive : Bool) : Nat × Nat :=
  let requested := given ∪ idsOf owner w.ledger
  (requested.card,
    if includeActive then (requested.filter fun id => (w.engine id).active).card else 0)

end Cluster

/-! ## Statements -/

/-- The statements of `df.start` and of the cleanup of the ledger. `raise` is the error that
aborts the caller's subtransaction. -/
inductive Statement where
  | openTransaction
  | acquireInstanceQuotaLock (owner : Owner)
  | currentInstanceIds (owner : Owner)
  | submissionCounts (given : Finset RootId) (owner : Owner) (includeActive : Bool)
  | shortId
  | reserveSubmission (row : OwnedId)
  | rollbackReservation
  | claimInstance (row : OwnedId)
  | insertNodes
  | enqueue
  | raise
  | submissionPage (cursor : String)
  | retiredSubmissions (ids : List RootId)
  | submissionsWithoutMetadata (ids : List RootId)
  | deleteSubmissions (ids : List RootId)
  | commitDelete

/-- What a statement returns. -/
abbrev Statement.Value : Statement → Type
  | .currentInstanceIds _ => Finset RootId
  | .submissionCounts .. => Nat × Nat
  | .shortId => LocalId
  | .reserveSubmission _ | .claimInstance _ => Bool
  | .submissionPage _ | .retiredSubmissions _ | .submissionsWithoutMetadata _ => List RootId
  | _ => Unit

/-- What a statement answers. -/
abbrev Statement.Answer (q : Statement) : Type := Except String q.Value

/-- The statements that may fail without any effect, for instance by a timeout or a broken
connection. -/
def Statement.refusable : Statement → Bool
  | .openTransaction | .shortId | .rollbackReservation | .enqueue | .raise | .commitDelete => false
  | _ => true

variable [DecidableEq ι]

namespace Cluster

/-- The cluster with the transaction of a caller changed. -/
def setFrames (w : Cluster ι) (i : ι) (frames : List Frame) : Cluster ι :=
  { w with frames := Function.update w.frames i frames }

/-- The cluster with a reservation made or given up. -/
def setReserved (w : Cluster ι) (i : ι) (row : Option OwnedId) : Cluster ι :=
  { w with reserved := Function.update w.reserved i row }

/-- The cluster with the deletions of a cleanup. -/
def setDeleting (w : Cluster ι) (i : ι) (ids : Finset RootId) : Cluster ι :=
  { w with deleting := Function.update w.deleting i ids }

/-- The cluster with an engine record changed. -/
def setEngine (w : Cluster ι) (id : RootId) (record : EngineRecord) : Cluster ι :=
  { w with engine := Function.update w.engine id record }

section Updates

variable {w : Cluster ι} {i j : ι} {frames : List Frame} {row : Option OwnedId}
variable {deleted : Finset RootId}

@[simp] theorem set_frames_self : (w.setFrames i frames).frames i = frames :=
  Function.update_self ..

@[simp] theorem set_frames_of_ne (h : j ≠ i) : (w.setFrames i frames).frames j = w.frames j :=
  Function.update_of_ne h ..

@[simp] theorem set_reserved_self : (w.setReserved i row).reserved i = row :=
  Function.update_self ..

@[simp] theorem set_reserved_of_ne (h : j ≠ i) : (w.setReserved i row).reserved j = w.reserved j :=
  Function.update_of_ne h ..

@[simp] theorem set_deleting_self : (w.setDeleting i deleted).deleting i = deleted :=
  Function.update_self ..

@[simp] theorem set_deleting_of_ne (h : j ≠ i) :
    (w.setDeleting i deleted).deleting j = w.deleting j :=
  Function.update_of_ne h ..

omit [DecidableEq ι] in
@[simp] theorem set_engine_self {id : RootId} {record : EngineRecord} :
    (w.setEngine id record).engine id = record :=
  Function.update_self ..

omit [DecidableEq ι] in
@[simp] theorem set_engine_of_ne {id other : RootId} {record : EngineRecord} (h : other ≠ id) :
    (w.setEngine id record).engine other = w.engine other :=
  Function.update_of_ne h ..

end Updates

/-- The ledger transaction commits: the reserved row together with the queued work. -/
def commitSubmission (w : Cluster ι) (i : ι) (row : OwnedId) : Cluster ι :=
  { (w.setReserved i none).setEngine row.id { w.engine row.id with queued := true } with
    ledger := insert row w.ledger }

/-- The cleanup transaction commits: the deleted rows are gone. -/
def commitDeleted (w : Cluster ι) (i : ι) : Cluster ι :=
  { w.setDeleting i ∅ with ledger := w.ledger.filter fun row => row.id ∉ w.deleting i }

end Cluster

open Cluster in
/-- What the statements of thread `i` do. A statement whose key another thread has changed and not
yet committed waits: it has no step here. -/
inductive Act (i : ι) : Cluster ι → (q : Statement) → q.Answer → Cluster ι → Prop
  | refused {w : Cluster ι} {q : Statement} {e : String} :
      q.refusable = true → Act i w q (.error e) w
  | openTransaction {w : Cluster ι} :
      Act i w .openTransaction (.ok ())
        (w.setFrames i (if (w.frames i).isEmpty then [Frame.empty] else w.frames i))
  | acquireLock {w : Cluster ι} {owner : Owner} {frame : Frame} {outer : List Frame} :
      (∀ j, j ≠ i → ¬ w.Holds j owner) → w.frames i = frame :: outer →
      Act i w (.acquireInstanceQuotaLock owner) (.ok ())
        (w.setFrames i ({ frame with locks := insert owner frame.locks } :: outer))
  | currentIds {w : Cluster ι} {owner : Owner} :
      -- the latest snapshot, with the rows of the caller's own transaction
      Act i w (.currentInstanceIds owner) (.ok (idsOf owner (w.instances ∪ rowsOf (w.frames i)))) w
  | counts {w : Cluster ι} {given : Finset RootId} {owner : Owner} {includeActive : Bool} :
      Act i w (.submissionCounts given owner includeActive)
        (.ok (w.submissionCounts given owner includeActive)) w
  | shortId {w : Cluster ι} (candidate : LocalId) : Act i w .shortId (.ok candidate) w
  | reserve {w : Cluster ι} {row : OwnedId} :
      (∀ j, j ≠ i → ∀ other, w.reserved j = some other → other.id ≠ row.id) →
      (∀ j, j ≠ i → row.id ∉ w.deleting j) → row.id ∉ ids w.ledger →
      Act i w (.reserveSubmission row) (.ok true) (w.setReserved i (some row))
  | reserveConflict {w : Cluster ι} {row : OwnedId} :
      (∀ j, j ≠ i → row.id ∉ w.deleting j) → row.id ∈ ids w.ledger →
      Act i w (.reserveSubmission row) (.ok false) w
  | rollbackReservation {w : Cluster ι} {answer : Except String Unit} :
      -- a connection that cannot roll back is gone, and the reservation with it
      Act i w .rollbackReservation answer (w.setReserved i none)
  | claim {w : Cluster ι} {row : OwnedId} {frame : Frame} {outer : List Frame} :
      (∀ j, j ≠ i → row.id ∉ ids (rowsOf (w.frames j))) →
      row.id ∉ ids (w.instances ∪ rowsOf (w.frames i)) → w.frames i = frame :: outer →
      Act i w (.claimInstance row) (.ok true)
        (w.setFrames i ({ frame with rows := insert row frame.rows } :: outer))
  | claimConflict {w : Cluster ι} {row : OwnedId} :
      row.id ∈ ids (w.instances ∪ rowsOf (w.frames i)) →
      Act i w (.claimInstance row) (.ok false) w
  | insertNodes {w : Cluster ι} : Act i w .insertNodes (.ok ()) w
  | enqueue {w : Cluster ι} {row : OwnedId} {answer : Except String Unit} :
      -- a commit may be reported as failed although it reached the server
      w.reserved i = some row → Act i w .enqueue answer (w.commitSubmission i row)
  | enqueueFailed {w : Cluster ι} {e : String} :
      Act i w .enqueue (.error e) (w.setReserved i none)
  | raise {w : Cluster ι} {inner outer : List Frame} :
      inner ≠ [] → w.frames i = inner ++ outer → Act i w .raise (.ok ()) (w.setFrames i outer)
  | page {w : Cluster ι} {cursor : String} {page : List RootId} :
      (∀ id ∈ page, id ∈ ids w.ledger) → Act i w (.submissionPage cursor) (.ok page) w
  | retired {w : Cluster ι} {candidates : List RootId} :
      Act i w (.retiredSubmissions candidates)
        (.ok (candidates.filter fun id =>
          decide (id ∈ ids w.ledger) && !(w.engine id).hasWork)) w
  | withoutMetadata {w : Cluster ι} {candidates : List RootId} :
      Act i w (.submissionsWithoutMetadata candidates)
        (.ok (candidates.filter fun id => decide (id ∉ ids w.instances))) w
  | delete {w : Cluster ι} {removable : List RootId} :
      (∀ j, j ≠ i → ∀ id ∈ removable, id ∉ w.deleting j) →
      Act i w (.deleteSubmissions removable) (.ok ())
        (w.setDeleting i ((removable.toFinset ∩ ids w.ledger).filter fun id =>
          (w.engine id).hasWork = false))
  | commitDelete {w : Cluster ι} {answer : Except String Unit} :
      Act i w .commitDelete answer (w.commitDeleted i)
  | commitDeleteFailed {w : Cluster ι} {e : String} :
      Act i w .commitDelete (.error e) (w.setDeleting i ∅)

/-- What a session does to its transaction between two calls. A rollback undoes the innermost
subtransactions, up to the whole transaction. -/
inductive Command (i : ι) : Cluster ι → Cluster ι → Prop
  | begin {w : Cluster ι} : w.frames i = [] → Command i w (w.setFrames i [Frame.empty])
  | savepoint {w : Cluster ι} :
      w.frames i ≠ [] → Command i w (w.setFrames i (Frame.empty :: w.frames i))
  | release {w : Cluster ι} {inner outer : Frame} {rest : List Frame} :
      w.frames i = inner :: outer :: rest → Command i w (w.setFrames i (inner.merge outer :: rest))
  | rollback {w : Cluster ι} {inner outer : List Frame} :
      w.frames i = inner ++ outer → Command i w (w.setFrames i outer)
  | commit {w : Cluster ι} :
      Command i w { w.setFrames i [] with instances := w.instances ∪ rowsOf (w.frames i) }

/-- What happens without any session: the engine takes queued work over, goes on with an instance,
and deletes one that has ended; the retention removes instance rows. An execution that has ended
stays ended. -/
inductive EngineEvent : Cluster ι → Cluster ι → Prop
  | acknowledge {w : Cluster ι} {id : RootId} {record : EngineRecord} :
      (w.engine id).queued = true → (w.engine id).present = false → record.present = true →
      EngineEvent w (w.setEngine id record)
  | progress {w : Cluster ι} {id : RootId} {record : EngineRecord} :
      (w.engine id).present = true → record.present = true →
      (∀ status, (w.engine id).status = some status → isTerminal status = true →
        record.status = some status) →
      EngineEvent w (w.setEngine id record)
  | deleteInstance {w : Cluster ι} {id : RootId} :
      (w.engine id).active = false → EngineEvent w (w.setEngine id EngineRecord.empty)
  | removeRows {w : Cluster ι} {rows : Finset OwnedId} :
      EngineEvent w { w with instances := w.instances \ rows }

end PgDurable.Submissions
