import PgDurable.Submissions.Cluster

/-!
# Starting instances and cleaning the ledger

The programs that run in a cluster: `df.start` of a caller, from the admission limits to the
committed submission, and a cleanup pass of the worker over `_submissions`. `submissions` is the
system of any number of sessions and cleanup passes, with what the sessions do between their calls
and what the engine does meanwhile.

The checks of the graph and of the caller that precede the limits neither read nor write what is
modelled here and are left out.
-/

namespace PgDurable.Submissions

open Instances

/-- A program that runs statements and may fail. -/
abbrev Submit (α : Type) := ExceptT String (Asks Statement Statement.Answer) α

/-- Run a statement. -/
def run (q : Statement) : Submit q.Value := ExceptT.mk (Asks.question q)

/-- Name what failed in front of an error. -/
def naming {α : Type} (label : String) (program : Submit α) : Submit α :=
  program.adapt (label ++ ·)

/-! ## Limits -/

/-- The limits per role; zero is no limit. -/
structure Limits where
  maxInstancesPerUser : Nat
  maxConcurrentPerUser : Nat

/-- The text of a rejected start. -/
def rejectText (userName : String) (count : Nat) (kind : String) (limit : Nat) : String :=
  "df.start rejected: user \"" ++ userName ++ "\" has " ++ toString count ++ " " ++ kind ++
    " instances (limit " ++ toString limit ++ ")"

/-- Reject a start over the limits. The lock stays with the caller's subtransaction. -/
def enforceInstanceLimits (limits : Limits) (owner : Owner) (userName : String) : Submit Unit :=
  if limits.maxConcurrentPerUser = 0 ∧ limits.maxInstancesPerUser = 0 then pure ()
  else do
    run (.acquireInstanceQuotaLock owner)
    let ids ← run (.currentInstanceIds owner)
    let counts ← naming "df.start() quota check failed: "
      (run (.submissionCounts ids owner (decide (0 < limits.maxConcurrentPerUser))))
    if 0 < limits.maxInstancesPerUser ∧ limits.maxInstancesPerUser ≤ counts.1 then
      throw (rejectText userName counts.1 "retained" limits.maxInstancesPerUser)
    else if 0 < limits.maxConcurrentPerUser ∧ limits.maxConcurrentPerUser ≤ counts.2 then
      throw (rejectText userName counts.2 "active" limits.maxConcurrentPerUser)
    else pure ()

/-! ## Ids -/

/-- Run a program with the reservation in scope: an error unwinds through its guard, which rolls
the reservation back. -/
def guarded {α : Type} (program : Submit α) : Submit α := ExceptT.mk do
  match ← program.run with
  | .ok value => pure (.ok value)
  | .error e => do
      let _ ← Asks.question Statement.rollbackReservation
      pure (.error e)

/-- Reserve an id in the ledger, then claim it for the instance row. -/
def tryClaim (row : OwnedId) : Submit Bool := do
  if ← run (.reserveSubmission row) then
    if ← guarded (run (.claimInstance row)) then pure true
    else do
      naming "Failed to release submission reservation: " (run .rollbackReservation)
      pure false
  else pure false

/-- The attempts to find an id. -/
def maxIdAttempts : Nat := 10

/-- Claim a fresh id, with `attempts` left. -/
def pickIdWithRetry (origin : Option Origin) (role : Nat) : (attempts : Nat) → Submit RootId
  | 0 => throw ("exhausted " ++ toString maxIdAttempts ++
      " attempts to generate a collision-free ID")
  | attempts + 1 => do
      let candidate ← run .shortId
      if ← tryClaim ⟨⟨origin, candidate⟩, role⟩ then pure ⟨origin, candidate⟩
      else pickIdWithRetry origin role attempts

/-! ## Programs -/

/-- The limits do not apply to superusers. -/
def limitCaller (limits : Limits) (isSuper : Bool) (owner : Owner) (userName : String) :
    Submit Unit :=
  if isSuper then pure () else enforceInstanceLimits limits owner userName

/-- `df.start` in the caller's transaction, after its checks. -/
def startInCallerTransaction (limits : Limits) (isSuper : Bool) (owner : Owner)
    (userName : String) : Submit RootId := do
  limitCaller limits isSuper owner userName
  let id ← naming "Failed to create instance: "
    (pickIdWithRetry owner.origin owner.role maxIdAttempts)
  guarded (run .insertNodes)
  naming "failed to start durable function: " (run .enqueue)
  pure id

/-- How a program of the cluster ends. -/
inductive Finished where
  | started (result : Except String RootId)
  | cleaned (result : Except String (Bool × String))

/-- The statement of a caller: an error aborts its subtransaction. -/
def start (limits : Limits) (isSuper : Bool) (owner : Owner) (userName : String) :
    Asks Statement Statement.Answer Finished := do
  let _ ← Asks.question Statement.openTransaction
  match ← (startInCallerTransaction limits isSuper owner userName).run with
  | .ok id => pure (.started (.ok id))
  | .error e => do
      let _ ← Asks.question Statement.raise
      pure (.started (.error e))

/-- The rows that a cleanup pass reads at a time. -/
def reclaimBatch : Nat := 1000

/-- The retired ids without an instance row, one origin after the other. An origin that cannot be
asked keeps its rows. -/
def removableSubmissions (retired : List RootId) :
    List (Option Origin) → Asks Statement Statement.Answer (List RootId)
  | [] => pure []
  | origin :: origins => do
      let removable ← (run (.submissionsWithoutMetadata
        (retired.filter fun id => id.origin = origin))).run
      let rest ← removableSubmissions retired origins
      pure (removable.toOption.getD [] ++ rest)

/-- Delete ledger rows in a transaction of its own. -/
def deleteRemovable (removable : List RootId) : Submit Unit :=
  if removable = [] then pure ()
  else do
    run (.deleteSubmissions removable)
    run .commitDelete

/-- One cleanup pass over the ledger from a cursor: whether there is more, and the next cursor. -/
def cleanupSubmissions (cursor : String) : Submit (Bool × String) := do
  let ids ← run (.submissionPage cursor)
  let retired ← run (.retiredSubmissions ids)
  let removable ← ExceptT.lift
    (removableSubmissions retired (retired.map RootId.origin).dedup)
  deleteRemovable removable
  if ids.length = reclaimBatch then
    pure (true, ((ids.getLast?).map RootId.engineId).getD "")
  else pure (false, "")

/-- A cleanup pass as a program of the cluster. -/
def cleanup (cursor : String) : Asks Statement Statement.Answer Finished := do
  let result ← (cleanupSubmissions cursor).run
  pure (.cleaned result)

/-- Any number of sessions and cleanup passes. Which roles are superusers is fixed. -/
def submissions (ι : Type) [DecidableEq ι] (limits : Limits) (isSuper : Nat → Bool) :
    Interleaving ι (Cluster ι) Statement Statement.Answer Finished where
  event := EngineEvent
  call _ program :=
    (∃ owner userName, program = start limits (isSuper owner.role) owner userName) ∨
      ∃ cursor, program = cleanup cursor
  command := Command
  act := Act

end PgDurable.Submissions
