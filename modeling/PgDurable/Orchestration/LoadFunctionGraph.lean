import PgDurable.Instances.Origin
import PgDurable.Library.Interleaving
import PgDurable.Orchestration.Execute

/-!
# The graph-admission probe

`df.start` hands an instance to the worker before the transaction that wrote its rows commits. The
probe activity decides from a handful of statements, each in a transaction of its own, what became
of that transaction, and loads the graph once its rows are visible. `probeActivity` is the program
of one probe; what other transactions do between its statements is left to its surroundings.
-/

namespace PgDurable.Orchestration

open Json Instances

/-! ## Errors -/

/-- An error of the database client: from the server with its SQLSTATE, a protocol error, or a
failure that never reached the server. -/
inductive SqlxError where
  | database (code : Option String) (message : String)
  | protocol (message : String)
  | other (message : String)

/-- The text of a client error. -/
def SqlxError.display : SqlxError → String
  | .database _ message => "error returned from database: " ++ message
  | .protocol message => "encountered unexpected or invalid data: " ++ message
  | .other message => message

/-- The protocol message of a replaced installation. -/
def replaced : String := "Origin installation removed or replaced"

/-- Whether an error is worth a retry. -/
inductive ErrorClass where
  | transient
  | permanent
  deriving DecidableEq

/-- Classify a SQLSTATE; codes that are not listed are permanent. -/
def classifySqlstate (code : String) : ErrorClass :=
  if ["08000", "08001", "08003", "08004", "08006", "08007", "08P01", "40001", "40P01", "57014",
      "55P03", "57P01", "57P02", "57P03"].contains code then .transient
  else .permanent

/-- The SQLSTATE of an error that came from the server. -/
def sqlstateOf : SqlxError → Option String
  | .database code _ => code
  | _ => none

/-- Classify a client error; errors without a SQLSTATE are transient. -/
def classifySqlxError (error : SqlxError) : ErrorClass :=
  match error with
  | .protocol message => if message = replaced then .permanent else .transient
  | error =>
      match sqlstateOf error with
      | some code => classifySqlstate code
      | none => .transient

/-- An error while loading a graph. -/
inductive LoadGraphError where
  | retryable (message : String)
  | permanent (message : String)

/-- An error while routing to the database of an origin. -/
inductive RoutingError where
  | retryable (message : String)
  | permanent (message : String)

/-- A client error while loading a graph, with its SQLSTATE in the text. -/
def classifiedLoadGraphError (operation : String) (error : SqlxError) : LoadGraphError :=
  let message := operation ++ " failed (SQLSTATE " ++ (sqlstateOf error).getD "unknown" ++ "): " ++
    error.display
  match classifySqlxError error with
  | .transient => .retryable message
  | .permanent => .permanent message

/-! ## The statements of the probe -/

/-- An answer under a client-side deadline: `none` when it elapsed. -/
abbrev Timed (α : Type) := Option (Except SqlxError α)

/-- A row of the instance query: the root node and the name of the submitting role, if it still
exists. -/
structure VisibleInstance where
  rootNode : String
  submittedBy : Option String

/-- The columns of a `df.nodes` row that a graph is built from, except the submitting role. -/
structure NodeColumns where
  id : String
  nodeType : String
  query : Option String
  resultName : Option String
  leftNode : Option String
  rightNode : Option String
  database : Option String

/-- The statements that a probe runs, each in a transaction of its own. -/
inductive ProbeStatement where
  | route
  | findVisibleInstance (instanceId : String)
  | pgXactStatus (originXid : String)
  | pgVisibleInSnapshot (originXid : String)
  | isRoleSuperuserName (roleName : String)
  | fetchNodeRows (instanceId : String)

/-- What a statement answers. -/
abbrev ProbeStatement.Answer : ProbeStatement → Type
  | .route => Except RoutingError Unit
  | .findVisibleInstance _ => Timed (Option VisibleInstance)
  | .pgXactStatus _ => Timed (Option String)
  | .pgVisibleInSnapshot _ => Timed Bool
  | .isRoleSuperuserName _ => Option (Except String Bool)
  | .fetchNodeRows _ => Timed (List (NodeColumns × Option String))

/-- A program of the probe activity. -/
abbrev Probe (α : Type) := Asks ProbeStatement ProbeStatement.Answer α

/-- Connect to the database of the origin. -/
def route : Probe (Except RoutingError Unit) := Asks.question ProbeStatement.route

/-- Look for the instance row. -/
def findVisibleInstance (instanceId : String) : Probe (Timed (Option VisibleInstance)) :=
  Asks.question (ProbeStatement.findVisibleInstance instanceId)

/-- Ask for the status of the origin transaction. -/
def probeOriginTransactionStatus (originXid : String) : Probe (Timed (Option String)) :=
  Asks.question (ProbeStatement.pgXactStatus originXid)

/-- Ask whether a fresh snapshot sees the origin transaction. -/
def probeSnapshotVisible (originXid : String) : Probe (Timed Bool) :=
  Asks.question (ProbeStatement.pgVisibleInSnapshot originXid)

/-- Ask whether a role is a superuser. -/
def isRoleSuperuserName (roleName : String) : Probe (Option (Except String Bool)) :=
  Asks.question (ProbeStatement.isRoleSuperuserName roleName)

/-- Fetch the node rows of an instance. -/
def fetchNodeRows (instanceId : String) : Probe (Timed (List (NodeColumns × Option String))) :=
  Asks.question (ProbeStatement.fetchNodeRows instanceId)

/-! ## Loading a visible graph -/

/-- The node of a row, unless its submitting role is gone. -/
def functionNode (instanceId : String) (row : NodeColumns × Option String) :
    Except LoadGraphError FunctionNode :=
  match row.2 with
  | none =>
      .error (.permanent ("Instance " ++ instanceId ++ ": node " ++ row.1.id ++
        " submitted_by role no longer exists in pg_roles"))
  | some submittedBy =>
      .ok ⟨row.1.id, row.1.nodeType, row.1.query, row.1.resultName, row.1.leftNode,
        row.1.rightNode, submittedBy, row.1.database⟩

/-- The nodes of a graph by id, from its rows in order. -/
def collectNodes (instanceId : String) (rows : List (NodeColumns × Option String)) :
    Except LoadGraphError (Std.ExtTreeMap String FunctionNode) :=
  rows.foldlM (fun nodes row =>
    (functionNode instanceId row).map fun node => nodes.insert node.id node) ∅

/-- The worker-side superuser guard: `none` when the deadline elapsed. -/
def superuserGuard (superuserInstancesEnabled : Bool) (instanceId submittedBy : String) :
    Probe (Option (Except LoadGraphError Unit)) :=
  if superuserInstancesEnabled then pure (some (.ok ()))
  else do
    match ← isRoleSuperuserName submittedBy with
    | none => pure none
    | some (.ok true) =>
        pure (some (.error (.permanent ("pg_durable blocked instance " ++ instanceId ++
          ": submitted_by role \"" ++ submittedBy ++
          "\" is a superuser, but pg_durable.enable_superuser_instances is off"))))
    | some (.ok false) => pure (some (.ok ()))
    | some (.error e) =>
        pure (some (.error (.retryable ("pg_durable: superuser check failed for instance " ++
          instanceId ++ ": " ++ e))))

/-- Load the graph of a visible instance row: `none` when the deadline elapsed. -/
def loadVisibleGraph (superuserInstancesEnabled : Bool) (instanceId : String)
    (row : VisibleInstance) : Probe (Option (Except LoadGraphError String)) :=
  match row.submittedBy with
  | none =>
      pure (some (.error (.permanent ("Instance " ++ instanceId ++
        ": submitted_by role no longer exists in pg_roles"))))
  | some submittedBy => do
      match ← superuserGuard superuserInstancesEnabled instanceId submittedBy with
      | none => pure none
      | some (.error e) => pure (some (.error e))
      | some (.ok ()) =>
          match ← fetchNodeRows instanceId with
          | none => pure none
          | some (.error e) =>
              pure (some (.error (classifiedLoadGraphError "Failed to load function nodes" e)))
          | some (.ok rows) =>
              pure (some ((collectNodes instanceId rows).map fun nodes =>
                FunctionGraph.toJson ⟨instanceId, row.rootNode, nodes, .v1⟩))

/-! ## The probe -/

/-- The JSON form of a probe result, tagged by its state. -/
def TransactionGraphProbe.encode : TransactionGraphProbe → Value
  | .ready graph => .object [("state", .string "ready"), ("graph", .string graph)]
  | .inProgress => .object [("state", .string "in_progress")]
  | .retry => .object [("state", .string "retry")]
  | .aborted => .object [("state", .string "aborted")]
  | .committedMissing => .object [("state", .string "committed_missing")]

/-- The answer of the activity for a probe result. -/
def serializeProbe (probe : TransactionGraphProbe) : Except String String := .ok (print probe.encode)

/-- The answer to a transient failure. -/
def retryProbe : Except String String := serializeProbe .retry

/-- The answer to a client error of a probing statement. -/
def probeErrorOutcome (operation instanceId : String) (error : SqlxError) : Except String String :=
  match classifySqlxError error with
  | .transient => retryProbe
  | .permanent =>
      .error ("Instance " ++ instanceId ++ ": " ++ operation ++ " failed permanently (SQLSTATE " ++
        (sqlstateOf error).getD "unknown" ++ "): " ++ error.display)

/-- What to do once the transaction is recorded as committed. -/
inductive CommittedProbeStep where
  | awaitSnapshotVisibility
  | readyToReread
  deriving DecidableEq

/-- A graph that a re-read does not find is missing only when snapshots see the transaction. -/
def committedProbeStep (snapshotVisible : Bool) : CommittedProbeStep :=
  if snapshotVisible then .readyToReread else .awaitSnapshotVisibility

/-- Answer with the graph of a visible row. -/
def probeVisible (superuserInstancesEnabled : Bool) (instanceId : String) (row : VisibleInstance) :
    Probe (Except String String) := do
  match ← loadVisibleGraph superuserInstancesEnabled instanceId row with
  | none => pure retryProbe
  | some (.ok graph) => pure (serializeProbe (.ready graph))
  | some (.error (.retryable _)) => pure retryProbe
  | some (.error (.permanent e)) => pure (.error e)

/-- The input of the probe. -/
structure TransactionAwareLoadInput where
  instanceId : String
  originXid : String

/-- Read the input of the probe. -/
def TransactionAwareLoadInput.decode : Value → Except String TransactionAwareLoadInput :=
  decodeRecord fun value => do
    let instanceId ← readRequired decodeString "instance_id" value
    let originXid ← readRequired decodeString "origin_xid" value
    pure ⟨instanceId, originXid⟩

/-- The branch of a transaction that is recorded as committed. -/
def probeCommitted (superuserInstancesEnabled : Bool) (input : TransactionAwareLoadInput) :
    Probe (Except String String) := do
  match ← probeSnapshotVisible input.originXid with
  | none => pure retryProbe
  | some (.error e) =>
      pure (probeErrorOutcome "post-commit snapshot visibility check" input.instanceId e)
  | some (.ok snapshotVisible) =>
      if committedProbeStep snapshotVisible = .awaitSnapshotVisibility then pure retryProbe
      else do
        match ← findVisibleInstance input.instanceId with
        | none => pure retryProbe
        | some (.ok (some row)) => probeVisible superuserInstancesEnabled input.instanceId row
        | some (.ok none) => pure (serializeProbe .committedMissing)
        | some (.error e) =>
            pure (probeErrorOutcome "post-commit graph visibility check" input.instanceId e)

/-- The branches of a transaction whose rows are not visible, by its recorded status. -/
def probeStatus (superuserInstancesEnabled : Bool) (input : TransactionAwareLoadInput) :
    Probe (Except String String) := do
  match ← probeOriginTransactionStatus input.originXid with
  | none => pure retryProbe
  | some (.error e) => pure (probeErrorOutcome "origin transaction check" input.instanceId e)
  | some (.ok (some "in progress")) => pure (serializeProbe .inProgress)
  | some (.ok (some "aborted")) => pure (serializeProbe .aborted)
  | some (.ok (some "committed")) => probeCommitted superuserInstancesEnabled input
  | some (.ok (some other)) =>
      pure (.error ("Origin transaction " ++ input.originXid ++ " for instance " ++
        input.instanceId ++ " has unknown status \"" ++ other ++ "\""))
  | some (.ok none) =>
      pure (.error ("Origin transaction " ++ input.originXid ++ " for instance " ++
        input.instanceId ++ " has no available status"))

/-- Probe the visibility of a graph once. -/
def probeTransaction (parseStr : String → Option Uuid) (superuserInstancesEnabled : Bool)
    (engineId inputJson : String) : Probe (Except String String) :=
  match Origin.fromEngineId parseStr engineId with
  | .error e => pure (.error e)
  | .ok _ =>
      match (fromStr inputJson).bind TransactionAwareLoadInput.decode with
      | .error e => pure (.error ("Invalid transaction-aware graph probe input: " ++ e))
      | .ok input =>
          if (Text.parseU64 input.originXid.toList).isNone then
            pure (.error ("Invalid origin transaction id \"" ++ input.originXid ++
              "\" for instance " ++ input.instanceId))
          else do
            match ← findVisibleInstance input.instanceId with
            | none => pure retryProbe
            | some (.ok (some row)) => probeVisible superuserInstancesEnabled input.instanceId row
            | some (.ok none) => probeStatus superuserInstancesEnabled input
            | some (.error e) =>
                pure (probeErrorOutcome "graph visibility check" input.instanceId e)

/-- The registered activity: route to the database of the origin, then probe. -/
def probeActivity (parseStr : String → Option Uuid) (superuserInstancesEnabled : Bool)
    (engineId inputJson : String) : Probe (Except String String) := do
  match ← route with
  | .error (.retryable _) => pure retryProbe
  | .error (.permanent e) => pure (.error e)
  | .ok () => probeTransaction parseStr superuserInstancesEnabled engineId inputJson

end PgDurable.Orchestration
