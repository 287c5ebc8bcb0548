import PgDurable.Library.Json.Value
import PgDurable.Library.Json.Text
import PgDurable.Library.Json.RoundTrip
import PgDurable.Library.Json.Reading
import PgDurable.Library.Json.Printing
import PgDurable.Library.Json.Codec
import PgDurable.Library.Json.Raw
import PgDurable.Library.Json.RawMembers
import PgDurable.Library.Text
import PgDurable.Library.Utf8
import PgDurable.Library.Base64
import PgDurable.Library.SqlLexer
import PgDurable.Library.SqlScanner
import PgDurable.Library.Keyset
import PgDurable.Library.Sweep
import PgDurable.Library.Newest
import PgDurable.Library.Walk
import PgDurable.Library.Overlay
import PgDurable.Library.Program
import PgDurable.Library.Simulation
import PgDurable.Library.Tree
import PgDurable.Library.Usage
import PgDurable.Library.Forest
import PgDurable.Library.Cidr
import PgDurable.Library.Interleaving
import PgDurable.NodeStatus.Lineage
import PgDurable.NodeStatus.UpdateNodeStatus
import PgDurable.NodeStatus.Convergence
import PgDurable.NodeStatus.Supersession
import PgDurable.NodeStatus.Inference
import PgDurable.Graph.Types
import PgDurable.Graph.Condition
import PgDurable.Graph.Substitution
import PgDurable.Graph.References
import PgDurable.Graph.RawReferences
import PgDurable.Graph.Braces
import PgDurable.Graph.HttpConfig
import PgDurable.Graph.RequestSize
import PgDurable.Graph.WholeValue
import PgDurable.Graph.ErrorTexts
import PgDurable.Activities.Multipart
import PgDurable.Activities.HttpResponse
import PgDurable.Activities.ExecuteSql
import PgDurable.Graph.RowSet
import PgDurable.Graph.SqlTokens
import PgDurable.Instances.Origin
import PgDurable.Instances.Reconciliation
import PgDurable.Instances.InstanceStatus
import PgDurable.Instances.Retention
import PgDurable.Orchestration.Context
import PgDurable.Orchestration.Boundary
import PgDurable.Orchestration.Nodes
import PgDurable.Orchestration.Execute
import PgDurable.Orchestration.Children
import PgDurable.Orchestration.Join
import PgDurable.Orchestration.JoinErrors
import PgDurable.Orchestration.JoinNesting
import PgDurable.Orchestration.LoopFallback
import PgDurable.Orchestration.Leaves
import PgDurable.Orchestration.RequestSize
import PgDurable.Orchestration.Handlers
import PgDurable.Orchestration.Bindings
import PgDurable.Orchestration.BreakValue
import PgDurable.Orchestration.Exhaustion
import PgDurable.Orchestration.Admission
import PgDurable.Orchestration.Logs
import PgDurable.Orchestration.Root
import PgDurable.Orchestration.Generations
import PgDurable.Orchestration.Finalization
import PgDurable.Orchestration.RootResult
import PgDurable.Orchestration.ChildIds
import PgDurable.Orchestration.Isolation
import PgDurable.Orchestration.LoadFunctionGraph
import PgDurable.Orchestration.OriginTransaction
import PgDurable.Submissions.Cluster
import PgDurable.Submissions.Start
import PgDurable.Submissions.Outline
import PgDurable.Submissions.Ledger
import PgDurable.Submissions.Quotas
import PgDurable.Submissions.LaunchSlots
import PgDurable.Submissions.InsertNodes
import PgDurable.Monitoring.Cursor
import PgDurable.Monitoring.ListInstances
import PgDurable.Monitoring.AwaitInstance
import PgDurable.Endpoints.Prepare
import PgDurable.Endpoints.Secrets
import PgDurable.Endpoints.Redact
import PgDurable.Explain.Display
import PgDurable.Explain.Tree
import PgDurable.Explain.Stored
import PgDurable.Explain.Instance
import PgDurable.Instances.OriginSweep
import PgDurable.Instances.RetentionPass
import PgDurable.Instances.RetentionCycle
import PgDurable.Dsl.Durofut
import PgDurable.Dsl.Flatten
import PgDurable.Dsl.Rows
import PgDurable.Dsl.Readers
import PgDurable.Dsl.Prepare
import PgDurable.Dsl.Stored
import PgDurable.Dsl.Sources
import PgDurable.Dsl.Acceptance
import PgDurable.Requests.Ssrf
import PgDurable.Requests.Send
import PgDurable.Dsl.Builders
import PgDurable.Dsl.Workflows
import PgDurable.Dsl.Meaning
import PgDurable.Dsl.Decoding
import PgDurable.Dsl.Execution
import PgDurable.Dsl.Evaluation
import PgDurable.Dsl.Runs
import PgDurable.Dsl.Ending
