import FlowGraph.Decimal.Layout
import FlowGraph.Json.Parser
import FlowGraph.Json.Printer
import FlowGraph.Workflow.Lint
import FlowGraph.Run.Timeline
import FlowGraph.Program.Plan
import FlowGraph.Program.Literal
import FlowGraph.Program.Project
import FlowGraph.Program.PayloadHelpers
import FlowGraph.Program.Temporal.ActivityFiles
import FlowGraph.Program.Temporal.ProcessFiles
import FlowGraph.Program.Temporal.Project
import FlowGraph.Program.Airflow.GraphFile
import FlowGraph.Program.Airflow.Project
import FlowGraph.CommandLine.Arguments
import FlowGraph.CommandLine.FileTree
import FlowGraph.CommandLine.Answer
import FlowGraph.CommandLine.Execution
import FlowGraph.Main
import FlowGraph.Proofs.Program.Replay
import FlowGraph.Proofs.Workflow.BreadthFirst
import FlowGraph.Proofs.Run.DryRun
import FlowGraph.Proofs.Run.Undisturbed
import FlowGraph.Proofs.Run.Timed
import FlowGraph.Proofs.Run.Stopped
import FlowGraph.Proofs.Run.Cancellation
import FlowGraph.Proofs.Run.Pause
import FlowGraph.Proofs.Run.EventStream
import FlowGraph.Proofs.Run.Payload
import FlowGraph.Proofs.Run.Lifecycle
import FlowGraph.Proofs.Program.LiteralReader
import FlowGraph.Proofs.Document.Reading
import FlowGraph.Proofs.Document.Faults
import FlowGraph.Proofs.Document.Writing
import FlowGraph.Proofs.Workflow.Reachable
import FlowGraph.Proofs.Program.TaskGraph
import FlowGraph.Proofs.Run.Deadline
import FlowGraph.Proofs.Program.KnownNodes
import FlowGraph.Proofs.Program.Activities
import FlowGraph.Proofs.Run.Taken
import FlowGraph.Proofs.Run.UnlabelledRouter
import FlowGraph.Proofs.Workflow.Acyclic
import FlowGraph.Proofs.Program.TaskOrder
import FlowGraph.Proofs.Activity.RetryPolicy
import FlowGraph.Proofs.Activity.TimeLimits
import FlowGraph.Proofs.Program.NulFiles
import FlowGraph.Proofs.Program.NulProject
import FlowGraph.Proofs.Program.FirstTasks
import FlowGraph.Proofs.Activity.ZeroInterval
import FlowGraph.Proofs.Activity.IntegerConditions
import FlowGraph.Proofs.Activity.Routers
import FlowGraph.Proofs.Document.NullMembers
import FlowGraph.Proofs.Workflow.Defects
import FlowGraph.Proofs.Program.ConnectionOrder
import FlowGraph.Proofs.Program.TaskIds
import FlowGraph.Proofs.Program.ClassNames
import FlowGraph.Proofs.Program.Docstring
import FlowGraph.Proofs.Activity.Operations
import FlowGraph.Proofs.Activity.Positions
import FlowGraph.Proofs.Workflow.History
