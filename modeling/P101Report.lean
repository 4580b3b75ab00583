import P101Report.Model.Lifecycle
import P101Report.Replay.ExecMarks
import P101Report.Replay.FailedExec
import P101Report.Replay.Interleaving
import P101Report.Replay.LiveTable
import P101Report.Library.OpenClose
import P101Report.Replay.ForkOrder
import P101Report.Lifetime.Parsed
import P101Report.Model.Lifetimes
import P101Report.Lifetime.Ends
import P101Report.Lifetime.Descriptors
import P101Report.Lifetime.Allocations
import P101Report.Replay.FindingNames
import P101Report.Library.Json
import P101Report.Model.Output
import P101Report.Output.JsonReport
import P101Report.Model.Reader
import P101Report.Model.Mermaid
import P101Report.Model.Runner
import P101Report.Library.Flowchart
import P101Report.Output.LifetimeRenderers
import P101Report.Output.MermaidReport
import P101Report.Reading.Sites
import P101Report.Reading.Lines
import P101Report.Reading.Readers
import P101Report.Reading.Numbering
import P101Report.Reading.StoredRecords
import P101Report.Replay.Origins
import P101Report.Reading.Preparation
import P101Report.Reading.SiteSafety
import P101Report.Reading.ExitStatus
import P101Report.Replay.FindingEvidence
import P101Report.Reading.EventNumbers
import P101Report.Reading.Forwarding
import P101Report.Library.Nesting
import P101Report.Output.TraceWindow
import P101Report.Library.Loops
import P101Report.Library.JsonReader
import P101Report.Replay.ExecCommit
import P101Report.Replay.ForkInheritance
import P101Report.Output.JsonStrings
import P101Report.Output.TraceBounds
import P101Report.Calls.ModelCalls
import P101Report.Calls.Growth
import P101Report.Calls.Interning
import P101Report.Calls.Demands
import P101Report.Calls.RetriedFinalization
import P101Report.Calls.FailedIngest
import P101Report.Library.Faults
import P101Report.Failures.Operations
import P101Report.Failures.Comparisons
import P101Report.Failures.WholeRun
import P101Report.Library.Descriptors
import P101Report.Model.Bundle
import P101Report.Output.Bundle
import P101Report.Library.Getopt
import P101Report.Model.Cli
import P101Report.Reading.CommandLine
import P101Report.Library.JsonDocument
import P101Report.Output.ReportReader
import P101Report.Output.ReportRendering
import P101Report.Library.Processes
import P101Report.Replay.Observation
import P101Report.Replay.ObservedFindings
import P101Report.Library.Ownership
import P101Report.Memory.WholeRun
