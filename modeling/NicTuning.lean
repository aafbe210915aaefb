import NicTuning.Affinity
import NicTuning.Bench.Basic
import NicTuning.Bench.Local
import NicTuning.Bench.Output
import NicTuning.Bench.Script
import NicTuning.Binary64.Basic
import NicTuning.Binary64.Shortest
import NicTuning.CommandLine.Failure
import NicTuning.CommandLine.Request
import NicTuning.CommandLine.Run
import NicTuning.Device.Attribute
import NicTuning.Device.Basic
import NicTuning.Dict
import NicTuning.Document.Basic
import NicTuning.Document.Shape
import NicTuning.Fault
import NicTuning.Findings
import NicTuning.Json.Number
import NicTuning.Json.Reader
import NicTuning.Json.Writer
import NicTuning.Layer.Basic
import NicTuning.Layer.Coalescing
import NicTuning.Layer.FlowHash
import NicTuning.Layer.HashFunction
import NicTuning.Layer.Interrupts
import NicTuning.Layer.Mtu
import NicTuning.Layer.Offload
import NicTuning.Layer.PauseFrames
import NicTuning.Layer.Qdisc
import NicTuning.Layer.Queues
import NicTuning.Layer.Settings
import NicTuning.Ledger.Basic
import NicTuning.Ledger.Change
import NicTuning.Main
import NicTuning.Numeral
import NicTuning.Pairs
import NicTuning.Proofs.Effects
import NicTuning.Register
import NicTuning.Report.Channels
import NicTuning.Report.Coalescing
import NicTuning.Report.Features
import NicTuning.Report.Hashing
import NicTuning.Report.KeyValue
import NicTuning.Report.Link
import NicTuning.Report.Machine
import NicTuning.Roster
import NicTuning.Session
import NicTuning.Setting
import NicTuning.Shell.Arithmetic
import NicTuning.Shell.Builtin
import NicTuning.Shell.Condition
import NicTuning.Shell.Expansion
import NicTuning.Shell.Format
import NicTuning.Shell.Machine
import NicTuning.Shell.Octets
import NicTuning.Shell.Parser
import NicTuning.Shell.Pattern
import NicTuning.Shell.Program
import NicTuning.Shell.Program.Basic
import NicTuning.Shell.Program.Files
import NicTuning.Shell.Program.Filter
import NicTuning.Shell.Run
import NicTuning.Shell.State
import NicTuning.Shell.Syntax
import NicTuning.Shell.Token
import NicTuning.Stack
import NicTuning.Text.Affix
import NicTuning.Text.Blank
import NicTuning.Text.Casing
import NicTuning.Text.Casing.Table
import NicTuning.Text.Lines
import NicTuning.Text.Quoted
import NicTuning.Text.Quoted.Table
import NicTuning.Text.Utf8
import NicTuning.Tuning.Basic
import NicTuning.Tuning.Decoding
import NicTuning.Tuning.Encoding
import NicTuning.Tuning.Example
import NicTuning.Tuning.Source
import NicTuning.Tuning.Validation
import NicTuning.Yaml.Character
import NicTuning.Yaml.Cursor
import NicTuning.Yaml.Node
import NicTuning.Yaml.Plain
import NicTuning.Yaml.Reader
import NicTuning.Yaml.Scalar
import NicTuning.Yaml.Token
import NicTuning.Yaml.Writer
import NicTuning.Proofs.Course
import NicTuning.Proofs.Intents
import NicTuning.Proofs.Recording
import NicTuning.Proofs.Pinning
import NicTuning.Proofs.Layers
import NicTuning.Proofs.Accounting
import NicTuning.Proofs.Planning
import NicTuning.Proofs.Debts
import NicTuning.Proofs.Restoring
import NicTuning.Proofs.Runs
import NicTuning.Proofs.Activity
import NicTuning.Proofs.Services
import NicTuning.Proofs.Balancer
import NicTuning.Proofs.Validity
import NicTuning.Proofs.Faults
import NicTuning.Proofs.Refusal
import NicTuning.Proofs.Undoing
import NicTuning.Proofs.Describing
import NicTuning.Proofs.ToolKeys
import NicTuning.Proofs.Repeating
import NicTuning.Proofs.Territory
import NicTuning.Proofs.Reordering
import NicTuning.Proofs.Admission
import NicTuning.Proofs.Splitting
import NicTuning.Proofs.Words
import NicTuning.Proofs.WriteCommands
import NicTuning.Proofs.Numerals
import NicTuning.Proofs.JsonTexts
import NicTuning.Proofs.TuningDocuments
import NicTuning.Proofs.PrintedLines
import NicTuning.Proofs.DeviceTools
import NicTuning.Proofs.RootQdiscs
import NicTuning.Proofs.KeyValues
import NicTuning.Proofs.QueueCounts
import NicTuning.Proofs.PrintedAttributes
import NicTuning.Proofs.ProcessorChecks
import NicTuning.Proofs.Visits
import NicTuning.Proofs.Links
import NicTuning.Proofs.Assignments
import NicTuning.Proofs.Applying
import NicTuning.Proofs.Rewriting
import NicTuning.Proofs.Outstanding
import NicTuning.Proofs.Unwinding
import NicTuning.Proofs.CoalescingRequests
import NicTuning.Proofs.CoalescingWrites
import NicTuning.Proofs.Steps
import NicTuning.Proofs.CoalescingOrder
import NicTuning.Proofs.Deeds
import NicTuning.Proofs.Projection
import NicTuning.Proofs.Isolation
import NicTuning.Proofs.Dictionaries
import NicTuning.Proofs.ChannelReports
import NicTuning.Proofs.InterruptRows
import NicTuning.Proofs.LedgerCalls
import NicTuning.Proofs.Leftovers
import NicTuning.Proofs.FirstColon
import NicTuning.Proofs.LinkFlags
import NicTuning.Proofs.WrittenSettings
