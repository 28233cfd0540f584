import Dualbank.Bench.Doubles
import Dualbank.Bench.Executable
import Dualbank.Bench.FileTree
import Dualbank.Bench.Machine
import Dualbank.Bench.Rig
import Dualbank.Bench.Shell.Arithmetic
import Dualbank.Bench.Shell.Builtins
import Dualbank.Bench.Shell.Fields
import Dualbank.Bench.Shell.Lookup
import Dualbank.Bench.Shell.Pattern
import Dualbank.Bench.Shell.Process
import Dualbank.Bench.Shell.Programs
import Dualbank.Bench.Shell.Quoted
import Dualbank.Bench.Shell.Reader
import Dualbank.Bench.Shell.Run
import Dualbank.Bench.Shell.Script
import Dualbank.Bench.Shell.Streams
import Dualbank.Bench.Variables
import Dualbank.Call
import Dualbank.CommandLine.Command
import Dualbank.CommandLine.Grammar
import Dualbank.CommandLine.Run
import Dualbank.CommandLine.Scan
import Dualbank.Device.Answer
import Dualbank.Device.BootEnv
import Dualbank.Device.Console
import Dualbank.Device.Engine
import Dualbank.Device.Files
import Dualbank.Device.Record
import Dualbank.Device.System
import Dualbank.Error
import Dualbank.Exit.Code
import Dualbank.Exit.Report
import Dualbank.Main
import Dualbank.OsError
import Dualbank.Package
import Dualbank.Path
import Dualbank.Phase
import Dualbank.Plan
import Dualbank.Program
import Dualbank.Settings.Basic
import Dualbank.Settings.Layers
import Dualbank.Settings.Toml.Document
import Dualbank.Settings.Toml.Scalar
import Dualbank.Settings.Toml.Table
import Dualbank.Settings.Toml.Text
import Dualbank.Settings.Value
import Dualbank.Settings.Variables
import Dualbank.Slot
import Dualbank.Staging
import Dualbank.Target
import Dualbank.Text.Blank
import Dualbank.Text.Decimal
import Dualbank.Text.Json
import Dualbank.Text.Line
import Dualbank.Text.Lower
import Dualbank.Text.Utf8
import Dualbank.Update
import Dualbank.Version
import Dualbank.WorkDir
import Dualbank.WorkDir.Entry
import Dualbank.Proofs.Footprint
import Dualbank.Proofs.Operation
import Dualbank.Proofs.Phase.Recorded
import Dualbank.Proofs.Files
import Dualbank.Proofs.Phase.Edge
import Dualbank.Proofs.Phase.Conformance
import Dualbank.Proofs.Device.Board
import Dualbank.Proofs.Device.Calls
import Dualbank.Proofs.Device.Confirmation
import Dualbank.Proofs.Device.FailedReboot
import Dualbank.Proofs.Device.FailedReading
import Dualbank.Proofs.Engine.Work
import Dualbank.Proofs.Engine.Gating
import Dualbank.Proofs.Rollback.Kept
import Dualbank.Proofs.Rollback.Marker
import Dualbank.Proofs.Rollback.Leftover
import Dualbank.Proofs.WorkDir.Clearing
import Dualbank.Proofs.Device.PowerLoss
import Dualbank.Proofs.Rollback.Resolved
import Dualbank.Proofs.Device.Store
import Dualbank.Proofs.Phase.Admission
import Dualbank.Proofs.Phase.Unknown
import Dualbank.Proofs.WorkDir.Repeated
import Dualbank.Proofs.Plan.Race
import Dualbank.Proofs.WorkDir.Race
import Dualbank.Proofs.Plan.Past
import Dualbank.Proofs.WorkDir.Frame
import Dualbank.Proofs.Exit.Session
import Dualbank.Proofs.Exit.Apply
import Dualbank.Proofs.Exit.Accomplished
import Dualbank.Proofs.Exit.Success
import Dualbank.Proofs.Engine.Converges
import Dualbank.Proofs.Plan.Outcome
import Dualbank.Proofs.Progress.Percent
import Dualbank.Proofs.Progress.Download
import Dualbank.Proofs.Engine.Responses
import Dualbank.Proofs.Engine.Updated
import Dualbank.Proofs.Engine.Switched
import Dualbank.Proofs.Text.Utf8
import Dualbank.Proofs.Text.Numeral
import Dualbank.Proofs.Text.Names
import Dualbank.Proofs.WorkDir.Announced
import Dualbank.Proofs.WorkDir.Atomic
import Dualbank.Proofs.Engine.Newer
import Dualbank.Proofs.WorkDir.Activation
import Dualbank.Proofs.Plan.Bound
import Dualbank.Proofs.Phase.Faults
import Dualbank.Proofs.Phase.Rounds
import Dualbank.Proofs.Exit.Gate
import Dualbank.Proofs.Device.Listing
import Dualbank.Proofs.Path
import Dualbank.Proofs.Tree.Way
import Dualbank.Proofs.Tree.Entry
import Dualbank.Proofs.WorkDir.Presence
import Dualbank.Proofs.Plan.Reach
import Dualbank.Proofs.Device.Console
import Dualbank.Proofs.CommandLine.Stick
import Dualbank.Proofs.Phase.Stored
import Dualbank.Proofs.Progress.Wait
import Dualbank.Proofs.Settings.Merge
import Dualbank.Proofs.Settings.Distinct
import Dualbank.Proofs.Settings.Leaf
import Dualbank.Proofs.Settings.Override
