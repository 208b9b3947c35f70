import SgxActivation.Activation
import SgxActivation.CommandLine.Invocation
import SgxActivation.CommandLine.Options
import SgxActivation.CommandLine.Usage
import SgxActivation.Config
import SgxActivation.Config.Document
import SgxActivation.Cpuid
import SgxActivation.Description
import SgxActivation.Event
import SgxActivation.Failure
import SgxActivation.Filesystem.Administration
import SgxActivation.Filesystem.Calls
import SgxActivation.Filesystem.Lookup
import SgxActivation.Filesystem.Node
import SgxActivation.Filesystem.Route
import SgxActivation.Filesystem.Store
import SgxActivation.Json
import SgxActivation.Json.Printer
import SgxActivation.Machine
import SgxActivation.Main
import SgxActivation.Path
import SgxActivation.Program
import SgxActivation.Record
import SgxActivation.Report
import SgxActivation.Scripted.Processor
import SgxActivation.Scripted.Store
import SgxActivation.Session
import SgxActivation.Status
import SgxActivation.Support
import SgxActivation.SystemError
import SgxActivation.Table
import SgxActivation.Text.Extending
import SgxActivation.Text.Hexadecimal
import SgxActivation.Text.Plain
import SgxActivation.Text.Quoted
import SgxActivation.Text.Unprintable
import SgxActivation.Toml.Document
import SgxActivation.Toml.Grammar
import SgxActivation.Toml.Lexical
import SgxActivation.Toml.Moment
import SgxActivation.Toml.Number
import SgxActivation.Toml.Quoted
import SgxActivation.Toml.Value
import SgxActivation.Proofs.Examination
import SgxActivation.Proofs.Record
import SgxActivation.Proofs.Classification
import SgxActivation.Proofs.Enabling
import SgxActivation.Proofs.WriteProtocol
import SgxActivation.Proofs.RecordedOnce
import SgxActivation.Proofs.StoreCalls
import SgxActivation.Proofs.EnablePerformed
import SgxActivation.Proofs.Filesystem.Lookup
import SgxActivation.Proofs.Filesystem.Route
import SgxActivation.Proofs.Filesystem.Store
import SgxActivation.Proofs.FailedEnable
import SgxActivation.Proofs.Decision
import SgxActivation.Proofs.LastingEnable
import SgxActivation.Proofs.HonestStore
import SgxActivation.Proofs.Interleaving
import SgxActivation.Proofs.Race
import SgxActivation.Proofs.HonestRuns
import SgxActivation.Proofs.Filesystem.CanonicalPath
import SgxActivation.Proofs.Filesystem.PlainTree
import SgxActivation.Proofs.Refinement
import SgxActivation.Proofs.Enumeration
import SgxActivation.Proofs.Architecture
import SgxActivation.Proofs.Coherence
import SgxActivation.Proofs.FirstFailure
import SgxActivation.Proofs.LargerCap
import SgxActivation.Proofs.ExitCode
import SgxActivation.Proofs.SubleafOrder
import SgxActivation.Proofs.Capability
import SgxActivation.Proofs.Filesystem.Resolution
import SgxActivation.Proofs.Filesystem.BrokenWrite
import SgxActivation.Proofs.Filesystem.ReadBack
import SgxActivation.Proofs.RecordCodec
import SgxActivation.Proofs.Transparency
import SgxActivation.Proofs.Toml.Building
import SgxActivation.Proofs.Overlay
import SgxActivation.Proofs.Acceptance
import SgxActivation.Proofs.Warnings
import SgxActivation.Proofs.Json.Decoder
import SgxActivation.Proofs.ReportText
import SgxActivation.Proofs.CommandLine.Spelling
import SgxActivation.Proofs.CommandLine.Parsing
import SgxActivation.Proofs.CommandLine.Stopping
import SgxActivation.Proofs.CommandLine.Gates
import SgxActivation.Proofs.CommandLine.Stopping
