import OptionHost.Behaviour
import OptionHost.Bridge
import OptionHost.Engine.Basic
import OptionHost.Engine.Monty
import OptionHost.Engine.StandIn
import OptionHost.Engine.Starlark
import OptionHost.Fault
import OptionHost.Globals
import OptionHost.Host
import OptionHost.Issue
import OptionHost.Journal
import OptionHost.Json.Call
import OptionHost.Json.Printer
import OptionHost.Json.Reader
import OptionHost.Layer.EnvironmentFile
import OptionHost.Layer.File
import OptionHost.Layer.Merge
import OptionHost.Layer.Override
import OptionHost.Layer.Path
import OptionHost.Number.Binary64
import OptionHost.Number.Literal
import OptionHost.Number.Shortest
import OptionHost.Report
import OptionHost.Runner
import OptionHost.Script.Program
import OptionHost.Script.Run
import OptionHost.Session
import OptionHost.Settings.Admission
import OptionHost.Settings.Basic
import OptionHost.Settings.Initial
import OptionHost.Settings.Loading
import OptionHost.Settings.Sections
import OptionHost.Signature
import OptionHost.Startup
import OptionHost.Store.Basic
import OptionHost.Store.Fixed
import OptionHost.Store.Pattern
import OptionHost.Text.Base64
import OptionHost.Text.Blank
import OptionHost.Text.Digit
import OptionHost.Text.LowerCase
import OptionHost.Text.Printable
import OptionHost.Text.Quoted
import OptionHost.Text.Utf8
import OptionHost.Value.Basic
import OptionHost.Value.Entries
import OptionHost.Value.Equality
import OptionHost.Value.Order
import OptionHost.Value.Shown
import OptionHost.Yaml.Cursor
import OptionHost.Yaml.Document
import OptionHost.Yaml.Node
import OptionHost.Yaml.Scalar
import OptionHost.Yaml.ScalarText
import OptionHost.Yaml.Tag
import OptionHost.Yaml.Timestamp
import OptionHost.Yaml.Token
import OptionHost.Proofs.Outcome
import OptionHost.Proofs.Act
import OptionHost.Proofs.Composition
import OptionHost.Proofs.Move
import OptionHost.Proofs.Conduct
import OptionHost.Proofs.Requests
import OptionHost.Proofs.StoreStep
import OptionHost.Proofs.StoreHistory
import OptionHost.Proofs.Snapshot
import OptionHost.Proofs.Evaluation
import OptionHost.Proofs.Rejection
import OptionHost.Proofs.NameTable
import OptionHost.Proofs.OnStore
import OptionHost.Proofs.OptionScript
import OptionHost.Proofs.AccessorCalls
import OptionHost.Proofs.ScriptRoutes
import OptionHost.Proofs.EngineIndependence
import OptionHost.Proofs.UnderWay
import OptionHost.Proofs.Lockstep
import OptionHost.Proofs.FatalRejection
import OptionHost.Proofs.Revocation
import OptionHost.Proofs.Notification
import OptionHost.Proofs.FailedRequests
import OptionHost.Proofs.Register
import OptionHost.Proofs.EngineReports
import OptionHost.Proofs.Turns
import OptionHost.Proofs.TimelyFaults
import OptionHost.Proofs.Isolation
import OptionHost.Proofs.DistinctKeys
import OptionHost.Proofs.ProperDocuments
import OptionHost.Proofs.SettingsReading
import OptionHost.Proofs.Overriding
import OptionHost.Proofs.LoadRun
import OptionHost.Proofs.Layering
import OptionHost.Proofs.Agreement
import OptionHost.Proofs.LoadStages
import OptionHost.Proofs.Precedence
import OptionHost.Proofs.Rounds
import OptionHost.Proofs.NameAgreement
import OptionHost.Proofs.Completion
import OptionHost.Proofs.DocumentedErrors
import OptionHost.Proofs.Sorting
import OptionHost.Proofs.AdmissionPaths
import OptionHost.Proofs.AccessorOutcomes
import OptionHost.Proofs.KeyIdentity
import OptionHost.Proofs.LayerPaths
import OptionHost.Proofs.LayerGrouping
import OptionHost.Proofs.Utf8Encoding
import OptionHost.Proofs.TokenFaults
import OptionHost.Proofs.DocumentFaults
import OptionHost.Proofs.ReadableFiles
import OptionHost.Proofs.PathWriting
import OptionHost.Proofs.EntryOrder
import OptionHost.Proofs.OverrideOrder
import OptionHost.Proofs.RefusedLoads
import OptionHost.Proofs.Rereading
import OptionHost.Proofs.IndependentLoads
import OptionHost.Proofs.ClassPatterns
import OptionHost.Proofs.NameAssembly
import OptionHost.Proofs.HostCalls
